import Trellis.Common.CanonicalJson

/-!
# Signed payloads

The row of `signed-payload.entity.ts`, and what `submitter.service.ts` and
`submission-batch.service.ts` have in common: the kinds of failures and the delays between
attempts.
-/

namespace Trellis.Oracle

open Core

/-! ## The row -/

inductive PayloadStatus where
  | pending
  | submitted
  | confirmed
  | failed
deriving DecidableEq

def PayloadStatus.text : PayloadStatus → String
  | .pending => "pending"
  | .submitted => "submitted"
  | .confirmed => "confirmed"
  | .failed => "failed"

inductive PayloadType where
  | oracleUpdate
  | agentResult
  | priceFeed
  | computeProof

/-- The columns of `SignedPayload` that the services read or write; times in milliseconds. -/
structure SignedPayload where
  id : String
  payloadType : PayloadType := .oracleUpdate
  nonce : String := "0"
  payload : Value := .obj []
  payloadHash : String
  signature : String
  expiresAt : Int
  status : PayloadStatus := .pending
  transactionHash : Option String := none
  blockNumber : Option String := none
  submissionAttempts : Int := 0
  errorMessage : Option String := none
  updatedAt : Int := 0
  submittedAt : Option Int := none
  confirmedAt : Option Int := none

/-! ## Failures -/

inductive FailureType where
  | retryable
  | permanent
deriving DecidableEq

def permanentPatterns : List String :=
  ["expired", "invalid signature", "unauthorized", "insufficient funds", "nonce too low",
    "already submitted", "execution reverted", "vm exception"]

def retryablePatterns : List String :=
  ["network error", "timeout", "econnreset", "socket hang up", "temporary",
    "service unavailable", "gateway error", "rate limit"]

/-- `categorizeFailure` of both services; unknown failures are retryable. -/
def categorizeFailure (toLowerCase : String → String) (message : String) : FailureType :=
  if permanentPatterns.any (includes (toLowerCase message)) then .permanent
  else if retryablePatterns.any (includes (toLowerCase message)) then .retryable
  else .retryable

/-- What the catch blocks throw at a thrown value that has no message. -/
def noMessage : Failure :=
  .error "Cannot read properties of undefined (reading 'toLowerCase')"

/-! ## Delays -/

structure Backoff where
  initial : ℚ := 1000
  max : ℚ := 60000
  multiplier : ℚ := 2

/-- `calculateRetryDelay`; attempts are counted from one. -/
def Backoff.calculateRetryDelay (options : Backoff) (attempt : Nat) : ℚ :=
  min (options.initial * options.multiplier ^ (attempt - 1)) options.max

end Trellis.Oracle
