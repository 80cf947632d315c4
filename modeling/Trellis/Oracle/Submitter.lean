import Trellis.Core.Pool
import Trellis.Oracle.Payload

/-!
# The submitter of signed payloads

`submitPayload`, `retrySubmission` and `monitorTransaction` of `submitter.service.ts`; a monitor
runs on after its call has returned. The world is that of one payload: its row, the transactions
that the contract has returned for it and their receipts.
-/

namespace Trellis.Oracle

open Core

/-! ## Awaited operations -/

structure ContractArgs where
  payloadType : PayloadType
  payloadHash : String
  nonce : String
  expiresAt : Int
  data : String
  signature : String

/-- What the submitter reads of a `TransactionReceipt`; `succeeded` is `status === 1`. -/
structure Receipt where
  succeeded : Bool
  blockNumber : Nat
deriving DecidableEq

/-- The repository, the contract, the provider, the clock and the timer.  The last three mark the
begin of a call, its end, with the transaction whose monitor it leaves behind, and the end of that
monitor; no code reads them. -/
inductive SubmitterOp where
  | findOne (id : String)
  | save (payload : SignedPayload)
  | estimateGas (args : ContractArgs)
  | submitPayload (args : ContractArgs) (gasLimit : Int)
  | waitForTransaction (hash : String)
  | now
  | sleep (delay : ℚ)
  | began (id : String) (retry : Bool)
  | finished (monitored : Option String)
  | stopped

/-- What each operation resolves to; a transaction is its hash. -/
def SubmitterOp.Res : SubmitterOp → Type
  | .findOne _ => Option SignedPayload
  | .estimateGas _ => Nat
  | .submitPayload _ _ => String
  | .waitForTransaction _ => Option Receipt
  | .now => Int
  | .save _ | .sleep _ | .began _ _ | .finished _ | .stopped => Unit

abbrev submitterInterface : Interface :=
  ⟨SubmitterOp, SubmitterOp.Res⟩

abbrev SubmitterProgram (α : Type) : Type :=
  Async submitterInterface Failure α

abbrev askSubmitter (op : submitterInterface.Op) : SubmitterProgram (submitterInterface.Res op) :=
  .call op

/-- The configuration; an unconfigured service has neither provider, wallet nor contract. -/
structure SubmitterConfig where
  configured : Bool := true
  maxRetries : Int := 5
  backoff : Backoff := {}
  gasLimitMultiplier : ℚ := 12 / 10
  toLowerCase : String → String

/-! ## Attempts -/

variable (cfg : SubmitterConfig) (payloadId : String) (payload : SignedPayload)

def contractArgs : Except Failure ContractArgs := do
  let data ← Common.canonicalJson payload.payload
  .ok
    { payloadType := payload.payloadType, payloadHash := payload.payloadHash,
      nonce := payload.nonce, expiresAt := payload.expiresAt / 1000, data,
      signature := payload.signature }

def estimateGas (payload : SignedPayload) : SubmitterProgram Nat := do
  let estimate : SubmitterProgram Nat := do
    let args ← Async.ofExcept (contractArgs payload)
    askSubmitter (.estimateGas args)
  match ← estimate.attempt with
  | .ok gas => .done gas
  | .error _ => .done 300000

/-- The part of an attempt that ends with the contract's answer. -/
def broadcastPayload : SubmitterProgram String := do
  let gas ← estimateGas payload
  let args ← Async.ofExcept (contractArgs payload)
  askSubmitter (.submitPayload args ⌈(gas : ℚ) * cfg.gasLimitMultiplier⌉)

def submittedAs (hash : String) (attempt : Nat) (now : Int) : SignedPayload :=
  { payload with
    transactionHash := some hash, status := .submitted, submittedAt := some now,
    submissionAttempts := attempt, errorMessage := none }

/-- What `submitPayload` resolves to; `monitored` says whether a monitor was started. -/
structure Submission where
  transactionHash : String
  payload : SignedPayload
  monitored : Bool

/-- The `catch` of an attempt; `payload` is the payload as the attempt has changed it. -/
def retryOrFail (attempt : Nat) (e : Failure)
    (retry : SignedPayload → SubmitterProgram Submission) : SubmitterProgram Submission :=
  match e.message? with
  | none => .fail noMessage
  | some message =>
    let payload :=
      { payload with submissionAttempts := (attempt : Int), errorMessage := some message }
    if cfg.maxRetries < attempt ∨ categorizeFailure cfg.toLowerCase message = .permanent then do
      askSubmitter (.save { payload with status := .failed })
      .fail e
    else do
      askSubmitter (.sleep (cfg.backoff.calculateRetryDelay attempt))
      retry payload

/-- The loop of `submitPayload` with `left` attempts left; it throws the last error. -/
def submitAttempts (cfg : SubmitterConfig) :
    Nat → Nat → Failure → SignedPayload → SubmitterProgram Submission
  | 0, _, lastError, _ => .fail lastError
  | left + 1, attempt, _, payload => do
      match ← (broadcastPayload cfg payload).attempt with
      | .error e =>
        retryOrFail cfg payload attempt e (submitAttempts cfg left (attempt + 1) e)
      | .ok hash => do
          let now : Int ← askSubmitter .now
          let payload := submittedAs payload hash attempt now
          match ← (askSubmitter (.save payload)).attempt with
          | .error e =>
            retryOrFail cfg payload attempt e (submitAttempts cfg left (attempt + 1) e)
          | .ok _ => .done { transactionHash := hash, payload := payload, monitored := true }

/-! ## The methods -/

def submitPending : SubmitterProgram Submission :=
  if payload.signature = "" then
    .fail (.badRequest ("Payload " ++ payload.id ++ " is not signed"))
  else do
    let now : Int ← askSubmitter .now
    if payload.expiresAt < now then do
      askSubmitter (.save
        { payload with
          status := .failed, errorMessage := some "Payload expired before submission" })
      .fail (.badRequest "Payload has expired")
    else submitAttempts cfg (cfg.maxRetries + 1).toNat 1 (.other "null") payload

def submitFound : SubmitterProgram Submission :=
  match payload.status, payload.transactionHash.filter (· ≠ "") with
  | .confirmed, some hash =>
    .done { transactionHash := hash, payload := payload, monitored := false }
  | .submitted, some hash =>
    .done { transactionHash := hash, payload := payload, monitored := true }
  | .pending, _ => submitPending cfg payload
  | status, _ => .fail (.badRequest ("Payload " ++ payload.id ++
      " is not in PENDING status (current: " ++ status.text ++ ")"))

/-- `submitPayload`; the monitor that it starts is not part of it. -/
def submitPayload : SubmitterProgram Submission :=
  if cfg.configured then do
    match ← askSubmitter (.findOne payloadId) with
    | none => .fail (.badRequest ("Payload " ++ payloadId ++ " not found"))
    | some payload => submitFound cfg payload
  else .fail (.badRequest "SubmitterService is not configured. Blockchain features are disabled.")

def confirmTransaction (payloadId hash : String) : SubmitterProgram Unit := do
  match ← askSubmitter (.waitForTransaction hash) with
  | none => .fail (.error "Transaction receipt is null")
  | some receipt => do
      match ← askSubmitter (.findOne payloadId) with
      | none => .done ()
      | some payload =>
        if receipt.succeeded then do
          let now : Int ← askSubmitter .now
          askSubmitter (.save
            { payload with
              status := .confirmed, blockNumber := some (Nat.repr receipt.blockNumber),
              confirmedAt := some now, errorMessage := none })
        else
          askSubmitter (.save
            { payload with
              status := .failed, errorMessage := some "Transaction reverted on-chain" })

def monitorTransaction (payloadId hash : String) : SubmitterProgram Unit := do
  match ← (confirmTransaction payloadId hash).attempt with
  | .ok _ => .done ()
  | .error e => do
      match ← askSubmitter (.findOne payloadId) with
      | none => .done ()
      | some payload =>
        askSubmitter (.save
          { payload with
            status := .failed
            errorMessage := some
              ("Transaction monitoring failed: " ++ e.message?.getD "undefined") })

def retrySubmission : SubmitterProgram Submission := do
  match ← askSubmitter (.findOne payloadId) with
  | none => .fail (.badRequest ("Payload " ++ payloadId ++ " not found"))
  | some payload =>
    if cfg.maxRetries ≤ payload.submissionAttempts then
      .fail (.badRequest ("Payload has exceeded maximum retry attempts (" ++
        String.ofList (intText cfg.maxRetries) ++ ")"))
    else do
      askSubmitter
        (.save { payload with status := .pending, errorMessage := none })
      submitPayload cfg payloadId

/-! ## Calls -/

inductive SubmitterCall where
  | submit
  | retry
deriving DecidableEq

def SubmitterCall.method : SubmitterCall → SubmitterProgram Submission
  | .submit => submitPayload cfg payloadId
  | .retry => retrySubmission cfg payloadId

/-- What a call leaves behind: its end and, if it has started one, the monitor, whose rejection
is only logged. -/
def leaveMonitor (hash : String) : SubmitterProgram Unit := do
  askSubmitter (.finished (some hash))
  let _ ← (monitorTransaction payloadId hash).attempt
  askSubmitter .stopped

def SubmitterCall.program (call : SubmitterCall) : SubmitterProgram Unit := do
  askSubmitter (.began payloadId (call = .retry))
  match ← (call.method cfg payloadId).attempt with
  | .error _ => askSubmitter (.finished none)
  | .ok submission =>
    if submission.monitored then leaveMonitor payloadId submission.transactionHash
    else askSubmitter (.finished none)

/-! ## The world -/

/-- The rows, the transactions that the contract has returned, the receipts, for each call of the
contract the transactions that were live when it was made, the caller whose call is running, and
the monitors with the callers that have started them. -/
structure SubmitterWorld (ι : Type) where
  rows : String → Option SignedPayload
  returned : List String := []
  receipts : String → Option Receipt := fun _ => none
  broadcasts : List (List String) := []
  running : Option ι := none
  monitors : List (ι × String) := []

/-- How an operation ends: it is performed, at a time, with an estimate of the gas or with the hash
of a new transaction; the provider has no receipt; it is rejected without effect, or performed and
its answer is lost. -/
inductive SubmitterChoice where
  | served (time : Int)
  | estimated (gas : Nat)
  | accepted (hash : String)
  | nothing
  | rejected (e : Failure)
  | lost (e : Failure)

namespace SubmitterWorld

variable {ι : Type}

def reverted (w : SubmitterWorld ι) (hash : String) : Bool :=
  (w.receipts hash).any fun receipt => !receipt.succeeded

/-- The returned transactions that have no receipt with status 0. -/
def live (w : SubmitterWorld ι) : List String :=
  w.returned.filter fun hash => !w.reverted hash

def stored (w : SubmitterWorld ι) (payload : SignedPayload) : SubmitterWorld ι :=
  { w with rows := Function.update w.rows payload.id (some payload) }

def called (w : SubmitterWorld ι) : SubmitterWorld ι :=
  { w with broadcasts := w.live :: w.broadcasts }

def perform [DecidableEq ι] (i : ι) : (op : SubmitterOp) → SubmitterChoice → SubmitterWorld ι →
      Option (Except Failure op.Res × SubmitterWorld ι)
  | .findOne id, .served _, w => some (.ok (w.rows id), w)
  | .save payload, .served _, w => some (.ok (), w.stored payload)
  | .save payload, .lost e, w => some (.error e, w.stored payload)
  | .estimateGas _, .estimated gas, w => some (.ok gas, w)
  | .submitPayload _ _, .accepted hash, w =>
    if hash ∈ w.returned then none
    else some (.ok hash, { w.called with returned := hash :: w.returned })
  | .submitPayload _ _, .rejected e, w | .submitPayload _ _, .lost e, w =>
    some (.error e, w.called)
  | .waitForTransaction hash, .served _, w =>
    (w.receipts hash).map fun receipt => (.ok (some receipt), w)
  | .waitForTransaction _, .nothing, w => some (.ok none, w)
  | .now, .served time, w => some (.ok time, w)
  | .sleep _, .served _, w => some (.ok (), w)
  | .began _ _, .served _, w => some (.ok (), { w with running := some i })
  | .finished monitored, .served _, w =>
    some (.ok (),
      { w with running := none, monitors := monitored.toList.map (i, ·) ++ w.monitors })
  | .stopped, .served _, w =>
    some (.ok (), { w with monitors := w.monitors.filter fun m => m.1 ≠ i })
  | .findOne _, .rejected e, w | .findOne _, .lost e, w | .save _, .rejected e, w
  | .estimateGas _, .rejected e, w | .estimateGas _, .lost e, w
  | .waitForTransaction _, .rejected e, w | .waitForTransaction _, .lost e, w =>
    some (.error e, w)
  | _, _, _ => none

/-- A transaction is mined; its receipt does not change any more. -/
def mined (hash : String) (receipt : Receipt) (w : SubmitterWorld ι) : SubmitterWorld ι :=
  if (w.receipts hash).isSome then w
  else { w with receipts := Function.update w.receipts hash (some receipt) }

end SubmitterWorld

/-- The calls share the world, and the chain mines transactions on its own. -/
def submitterSemantics (ι : Type) [DecidableEq ι] :
    Semantics submitterInterface Failure ι (SubmitterWorld ι) where
  Choice := SubmitterChoice
  perform := SubmitterWorld.perform
  Event := String × Receipt
  happen e := SubmitterWorld.mined e.1 e.2

def submitterPool {ι : Type} (calls : ι → SubmitterCall) (w : SubmitterWorld ι) :
    Pool submitterInterface Failure ι (SubmitterWorld ι) Unit where
  world := w
  calls i := (calls i).program cfg payloadId

end Trellis.Oracle
