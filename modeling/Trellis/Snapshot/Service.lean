import Trellis.Core.Failure
import Trellis.Core.HashChain
import Trellis.Core.Json

/-!
# Signed snapshots

`createSnapshot` and `verifySnapshot` of `snapshot.service.ts`: a payload is collected, its secrets
are redacted, and the hash of its canonical text is signed with a key.
-/

namespace Trellis.Snapshot

open Core

/-! ## Configuration -/

/-- SHA-256, the HMAC with the signing key, `toLowerCase`, and the order in which an object of
entries that `localeCompare` has sorted lists its keys. -/
structure SnapshotConfig where
  sha256 : HexDigest
  hmac : HexDigest
  toLowerCase : String → String
  keyOrder : String → String → Bool

def redactedFieldNames : List String :=
  ["password", "passwordHash", "hashedPassword", "secret", "privateKey", "signingKey", "apiKey",
    "accessToken", "refreshToken", "authToken", "jwtSecret", "salt", "mnemonic", "seedPhrase",
    "walletSecret", "pin"]

def redactedPlaceholder : Value :=
  .str "[REDACTED]"

def snapshotMaxRecords : Int := 10000

def criticalTables : List String :=
  ["users", "portfolios", "portfolio_assets", "transactions", "agent_reviews", "agent_events",
    "background_jobs", "retry_operations", "audit_logs", "sensitive_action_events",
    "provenance_records", "search_records"]

/-! ## Canonical texts -/

mutual

/-- The values that the replacer of `canonicalise` returns, at every depth. -/
def sortDeep (cfg : SnapshotConfig) : Value → Value
  | .arr items => .arr (sortDeepItems cfg items)
  | .obj members =>
    .obj ((sortDeepMembers cfg members).insertionSort fun m m' => cfg.keyOrder m.1 m'.1 = true)
  | v => v

def sortDeepItems (cfg : SnapshotConfig) : List Value → List Value
  | [] => []
  | v :: vs => sortDeep cfg v :: sortDeepItems cfg vs

def sortDeepMembers (cfg : SnapshotConfig) : List (String × Value) → List (String × Value)
  | [] => []
  | (key, v) :: ms => (key, sortDeep cfg v) :: sortDeepMembers cfg ms

end

variable (cfg : SnapshotConfig)

def canonicalise (v : Value) : Option String :=
  stringify (sortDeep cfg v)

/-- `hash`, which throws where there is no text. -/
def hashOf : Option String → Except Failure String
  | some text => .ok (cfg.sha256.digest text)
  | none => .error (.error ("The \"data\" argument must be of type string or an instance of " ++
      "Buffer, TypedArray, or DataView. Received undefined"))

def sign (hash : String) : String :=
  cfg.hmac.digest hash

mutual

def countRecords : Value → Nat
  | .arr items => items.length
  | .obj members => countMembers members
  | _ => 1

def countMembers : List (String × Value) → Nat
  | [] => 0
  | (_, v) :: ms => countRecords v + countMembers ms

end

/-! ## Redaction -/

/-- `add` of a set in the order of insertion. -/
def addField (removed : List String) (key : String) : List String :=
  if key ∈ removed then removed else removed ++ [key]

def isRedacted (key : String) : Bool :=
  cfg.toLowerCase key ∈ redactedFieldNames || key ∈ redactedFieldNames

mutual

/-- `deepRedact`, with the set of the removed fields. -/
def deepRedact (cfg : SnapshotConfig) : Value → List String → Value × List String
  | .arr items, removed =>
    let result := redactItems cfg items removed
    (.arr result.1, result.2)
  | .obj members, removed =>
    let result := redactMembers cfg members removed
    (.obj result.1, result.2)
  | v, removed => (v, removed)

def redactItems (cfg : SnapshotConfig) : List Value → List String → List Value × List String
  | [], removed => ([], removed)
  | v :: vs, removed =>
    let first := deepRedact cfg v removed
    let rest := redactItems cfg vs first.2
    (first.1 :: rest.1, rest.2)

def redactMembers (cfg : SnapshotConfig) :
    List (String × Value) → List String → List (String × Value) × List String
  | [], removed => ([], removed)
  | (key, v) :: ms, removed =>
    if isRedacted cfg key then
      let rest := redactMembers cfg ms (addField removed key)
      ((key, redactedPlaceholder) :: rest.1, rest.2)
    else
      let first := deepRedact cfg v removed
      let rest := redactMembers cfg ms first.2
      ((key, first.1) :: rest.1, rest.2)

end

/-! ## Creation -/

structure RequestSnapshotDto where
  scope : String
  label : Option String := none
  resourceIds : Option (List String) := none
  limit : Option Int := none

/-- What the outside says to a creation: the id, the clock, the environment, and how many rows the
tables have that are registered. -/
structure SnapshotInputs where
  id : String
  capturedAt : String
  createdAt : String
  environment : Option String := none
  tableCount : String → Option Nat
  activeSearchRecords : Nat

structure SnapshotRecord where
  id : String
  label : Option String
  scope : String
  createdAt : String
  payload : Value
  integrityHash : String
  signature : String
  redactedFields : List String
  recordCount : Nat

def collectPayload (inputs : SnapshotInputs) (scope : String) (resourceIds : Option (List String))
    (limit : Int) : List (String × Value) :=
  [("scope", .str scope), ("capturedAt", .str inputs.capturedAt),
    ("environment", .str (inputs.environment.getD "unknown"))] ++ (match resourceIds with
    | some (id :: ids) => [("resourceIds", .arr ((id :: ids).map .str))]
    | _ => []) ++ [("meta", .obj [("limit", .int limit),
    ("note", .str "live data injected by repository layer in production")])]

def captureRestoreManifest (inputs : SnapshotInputs) : Except Failure Value := do
  let counts ← criticalTables.mapM fun table =>
    match inputs.tableCount table with
    | some count => .ok (table, Value.int count)
    | none => .error (.error ("Cannot verify snapshot: critical table " ++ table ++
        " is not registered with TypeORM"))
  .ok (.obj [("criticalTableCounts", .obj counts),
    ("activeSearchRecords", .int inputs.activeSearchRecords)])

def createSnapshot (dto : RequestSnapshotDto) (inputs : SnapshotInputs) :
    Except Failure SnapshotRecord := do
  let limit := min (dto.limit.getD 500) snapshotMaxRecords
  let rawPayload := collectPayload inputs dto.scope dto.resourceIds limit
  let manifest ← captureRestoreManifest inputs
  let result := deepRedact cfg (.obj (rawPayload ++ [("restoreManifest", manifest)])) []
  let redacted := result.1
  let integrityHash ← hashOf cfg (canonicalise cfg redacted)
  .ok
    { id := inputs.id, label := dto.label, scope := dto.scope, createdAt := inputs.createdAt,
      payload := redacted, integrityHash, signature := sign cfg integrityHash,
      redactedFields := result.2, recordCount := countRecords redacted }

/-! ## Verification -/

structure VerifySnapshotDto where
  snapshotId : String
  expectedSignature : Option String := none

structure SnapshotVerificationResult where
  snapshotId : String
  valid : Bool
  hashMatch : Bool
  signatureMatch : Bool
  reason : Option String
deriving DecidableEq

def comparedSignature (expectedSignature : Option String) (recomputed : String) : String :=
  match expectedSignature with
  | some signature => if signature = "" then sign cfg recomputed else signature
  | none => sign cfg recomputed

def verifyRecord (dto : VerifySnapshotDto) (record : SnapshotRecord) :
    Except Failure SnapshotVerificationResult := do
  let recomputed ← hashOf cfg (canonicalise cfg record.payload)
  let payloadHashMatches : Bool := recomputed = record.integrityHash
  let recordCountMatches : Bool := countRecords record.payload = record.recordCount
  let hashMatch := payloadHashMatches && recordCountMatches
  let signatureMatch : Bool :=
    comparedSignature cfg dto.expectedSignature recomputed = record.signature
  .ok
    { snapshotId := dto.snapshotId
      valid := hashMatch && signatureMatch
      hashMatch := hashMatch
      signatureMatch := signatureMatch
      reason :=
        if !payloadHashMatches then
          some "Integrity hash mismatch — payload was modified after export"
        else if !recordCountMatches then
          some "Record count mismatch — snapshot payload is incomplete or inconsistent"
        else if !signatureMatch then
          some "Signature mismatch — snapshot may have been tampered with"
        else none }

def verifySnapshot (snapshots : List SnapshotRecord)
    (dto : VerifySnapshotDto) : Except Failure SnapshotVerificationResult :=
  match snapshots.find? (·.id = dto.snapshotId) with
  | none =>
    .ok
      { snapshotId := dto.snapshotId, valid := false, hashMatch := false, signatureMatch := false,
        reason := some "Snapshot not found" }
  | some record => verifyRecord cfg dto record

end Trellis.Snapshot
