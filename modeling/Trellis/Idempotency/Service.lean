import Trellis.Core.Failure
import Trellis.Core.Pool
import Trellis.Core.Store
import Trellis.Core.Text

/-!
# The idempotency service

`IdempotencyService.execute` over the table of idempotency records, which has at most one row for
a scope and key. A `save` of an entity without an id inserts a row, and one with an id updates its
row or inserts it again. An operation may be served, be rejected, or take effect and be rejected.
-/

namespace Trellis.Idempotency

open Core

/-! ## Records -/

inductive RecordStatus where
  | inProgress
  | completed
  | failed
deriving DecidableEq

/-- A scope and a key, which the unique index of the table is on. -/
abbrev Slot : Type :=
  String × String

/-- `IdempotencyRecord`; an entity that has not been saved has no id, and times are
milliseconds. -/
structure IdempotencyRecord where
  id : Option Nat := none
  scope : String
  idempotencyKey : String
  requestHash : String
  status : RecordStatus
  responseCode : Option Int := none
  responseBody : Option (Option String) := none
  failureReason : Option String := none
  expiresAt : Nat

variable (key : String) (record : IdempotencyRecord)

def IdempotencyRecord.slot : Slot :=
  (record.scope, record.idempotencyKey)

/-- What a handler resolves with; the body is its JSON text, if it has one. -/
structure Response where
  statusCode : Int
  body : Option String

structure IdempotentOutcome where
  replayed : Bool
  statusCode : Int
  body : Option String
  key : String

/-! ## The world -/

/-- A row that was inserted: by which call, for which slot and until when; and whether a
`FAILED` record has been saved over it. -/
structure Claim (ι : Type) where
  owner : ι
  slot : Slot
  expiresAt : Nat
  failed : Bool

inductive Event (ι : Type) where
  | started (call : ι) (slot : Slot) (time : Nat)
  | resolved (call : ι) (slot : Slot) (expiresAt : Nat)
deriving DecidableEq

/-- The rows, the clock, the history of insertions and what the handlers did. -/
structure World (ι : Type) where
  rows : Slot → Option IdempotencyRecord
  clock : Nat
  claims : Slots (Claim ι)
  trace : List (Event ι)

def World.start {ι : Type} (now : Nat) : World ι where
  rows _ := none
  clock := now
  claims := .empty
  trace := []

inductive Op where
  | findOne (slot : Slot)
  | save (record : IdempotencyRecord)
  | remove (record : IdempotencyRecord)
  | now
  | startHandler (record : IdempotencyRecord)
  | awaitHandler (record : IdempotencyRecord)

def Op.Res : Op → Type
  | .findOne _ => Option IdempotencyRecord
  | .save _ => IdempotencyRecord
  | .remove _ => Unit
  | .now => Nat
  | .startHandler _ => Unit
  | .awaitHandler _ => Response

def idempotencyInterface : Interface where
  Op := Op
  Res := Op.Res

abbrev Program (α : Type) : Type :=
  Async idempotencyInterface Failure α

abbrev ask (op : idempotencyInterface.Op) : Program (idempotencyInterface.Res op) :=
  .call op

/-- How the outside answers: it serves the operation, rejects it without effect, or
performs it and rejects it; a handler ends with a response or an error. -/
inductive Choice where
  | served
  | rejected (e : Failure)
  | lost (e : Failure)
  | handled (result : Except Failure Response)

def Choice.applies : Choice → Bool
  | .served | .lost _ => true
  | _ => false

variable {ι : Type}

def uniqueViolation : Failure :=
  .error "duplicate key value violates unique constraint"

def World.write (w : World ι) (record : IdempotencyRecord) : World ι :=
  { w with rows := Function.update w.rows record.slot (some record) }

def World.insert (w : World ι) (i : ι) (record : IdempotencyRecord) : World ι :=
  { w.write { record with id := some w.claims.next } with
    claims := w.claims.push
      { owner := i, slot := record.slot, expiresAt := record.expiresAt
        failed := record.status = .failed } }

/-- The insertion of a row over which a record with this status was saved. -/
def Claim.noted (claim : Claim ι) (status : RecordStatus) : Claim ι :=
  { claim with failed := claim.failed || decide (status = .failed) }

@[simp]
theorem Claim.noted_slot (claim : Claim ι) (status : RecordStatus) :
    (claim.noted status).slot = claim.slot :=
  rfl

@[simp]
theorem Claim.noted_failed (claim : Claim ι) (status : RecordStatus) :
    (claim.noted status).failed = (claim.failed || decide (status = .failed)) :=
  rfl

def World.update (w : World ι) (id : Nat) (record : IdempotencyRecord) : World ι :=
  { w.write record with claims := w.claims.modify id (·.noted record.status) }

/-- `repo.save`, where it takes effect: the stored record and the world after it. -/
def World.save (w : World ι) (i : ι) (record : IdempotencyRecord) :
    Except Failure (IdempotencyRecord × World ι) :=
  match record.id, w.rows record.slot with
  | none, some _ => .error uniqueViolation
  | none, none => .ok ({ record with id := some w.claims.next }, w.insert i record)
  | some id, none => .ok (record, w.update id record)
  | some id, some row =>
    if row.id = some id then .ok (record, w.update id record) else .error uniqueViolation

def World.remove (w : World ι) (record : IdempotencyRecord) : World ι :=
  match w.rows record.slot with
  | some row =>
    if row.id = record.id then { w with rows := Function.update w.rows record.slot none } else w
  | none => w

def World.perform (i : ι) (c : Choice) :
    (op : Op) → World ι → Option (Except Failure op.Res × World ι)
  | .findOne slot, w =>
    match c with
    | .served => some (.ok (w.rows slot), w)
    | .rejected e => some (.error e, w)
    | _ => none
  | .save record, w =>
    match c with
    | .served =>
      match w.save i record with
      | .ok (stored, w') => some (.ok stored, w')
      | .error e => some (.error e, w)
    | .rejected e => some (.error e, w)
    | .lost e =>
      match w.save i record with
      | .ok (_, w') => some (.error e, w')
      | .error _ => some (.error e, w)
    | .handled _ => none
  | .remove record, w =>
    match c with
    | .served => some (.ok (), w.remove record)
    | .rejected e => some (.error e, w)
    | .lost e => some (.error e, w.remove record)
    | .handled _ => none
  | .now, w => some (.ok w.clock, w)
  | .startHandler record, w =>
    some (.ok (), { w with trace := w.trace ++ [.started i record.slot w.clock] })
  | .awaitHandler record, w =>
    match c with
    | .handled (.ok response) =>
      some (.ok response,
        { w with trace := w.trace ++ [.resolved i record.slot record.expiresAt] })
    | .handled (.error e) => some (.error e, w)
    | _ => none

def idempotencySemantics (ι : Type) : Semantics idempotencyInterface Failure ι (World ι) where
  Choice := Choice
  perform i op c w := World.perform i c op w
  Event := Nat
  happen ms w := { w with clock := w.clock + ms }

/-! ## The operations as typed programs -/

def findOne (slot : Slot) : Program (Option IdempotencyRecord) :=
  ask (.findOne slot)

/-- `repo.save`, which fills in the id of the entity. -/
def save (record : IdempotencyRecord) : Program IdempotencyRecord :=
  ask (.save record)

def remove (record : IdempotencyRecord) : Program Unit :=
  ask (.remove record)

def now : Program Nat :=
  ask .now

def startHandler (record : IdempotencyRecord) : Program Unit :=
  ask (.startHandler record)

def awaitHandler (record : IdempotencyRecord) : Program Response :=
  ask (.awaitHandler record)

/-! ## Keys and lifetimes -/

def isKeyChar (c : Char) : Bool :=
  ('A' ≤ c && c ≤ 'Z') || ('a' ≤ c && c ≤ 'z') || ('0' ≤ c && c ≤ '9') ||
    c ∈ ['.', '_', ':', '+', '-']

def assertValidKey : Except Failure String :=
  let value := trim key
  if value = "" then
    .error (.badRequest "Missing Idempotency-Key header for a mutating request")
  else if utf16Length value < 8 then
    .error (.badRequest "Idempotency-Key must be at least 8 characters")
  else if 128 < utf16Length value then
    .error (.badRequest "Idempotency-Key must be at most 128 characters")
  else if ¬value.toList.all isKeyChar then
    .error (.badRequest "Idempotency-Key may only contain letters, digits, and . _ : + -")
  else .ok value

def maxTtlSeconds : ℚ :=
  7 * 24 * 60 * 60

def defaultTtlSeconds : ℚ :=
  24 * 60 * 60

/-- `resolveTtl`; a number is `none` where it is absent or not finite. -/
def resolveTtl (fromEnv ttlSeconds : Option ℚ) : ℚ :=
  match ttlSeconds, fromEnv with
  | some ttl, _ => min (max ⌊ttl⌋ 1) maxTtlSeconds
  | none, some env => if 0 < env then min env maxTtlSeconds else defaultTtlSeconds
  | none, none => defaultTtlSeconds

def expiry (fromEnv ttlSeconds : Option ℚ) (now : Nat) : Nat :=
  ⌊now + resolveTtl fromEnv ttlSeconds * 1000⌋₊

def isUniqueViolation (e : Failure) : Bool :=
  match e.message? with
  | some message => includes message "duplicate key"
  | none => false

/-! ## The service -/

/-- `ExecuteIdempotentParams`, and the `IDEMPOTENCY_TTL_SECONDS` of the process. -/
structure ExecuteParams where
  key : String
  scope : String
  requestHash : String
  ttlSeconds : Option ℚ := none
  ttlFromEnv : Option ℚ := none

def resolveExisting (existing : IdempotencyRecord) (requestHash key : String) :
    Program (Option IdempotentOutcome) :=
  if existing.requestHash ≠ requestHash then
    .fail (.conflict "Idempotency-Key was already used for a different request payload")
  else do
    let current ← now
    if existing.expiresAt ≤ current then do
      remove existing
      .done none
    else
      match existing.status with
      | .completed => .done (some
          { replayed := true
            statusCode := existing.responseCode.getD 200
            body := existing.responseBody.getD none
            key })
      | .inProgress =>
        .fail (.conflict "A request with this Idempotency-Key is already in progress")
      | .failed => do
          remove existing
          .done none

def newClaim (params : ExecuteParams) (key : String) (now : Nat) : IdempotencyRecord where
  scope := params.scope
  idempotencyKey := key
  requestHash := params.requestHash
  status := .inProgress
  expiresAt := expiry params.ttlFromEnv params.ttlSeconds now

/-- How the claim loop ends: with an answer, with a record of its own, or with
neither. -/
inductive ClaimResult where
  | answered (outcome : IdempotentOutcome)
  | claimed (record : IdempotencyRecord)
  | lost

def lookup (params : ExecuteParams) (key : String) : Program (Option IdempotentOutcome) := do
  let existing ← findOne (params.scope, key)
  match existing with
  | some existing => resolveExisting existing params.requestHash key
  | none => .done none

def claimLoop (params : ExecuteParams) (key : String) : Nat → Program ClaimResult
  | 0 => .done .lost
  | turns + 1 => do
      let outcome ← lookup params key
      match outcome with
      | some outcome => .done (.answered outcome)
      | none => do
          let current ← now
          let saved ← (save (newClaim params key current)).attempt
          match saved with
          | .ok record => .done (.claimed record)
          | .error e => if isUniqueViolation e then claimLoop params key turns else .fail e

def recordFailure (e : Failure) : Program IdempotentOutcome := do
  let _ ← save { record with
    status := .failed, responseCode := none, failureReason := some e.text }
  .fail e

def IdempotencyRecord.complete (response : Response) : IdempotencyRecord :=
  { record with
    status := .completed, responseCode := some response.statusCode
    responseBody := some response.body }

def runHandler : Program IdempotentOutcome := do
  startHandler record
  let result ← (awaitHandler record).attempt
  match result with
  | .error e => recordFailure record e
  | .ok response => do
      let saved ← (save (record.complete response)).attempt
      match saved with
      | .error e => recordFailure (record.complete response) e
      | .ok _ =>
        .done { replayed := false, statusCode := response.statusCode, body := response.body, key }

def execute (params : ExecuteParams) : Program IdempotentOutcome := do
  let key ← Async.ofExcept (assertValidKey params.key)
  let result ← claimLoop params key 2
  match result with
  | .answered outcome => .done outcome
  | .lost => .fail (.conflict "A request with this Idempotency-Key is already in progress")
  | .claimed record => runHandler key record

abbrev IdempotencyPool (ι : Type) : Type :=
  Pool idempotencyInterface Failure ι (World ι) IdempotentOutcome

def startPool (now : Nat) (requests : ι → ExecuteParams) : IdempotencyPool ι where
  world := World.start now
  calls i := execute (requests i)

end Trellis.Idempotency
