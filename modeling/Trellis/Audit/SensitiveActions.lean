import Trellis.Audit.Catalogue
import Trellis.Audit.Sanitizer
import Trellis.Core.Failure
import Trellis.Core.HashChain
import Trellis.Core.Pool

/-!
# The audit trail of sensitive actions

`recordSensitiveAction` and `verifyChain` of `SensitiveActionAuditService` over the table of
events and the row of the chain head. A time is its milliseconds, and its ISO text is a parameter.
-/

namespace Trellis.Audit

open Core

/-! ## Events -/

inductive AuditActorType where
  | user
  | maintainer
  | service
  | system

def AuditActorType.value : AuditActorType → String
  | .user => "user"
  | .maintainer => "maintainer"
  | .service => "service"
  | .system => "system"

inductive SensitiveActionStatus where
  | succeeded
  | failed

def SensitiveActionStatus.value : SensitiveActionStatus → String
  | .succeeded => "succeeded"
  | .failed => "failed"

/-- `new Date(value)`: milliseconds, or an invalid date. -/
inductive DateValue where
  | valid (ms : Int)
  | invalid

/-- `RecordSensitiveActionInput`; an action that is no member of the enumeration is possible at
run time. -/
structure RecordSensitiveActionInput where
  action : String
  actorId : String
  actorType : Option AuditActorType := none
  actorRole : Option String := none
  resourceType : Option String := none
  resourceId : Option String := none
  reason : Option String := none
  beforeState : Option JsonRecord := none
  afterState : Option JsonRecord := none
  metadata : Option JsonRecord := none
  status : Option SensitiveActionStatus := none
  ipAddress : Option String := none
  userAgent : Option String := none
  occurredAt : Option DateValue := none

structure EventFields where
  sequence : Int
  action : String
  scope : String
  actorId : String
  actorType : String
  actorRole : Option String
  resourceType : Option String
  resourceId : Option String
  reason : Option String
  beforeState : Option JsonRecord
  afterState : Option JsonRecord
  metadata : Option JsonRecord
  status : String
  ipAddress : Option String
  userAgent : Option String
  redactedPaths : Option (List String)
  occurredAt : Int
  previousHash : Option String
  eventHash : String

structure EventRow extends EventFields where
  id : String

structure ChainHead where
  sequence : Int
  eventHash : String
  lastEventId : String

structure AuditService where
  sha256 : HexDigest
  toIso : Int → String

variable (service : AuditService)

/-! ## Hashes -/

def nullableText : Option String → Value
  | some s => .str s
  | none => .null

def digits (n : Int) : String :=
  String.ofList (intText n)

variable (input : RecordSensitiveActionInput) (event : EventFields)

def buildHashInput : List (String × Value) :=
  [("sequence", .str (digits event.sequence)), ("action", .str event.action),
    ("scope", .str event.scope), ("actorId", .str event.actorId),
    ("actorType", .str event.actorType), ("actorRole", nullableText event.actorRole),
    ("resourceType", nullableText event.resourceType),
    ("resourceId", nullableText event.resourceId), ("reason", nullableText event.reason),
    ("status", .str event.status), ("beforeState", nullableRecord event.beforeState),
    ("afterState", nullableRecord event.afterState), ("metadata", nullableRecord event.metadata),
    ("ipAddress", nullableText event.ipAddress), ("userAgent", nullableText event.userAgent),
    ("occurredAt", .str (service.toIso event.occurredAt)),
    ("previousHash", nullableText event.previousHash)]

def hashText : String :=
  (stringify (.obj (buildHashInput service event))).getD ""

def computeHash : String :=
  service.sha256.digest (hashText service event)

/-! ## The tables -/

inductive AuditOp where
  | findLatest
  | findHead
  | findAll
  | saveEvent (event : EventFields)
  | saveHead (head : ChainHead)

def AuditOp.Res : AuditOp → Type
  | .findLatest => Option EventRow
  | .findHead => Option ChainHead
  | .findAll => List EventRow
  | .saveEvent _ => EventRow
  | .saveHead _ => Unit

def auditInterface : Interface where
  Op := AuditOp
  Res := AuditOp.Res

abbrev AuditProgram (α : Type) : Type :=
  Async auditInterface Failure α

abbrev ask (op : auditInterface.Op) : AuditProgram (auditInterface.Res op) :=
  .call op

/-- The events by ascending sequence, the head, and the next generated id. -/
structure AuditWorld where
  events : List EventRow := []
  head : Option ChainHead := none
  nextId : Nat := 0

def duplicateSequence : Failure :=
  .error "duplicate key value violates unique constraint"

namespace AuditWorld

def newRow (w : AuditWorld) (event : EventFields) : EventRow :=
  { event with id := digits w.nextId }

def insert (w : AuditWorld) (event : EventFields) : AuditWorld :=
  { w with
    events := w.events.orderedInsert (·.sequence ≤ ·.sequence) (w.newRow event)
    nextId := w.nextId + 1 }

def saveEvent (w : AuditWorld) (event : EventFields) : Except Failure (EventRow × AuditWorld) :=
  if w.events.any (·.sequence = event.sequence) then .error duplicateSequence
  else .ok (w.newRow event, w.insert event)

def saveHead (w : AuditWorld) (head : ChainHead) : AuditWorld :=
  { w with head := some head }

end AuditWorld

/-- How a repository answers: it serves the operation, rejects it without effect, or performs
it and rejects it. -/
inductive AuditChoice where
  | served
  | rejected (e : Failure)
  | lost (e : Failure)

def performAudit : (op : AuditOp) → AuditChoice → AuditWorld →
    Option (Except Failure op.Res × AuditWorld)
  | .findLatest, .served, w => some (.ok w.events.getLast?, w)
  | .findHead, .served, w => some (.ok w.head, w)
  | .findAll, .served, w => some (.ok w.events, w)
  | .saveEvent event, .served, w =>
    match w.saveEvent event with
    | .ok (row, w') => some (.ok row, w')
    | .error e => some (.error e, w)
  | .saveEvent event, .lost e, w =>
    match w.saveEvent event with
    | .ok (_, w') => some (.error e, w')
    | .error _ => some (.error e, w)
  | .saveHead head, .served, w => some (.ok (), w.saveHead head)
  | .saveHead head, .lost e, w => some (.error e, w.saveHead head)
  | _, .rejected e, w => some (.error e, w)
  | _, _, _ => none

def serveAudit : (op : AuditOp) → AuditWorld → Except Failure op.Res × AuditWorld
  | .findLatest, w => (.ok w.events.getLast?, w)
  | .findHead, w => (.ok w.head, w)
  | .findAll, w => (.ok w.events, w)
  | .saveEvent event, w =>
    match w.saveEvent event with
    | .ok (row, w') => (.ok row, w')
    | .error e => (.error e, w)
  | .saveHead head, w => (.ok (), w.saveHead head)

def findLatest : AuditProgram (Option EventRow) :=
  ask .findLatest

def findHead : AuditProgram (Option ChainHead) :=
  ask .findHead

def findAll : AuditProgram (List EventRow) :=
  ask .findAll

def saveEvent (event : EventFields) : AuditProgram EventRow :=
  ask (.saveEvent event)

def saveHead (head : ChainHead) : AuditProgram Unit :=
  ask (.saveHead head)

/-! ## Recording -/

def clip (value : Option String) (max : Nat) : Option String :=
  value.map fun text => if max < utf16Length text then sliceUnits max text else text

def mergeRedactedPaths (groups : List (List String)) : Option (List String) :=
  let merged := groups.flatten.reverse.dedup.reverse
  if merged = [] then none else some merged

def reasonOf : Option String :=
  (input.reason.map trim).filter (· ≠ "")

def checkInput : Except Failure SensitiveActionDefinition :=
  match SensitiveAction.ofValue input.action with
  | none => .error (.badRequest ("Unknown sensitive action: " ++ input.action))
  | some action =>
    if input.actorId = "" then
      .error (.badRequest ("A sensitive action requires an actorId (" ++ input.action ++ ")"))
    else if (describeSensitiveAction action).reasonRequired ∧ reasonOf input = none then
      .error (.badRequest ("A reason is required to record " ++ input.action))
    else .ok (describeSensitiveAction action)

def checkHead (latest : Option EventRow) (head : Option ChainHead) : Except Failure Unit :=
  match latest, head with
  | some _, none => .error (.badRequest
      "Sensitive action history is missing its recorded chain head; refusing to append.")
  | none, none => .ok ()
  | latest, some head =>
    if latest.map (·.sequence) ≠ some head.sequence ∨
        latest.map (·.eventHash) ≠ some head.eventHash then
      .error (.badRequest
        "Sensitive action history does not match its recorded chain head; refusing to append.")
    else .ok ()

def occurredAtOf (now : Int) : Option DateValue → Except Failure Int
  | none => .ok now
  | some (.valid ms) => .ok ms
  | some .invalid => .error (.error "Invalid time value")

def draftEvent (definition : SensitiveActionDefinition)
    (latest : Option EventRow) (head : Option ChainHead) (occurredAt : Int) : EventFields :=
  let before := sanitizeAuditPayload {} (if definition.capturesState then input.beforeState
    else none)
  let after := sanitizeAuditPayload {} (if definition.capturesState then input.afterState
    else none)
  let metadata := sanitizeAuditPayload {} input.metadata
  { sequence := ((head.map (·.sequence)).or (latest.map (·.sequence))).getD 0 + 1
    action := input.action
    scope := definition.scope.value
    actorId := (clip (some input.actorId) 64).getD ""
    actorType := (input.actorType.getD .user).value
    actorRole := clip input.actorRole 64
    resourceType := clip input.resourceType 100
    resourceId := clip input.resourceId 255
    reason := clip (reasonOf input) 2000
    beforeState := before.value
    afterState := after.value
    metadata := metadata.value
    status := (input.status.getD .succeeded).value
    ipAddress := clip input.ipAddress 45
    userAgent := clip input.userAgent 512
    redactedPaths := mergeRedactedPaths
      [before.redactedPaths, after.redactedPaths, metadata.redactedPaths]
    occurredAt := occurredAt
    previousHash := (head.map (·.eventHash)).or (latest.map (·.eventHash))
    eventHash := "" }

def sealEvent : EventFields :=
  { event with eventHash := computeHash service event }

def headOf (row : EventRow) : ChainHead where
  sequence := row.sequence
  eventHash := row.eventHash
  lastEventId := row.id

def storeEvent : AuditProgram EventRow := do
  let saved ← saveEvent event
  saveHead (headOf saved)
  .done saved

def appendEvent (now : Int) (input : RecordSensitiveActionInput)
    (definition : SensitiveActionDefinition) (latest : Option EventRow)
    (head : Option ChainHead) : AuditProgram EventRow := do
  let () ← Async.ofExcept (checkHead latest head)
  let occurredAt ← Async.ofExcept (occurredAtOf now input.occurredAt)
  storeEvent (sealEvent service (draftEvent input definition latest head occurredAt))

def recordSensitiveAction (now : Int) (input : RecordSensitiveActionInput) :
    AuditProgram EventRow := do
  let definition ← Async.ofExcept (checkInput input)
  let latest ← findLatest
  let head ← findHead
  appendEvent service now input definition latest head

/-! ## Verification -/

/-- `ChainVerificationResult` without its time. -/
structure ChainVerificationResult where
  valid : Bool
  verified : Nat
  brokenAt : Option String
  reason : Option String

/-- The end of `verifyChain`: the head against the last event. -/
def verifyHead (events : List EventRow) (head : Option ChainHead) (previousHash : Option String)
    (previousSequence : Int) : ChainVerificationResult :=
  let last := events.getLast?
  match head with
  | some head =>
    if head.sequence ≠ previousSequence ∨ some head.eventHash ≠ previousHash ∨
        some head.lastEventId ≠ last.map (·.id) then
      { valid := false, verified := events.length, brokenAt := some head.lastEventId
        reason := some ("Recorded chain head at sequence " ++ digits head.sequence ++
          " does not match the event history") }
    else verified previousSequence
  | none =>
    match last with
    | some last =>
      { valid := false, verified := events.length, brokenAt := some last.id
        reason := some "Sensitive action chain head is missing" }
    | none => verified previousSequence
where
  /-- The result when nothing is broken. -/
  verified (previousSequence : Int) : ChainVerificationResult :=
    { valid := true, verified := events.length, brokenAt := none
      reason := some (if events.length = 0 then "No sensitive action events recorded yet"
        else "Verified " ++ digits events.length ++ " events ending at sequence " ++
          digits previousSequence) }

/-- The loop of `verifyChain` over the events from an index on. -/
def verifyLoop (events : List EventRow) (head : Option ChainHead) :
    Nat → Option String → Int → List EventRow → ChainVerificationResult
  | _, previousHash, previousSequence, [] => verifyHead events head previousHash previousSequence
  | index, previousHash, previousSequence, event :: rest =>
    if event.sequence ≠ previousSequence + 1 then
      { valid := false, verified := index, brokenAt := some event.id
        reason := some ("Sequence gap or ordering error at sequence " ++
          digits event.sequence ++ "; expected " ++ digits (previousSequence + 1)) }
    else if event.previousHash ≠ previousHash then
      { valid := false, verified := index, brokenAt := some event.id
        reason := some ("Chain link mismatch at sequence " ++ digits event.sequence) }
    else if computeHash service event.toEventFields ≠ event.eventHash then
      { valid := false, verified := index, brokenAt := some event.id
        reason := some ("Event hash mismatch at sequence " ++ digits event.sequence) }
    else verifyLoop events head (index + 1) (some event.eventHash) event.sequence rest

def verifyRows (events : List EventRow) (head : Option ChainHead) : ChainVerificationResult :=
  verifyLoop service events head 0 none 0 events

def verifyChain : AuditProgram ChainVerificationResult := do
  let events ← findAll
  let head ← findHead
  .done (verifyRows service events head)

end Trellis.Audit
