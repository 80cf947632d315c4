import Trellis.Audit.AdminConfig
import Trellis.Common.CanonicalJson

/-!
# Approval intents

`ApprovalIntentService`: a maintainer action is proposed as an intent, claimed once by a
conditional update, executed, and finished with a signed receipt. Ids are numbers, times are
milliseconds, and their ISO texts are a parameter.
-/

namespace Trellis.Approvals

open Core Async
open Trellis.Common
open Trellis.Audit (JsonRecord JsonValue SensitiveAction RecordSensitiveActionInput
  SensitiveActionStatus digits)

/-! ## Status -/

inductive ApprovalIntentStatus where
  | proposed
  | executing
  | completed
  | failed
  | expired
  | cancelled
deriving DecidableEq

namespace ApprovalIntentStatus

def value : ApprovalIntentStatus → String
  | .proposed => "proposed"
  | .executing => "executing"
  | .completed => "completed"
  | .failed => "failed"
  | .expired => "expired"
  | .cancelled => "cancelled"

end ApprovalIntentStatus

def allowedTransitions : ApprovalIntentStatus → List ApprovalIntentStatus
  | .proposed => [.executing, .expired, .cancelled]
  | .executing => [.completed, .failed]
  | .completed | .failed | .expired | .cancelled => []

def isTerminal (status : ApprovalIntentStatus) : Bool :=
  [.completed, .failed, .expired, .cancelled].contains status

def transitionIntentStatus (current next : ApprovalIntentStatus) :
    Except Failure ApprovalIntentStatus :=
  if current = next then .ok next
  else if (allowedTransitions current).contains next then .ok next
  else .error (.error ("Invalid approval intent transition: " ++ current.value ++ " -> " ++
    next.value))

/-! ## Intents -/

structure IntentFields where
  action : String
  actorId : String
  actorRole : Option String
  actorType : String
  approverId : Option String
  resourceType : String
  resourceId : String
  reason : String
  payload : JsonRecord
  payloadHash : String
  fingerprint : String
  status : ApprovalIntentStatus
  expiresAt : Int
  requestedAt : Int
  startedAt : Option Int := none
  completedAt : Option Int := none
  intentSignature : String
  receiptHash : Option String := none
  receiptSignature : Option String := none
  receipt : Option JsonRecord := none
  signedAt : Option Int := none
  signatureAlgorithm : String := "HMAC-SHA256"
  failureReason : Option String := none
  metadata : Option JsonRecord
  ipAddress : Option String
  userAgent : Option String

structure ApprovalIntent extends IntentFields where
  id : Nat

structure ApprovalIntentActor where
  id : String
  role : Option String := none
  type : Option String := none
  ipAddress : Option String := none
  userAgent : Option String := none

structure IntentExecutor where
  id : String
  role : Option String := none
  ipAddress : Option String := none
  userAgent : Option String := none

/-- A `number` as far as a lifetime is concerned. -/
inductive Seconds where
  | finite (seconds : Rat)
  | notFinite

structure ProposeIntentInput where
  action : String
  actor : Option ApprovalIntentActor
  resourceType : String
  resourceId : String
  reason : Option String
  payload : Option JsonRecord := none
  approverId : Option String := none
  metadata : Option JsonRecord := none
  ttlSeconds : Option Seconds := none

structure IntentCommitment where
  action : String
  actorId : String
  resourceType : String
  resourceId : String
  reason : String
  payload : JsonRecord

structure ApprovalIntentOptions where
  defaultTtlSeconds : Option Int := none
  maxTtlSeconds : Option Int := none

structure ExportSigningService where
  systemKey : String
  hmac : String → String → String

def ExportSigningService.sign (signing : ExportSigningService) (payload : String) :
    Except Failure String :=
  if signing.systemKey = "" then .error (.error "AUDIT_EXPORT_SIGNING_KEY is not configured")
  else .ok (signing.hmac signing.systemKey payload)

/-- `ApprovalIntentService` with what it uses. -/
structure ApprovalIntentService where
  sha256 : HexDigest
  signing : ExportSigningService
  toIso : Int → String
  toUpperCase : String → String
  options : ApprovalIntentOptions := {}

/-! ## Fingerprints and receipts -/

def approvalIntentSchema : String :=
  "trellis.audit.approval-intent.v1"

def nullable : Option String → Value
  | some text => .str text
  | none => .null

variable (service : ApprovalIntentService)

def hashOf (v : Value) : Except Failure String :=
  (canonicalJson v).map service.sha256.digest

def approvalIntentFingerprint (commitment : IntentCommitment) : Except Failure String :=
  hashOf service (.obj [("schema", .str approvalIntentSchema), ("action", .str commitment.action),
      ("actorId", .str commitment.actorId), ("resourceType", .str commitment.resourceType),
      ("resourceId", .str commitment.resourceId), ("reason", .str commitment.reason),
      ("payload", .obj commitment.payload.members)])

def intentPayloadHash (payload : JsonRecord) : Except Failure String :=
  hashOf service (.obj payload.members)

inductive ExecutionOutcome where
  | completed
  | failed (reason : String)

def ExecutionOutcome.status : ExecutionOutcome → ApprovalIntentStatus
  | .completed => .completed
  | .failed _ => .failed

def ExecutionOutcome.failureReason : ExecutionOutcome → Option String
  | .completed => none
  | .failed reason => some reason

variable (intent : ApprovalIntent)

def receiptDocument (outcome : ExecutionOutcome) (completedAt : Int) : JsonRecord where
  members :=
    [("schema", .str approvalIntentSchema), ("intentId", .str (digits intent.id)),
      ("fingerprint", .str intent.fingerprint), ("action", .str intent.action),
      ("actorId", .str intent.actorId), ("actorRole", nullable intent.actorRole),
      ("approverId", nullable intent.approverId), ("resourceType", .str intent.resourceType),
      ("resourceId", .str intent.resourceId), ("reason", .str intent.reason),
      ("payloadHash", .str intent.payloadHash), ("status", .str outcome.status.value),
      ("failureReason", nullable outcome.failureReason),
      ("requestedAt", .str (service.toIso intent.requestedAt)),
      ("completedAt", .str (service.toIso completedAt)),
      ("signedAt", .str (service.toIso completedAt))]
  wellKeyed := by
    have hnullable : ∀ text, wellKeyed (nullable text) = true := by
      intro text
      cases text <;> rfl
    simp only [wellKeyed, wellKeyedMembers, hnullable, Bool.and_true, List.map_cons, List.map_nil]
    decide

structure ReceiptIntegrity where
  receiptHash : String
  signature : String
  signingAlgorithm : String

def receiptStatus (receipt : JsonRecord) : String :=
  match (Value.obj receipt.members).get "status" with
  | .str text => text
  | _ => "undefined"

def signReceipt (receipt : JsonRecord) : Except Failure ReceiptIntegrity := do
  if receiptStatus receipt ≠ "completed" ∧ receiptStatus receipt ≠ "failed" then
    .error (.error ("Receipts are only issued for executed intents, not " ++ receiptStatus receipt))
  let receiptHash ← hashOf service (.obj receipt.members)
  let signature ← service.signing.sign receiptHash
  .ok ⟨receiptHash, signature, "HMAC-SHA256"⟩

/-! ## Awaited operations -/

/-- The columns that a conditional update sets; `none` leaves a column as it is. -/
structure IntentPatch where
  status : ApprovalIntentStatus
  startedAt : Option Int := none
  completedAt : Option Int := none

/-- The repository, the clock, the audit service and the operation of an execution.  `claim` is
the update of a row that is still proposed. -/
inductive IntentOp where
  | findById (id : Nat)
  | findProposed (fingerprint : String)
  | insert (intent : IntentFields)
  | save (intent : ApprovalIntent)
  | claim (id : Nat) (patch : IntentPatch)
  | expireDue (now : Int)
  | now
  | recordEvidence (input : RecordSensitiveActionInput)
  | operation (id : Nat)

/-- The type an operation resolves to; `ρ` is the result of the operations of executions. -/
def IntentOp.Res (ρ : Type) : IntentOp → Type
  | .findById _ | .findProposed _ => Option ApprovalIntent
  | .insert _ | .save _ => ApprovalIntent
  | .claim _ _ | .expireDue _ => Nat
  | .now => Int
  | .recordEvidence _ => Unit
  | .operation _ => ρ

abbrev intentInterface (ρ : Type) : Interface :=
  ⟨IntentOp, IntentOp.Res ρ⟩

abbrev IntentProgram (ρ α : Type) : Type :=
  Async (intentInterface ρ) Failure α

section Operations

variable {ρ : Type}

def findById (id : Nat) : IntentProgram ρ (Option ApprovalIntent) :=
  call (I := intentInterface ρ) (.findById id)

def findProposed (fingerprint : String) : IntentProgram ρ (Option ApprovalIntent) :=
  call (I := intentInterface ρ) (.findProposed fingerprint)

def insertIntent (intent : IntentFields) : IntentProgram ρ ApprovalIntent :=
  call (I := intentInterface ρ) (.insert intent)

def saveIntent (intent : ApprovalIntent) : IntentProgram ρ ApprovalIntent :=
  call (I := intentInterface ρ) (.save intent)

def claimIntent (id : Nat) (patch : IntentPatch) : IntentProgram ρ Nat :=
  call (I := intentInterface ρ) (.claim id patch)

def currentTime : IntentProgram ρ Int :=
  call (I := intentInterface ρ) .now

def recordSensitiveAction (input : RecordSensitiveActionInput) : IntentProgram ρ Unit :=
  call (I := intentInterface ρ) (.recordEvidence input)

def runOperation (id : Nat) : IntentProgram ρ ρ :=
  call (I := intentInterface ρ) (.operation id)

end Operations

/-! ## Evidence -/

def evidenceState : JsonRecord :=
  let state : JsonRecord :=
    { members :=
        [("intentId", .str (digits intent.id)), ("status", .str intent.status.value),
          ("action", .str intent.action), ("fingerprint", .str intent.fingerprint),
          ("resourceId", .str intent.resourceId),
          ("expiresAt", .str (service.toIso intent.expiresAt))]
      wellKeyed := by
        simp only [wellKeyed, wellKeyedMembers, Bool.and_true, List.map_cons, List.map_nil]
        decide }
  let hashed := match intent.receiptHash.filter (· ≠ "") with
    | some hash => state.assign "receiptHash" (.text hash)
    | none => state
  match intent.failureReason.filter (· ≠ "") with
  | some reason => hashed.assign "failureReason" (.text reason)
  | none => hashed

structure IntentEvidence where
  actorId : String
  actorRole : Option String
  status : SensitiveActionStatus
  reason : String
  after : JsonRecord
  metadata : List (String × JsonValue) := []
  ipAddress : Option String
  userAgent : Option String

def evidenceInput (action : SensitiveAction)
    (fields : IntentEvidence) : RecordSensitiveActionInput where
  action := action.value
  actorId := fields.actorId
  actorType := some .maintainer
  actorRole := fields.actorRole.or intent.actorRole
  resourceType := some intent.resourceType
  resourceId := some intent.resourceId
  reason := some fields.reason
  afterState := some fields.after
  metadata := some (fields.metadata.foldl (fun payload m => payload.assign m.1 m.2)
    { members := [("intentId", .str (digits intent.id)), ("fingerprint", .str intent.fingerprint)]
      wellKeyed := by
        simp only [wellKeyed, wellKeyedMembers, Bool.and_true, List.map_cons, List.map_nil]
        decide })
  status := some fields.status
  ipAddress := fields.ipAddress.or intent.ipAddress
  userAgent := fields.userAgent.or intent.userAgent

def recordEvidence {ρ : Type} (action : SensitiveAction)
    (fields : IntentEvidence) : IntentProgram ρ Unit :=
  recordSensitiveAction (evidenceInput intent action fields)

def recordBestEffort {ρ : Type} (action : SensitiveAction)
    (fields : IntentEvidence) : IntentProgram ρ Unit := do
  let _ ← (recordEvidence (ρ := ρ) intent action fields).attempt
  .done ()

/-! ## Proposals -/

def checkProposal (request : ProposeIntentInput) :
    Except Failure (ApprovalIntentActor × IntentCommitment) :=
  match request.actor.filter (·.id ≠ "") with
  | none => .error (.badRequest "An intent requires an actor id")
  | some actor =>
    if SensitiveAction.ofValue request.action = none then
      .error (.badRequest ("Unknown sensitive action: " ++ request.action))
    else
      match (request.reason.map trim).filter (· ≠ "") with
      | none => .error (.badRequest ("A reason is required to propose " ++ request.action))
      | some reason =>
        if truthy request.approverId ∧ request.approverId = some actor.id then
          .error (.badRequest "An approver must differ from the actor proposing the intent")
        else .ok (actor,
          { action := request.action, actorId := actor.id, resourceType := request.resourceType,
            resourceId := request.resourceId, reason,
            payload := request.payload.getD ⟨[], Audit.wellKeyed_nil⟩ })

section Service

variable {ρ : Type} (service : ApprovalIntentService)

def defaultTtlSeconds : Int :=
  max 60 (service.options.defaultTtlSeconds.getD 900)

def maxTtlSeconds : Int :=
  max (defaultTtlSeconds service) (service.options.maxTtlSeconds.getD 604800)

def resolveTtl : Option Seconds → Except Failure Int
  | none => .ok (defaultTtlSeconds service)
  | some .notFinite => .error (.badRequest "ttlSeconds must be at least 60")
  | some (.finite seconds) =>
    if seconds < 60 then .error (.badRequest "ttlSeconds must be at least 60")
    else .ok (min seconds.floor (maxTtlSeconds service))

def draftIntent (request : ProposeIntentInput) (actor : ApprovalIntentActor)
    (commitment : IntentCommitment) (fingerprint : String) (now : Int) :
    Except Failure IntentFields := do
  let ttlSeconds ← resolveTtl service request.ttlSeconds
  let payloadHash ← intentPayloadHash service commitment.payload
  let intentSignature ← service.signing.sign fingerprint
  .ok
    { action := commitment.action, actorId := commitment.actorId, actorRole := actor.role,
      actorType := actor.type.getD "maintainer", approverId := request.approverId,
      resourceType := commitment.resourceType, resourceId := commitment.resourceId,
      reason := commitment.reason, payload := commitment.payload, payloadHash, fingerprint,
      status := .proposed, expiresAt := now + ttlSeconds * 1000, requestedAt := now,
      intentSignature, metadata := request.metadata, ipAddress := actor.ipAddress,
      userAgent := actor.userAgent }

/-- The proposal has no evidence: the intent that was saved is cancelled. -/
def cancelUnevidenced (saved : ApprovalIntent) : IntentProgram ρ ApprovalIntent := do
  let _ ← (do
    let status ← ofExcept (transitionIntentStatus saved.status .cancelled)
    saveIntent { saved with status := status } : IntentProgram ρ ApprovalIntent).attempt
  .fail (.serviceUnavailable ("The approval intent was not proposed because its evidence record " ++
      "could not be written"))

def storeProposal (actor : ApprovalIntentActor) (intent : IntentFields) :
    IntentProgram ρ ApprovalIntent := do
  let saved ← insertIntent intent
  match ← (recordEvidence (ρ := ρ) saved .maintainerActionProposed
      { actorId := saved.actorId, actorRole := saved.actorRole, status := .succeeded,
        reason := saved.reason, after := evidenceState service saved, ipAddress := actor.ipAddress,
        userAgent := actor.userAgent }).attempt with
  | .ok _ => .done saved
  | .error _ => cancelUnevidenced saved

def propose (request : ProposeIntentInput) : IntentProgram ρ ApprovalIntent := do
  let (actor, commitment) ← ofExcept (checkProposal request)
  let fingerprint ← ofExcept (approvalIntentFingerprint service commitment)
  match ← findProposed fingerprint with
  | some existing => .fail (.conflict
      ("An identical intent is already proposed as " ++ digits existing.id ++
        "; execute or cancel it before proposing another"))
  | none => do
      let now ← currentTime
      let intent ← ofExcept (draftIntent service request actor commitment fingerprint now)
      storeProposal service actor intent

/-! ## Cancellation and expiry -/

variable (id : Nat)

def getIntent : IntentProgram ρ ApprovalIntent := do
  match ← findById id with
  | some intent => .done intent
  | none => .fail (.notFound ("Approval intent " ++ digits id ++ " was not found"))

def onlyProposed (verb : String) (status : ApprovalIntentStatus) : Failure :=
  .conflict ("Only proposed intents can be " ++ verb ++ "; " ++ digits id ++ " is " ++ status.value)

variable (intent : ApprovalIntent)

/-- A proposed intent that was read is moved to a terminal status by the conditional update. -/
def withdraw (next : ApprovalIntentStatus) (verb : String) : IntentProgram ρ ApprovalIntent := do
  if intent.status ≠ .proposed then .fail (onlyProposed intent.id verb intent.status)
  else do
    let status ← ofExcept (transitionIntentStatus intent.status next)
    let completedAt ← currentTime
    let affected ← claimIntent intent.id { status := status, completedAt := some completedAt }
    if affected = 0 then do
      let current ← getIntent intent.id
      .fail (onlyProposed intent.id verb current.status)
    else .done { intent with status := status, completedAt := some completedAt }

def cancel (actor : Option IntentExecutor) (reason : Option String) :
    IntentProgram ρ ApprovalIntent := do
  let intent ← getIntent id
  match (reason.map trim).filter (· ≠ "") with
  | none => .fail (.badRequest "A cancellation reason is required")
  | some trimmed => do
      let saved ← withdraw intent .cancelled "cancelled"
      recordBestEffort saved .maintainerActionCancelled
        { actorId := (actor.map (·.id)).getD saved.actorId, actorRole := actor.bind (·.role),
          status := .succeeded, reason := trimmed, after := evidenceState service saved,
          ipAddress := actor.bind (·.ipAddress), userAgent := actor.bind (·.userAgent) }
      .done saved

def expireDueIntents (now : Option Int) : IntentProgram ρ Nat := do
  let time ← match now with
    | some time => .done time
    | none => currentTime
  call (I := intentInterface ρ) (.expireDue time)

def expireIntent : IntentProgram ρ ApprovalIntent := do
  let intent ← getIntent id
  withdraw intent .expired "expired"

/-! ## Execution -/

variable (executor : Option IntentExecutor)

def assertExecutorAllowed : Except Failure Unit :=
  match executor.filter (·.id ≠ "") with
  | none => .error (.forbidden "An executor id is required")
  | some executor =>
    match intent.approverId.filter (· ≠ "") with
    | some approverId =>
      if executor.id ≠ approverId then
        .error (.forbidden ("Intent " ++ digits intent.id ++ " designates " ++ approverId ++
          " as its only executor"))
      else .ok ()
    | none =>
      match (executor.role.map service.toUpperCase).filter (· ≠ "") with
      | none => .error (.forbidden "Insufficient role to execute a maintainer approval intent")
      | some role =>
        if ["ADMIN", "MAINTAINER"].contains role then .ok ()
        else .error (.forbidden "Insufficient role to execute a maintainer approval intent")

/-- `markExpired`, whose change of the intent in memory nobody reads. -/
def markExpired : IntentProgram ρ Unit := do
  let _ ← claimIntent intent.id { status := .expired }
  .done ()

def receipted (outcome : ExecutionOutcome) (completedAt : Int)
    (receipt : JsonRecord) (integrity : ReceiptIntegrity) : ApprovalIntent :=
  { intent with
    status := outcome.status, completedAt := some completedAt, signedAt := some completedAt,
    receiptHash := some integrity.receiptHash, receiptSignature := some integrity.signature,
    signatureAlgorithm := integrity.signingAlgorithm, receipt := some receipt,
    failureReason := outcome.failureReason }

def executionEvidence (saved : ApprovalIntent) (executor : Option IntentExecutor)
    (outcome : ExecutionOutcome) (integrity : ReceiptIntegrity) : IntentEvidence where
  actorId := (executor.map (·.id)).getD saved.actorId
  actorRole := executor.bind (·.role)
  status := match outcome with
    | .completed => .succeeded
    | .failed _ => .failed
  reason := saved.reason
  after := evidenceState service saved
  metadata := ("receiptHash", .text integrity.receiptHash) ::
    match outcome.failureReason.filter (· ≠ "") with
    | some reason => [("failureReason", .text reason)]
    | none => []
  ipAddress := executor.bind (·.ipAddress)
  userAgent := executor.bind (·.userAgent)

def finish (outcome : ExecutionOutcome) : IntentProgram ρ ApprovalIntent := do
  let completedAt ← currentTime
  let receipt := receiptDocument service intent outcome completedAt
  let integrity ← ofExcept (signReceipt service receipt)
  let saved ← saveIntent (receipted intent outcome completedAt receipt integrity)
  recordBestEffort saved .maintainerActionExecuted
    (executionEvidence service saved executor outcome integrity)
  .done saved

def runClaimed : IntentProgram ρ (ApprovalIntent × ρ) := do
  match ← (runOperation (ρ := ρ) intent.id).attempt with
  | .error error => do
      let _ ← finish service intent executor (.failed error.text)
      .fail error
  | .ok result => do
      let finished ← finish service intent executor .completed
      .done (finished, result)

def claimLost (current : ApprovalIntent) : Failure :=
  if isTerminal current.status then
    .conflict ("Intent " ++ digits id ++ " is " ++ current.status.value ++
      " and can no longer execute")
  else .conflict ("Intent " ++ digits id ++ " was claimed by another execution")

def claimAndRun : IntentProgram ρ (ApprovalIntent × ρ) := do
  let startedAt ← currentTime
  let affected ← claimIntent intent.id { status := .executing, startedAt := some startedAt }
  if affected = 0 then do
    let current ← getIntent intent.id
    .fail (claimLost intent.id current)
  else
    runClaimed service { intent with status := .executing, startedAt := some startedAt } executor

def execute (id : Nat) (executor : Option IntentExecutor) :
    IntentProgram ρ (ApprovalIntent × ρ) := do
  let intent ← getIntent id
  if intent.status ≠ .proposed then
    .fail (.conflict ("Intent " ++ digits id ++ " is " ++ intent.status.value ++
      " and can no longer execute"))
  else do
    let time ← currentTime
    if intent.expiresAt ≤ time then do
      markExpired intent
      .fail (.conflict ("Intent " ++ digits id ++ " expired at " ++ service.toIso intent.expiresAt))
    else do
      let () ← ofExcept (assertExecutorAllowed service intent executor)
      claimAndRun service intent executor

end Service

end Trellis.Approvals
