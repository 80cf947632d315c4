import Trellis.Audit.AdminConfig

/-!
# Emergency pauses

`PauseControlService`: a pause of a scope is a row that an activation inserts or updates and a
resume ends. A row whose time is over is ended by the next reader, which saves the row as it has
loaded it. An activation or a resume without evidence is rolled back.
-/

namespace Trellis.PauseControl

open Core
open Trellis.Audit

/-! ## Rows -/

inductive PausableScope where
  | trading
  | payments
  | withdrawals
  | oracle
  | reconciliation
  | defi
  | all

def PausableScope.value : PausableScope → String
  | .trading => "trading"
  | .payments => "payments"
  | .withdrawals => "withdrawals"
  | .oracle => "oracle"
  | .reconciliation => "reconciliation"
  | .defi => "defi"
  | .all => "all"

structure PauseFields where
  scope : String
  active : Bool := true
  reason : String
  activatedBy : String
  activatedByRole : Option String
  resumedBy : Option String := none
  resumedByRole : Option String := none
  resumeReason : Option String := none
  environment : Option String
  expiresAt : Option Int
  resumedAt : Option Int := none
deriving DecidableEq

structure PauseScope extends PauseFields where
  id : Nat
deriving DecidableEq

structure PauseAuditEntry where
  pauseScopeId : Nat
  action : String
  actorId : String
  actorRole : String
  reason : String
  metadata : Option JsonRecord := none

structure ActivatePauseOpts where
  scope : PausableScope
  reason : String
  actorId : String
  actorRole : String
  environment : Option String := none
  expiresAt : Option Int := none
  ipAddress : Option String := none
  userAgent : Option String := none

structure ResumePauseArgs where
  scope : PausableScope
  reason : String
  actorId : String
  actorRole : String
  ipAddress : Option String := none
  userAgent : Option String := none

structure PauseSnapshot where
  pause : Option PauseScope

structure PauseStatus where
  paused : Bool
  reason : Option String := none
  expiresAt : Option Int := none
deriving DecidableEq

inductive PauseResponse where
  | activated (pause : PauseScope)
  | resumed (pause : Option PauseScope)
  | checked (status : PauseStatus)
  | listed (pauses : List PauseScope)
deriving DecidableEq

def rollbackReason : String :=
  "Rolled back: audit evidence could not be recorded"

/-! ## Awaited operations -/

/-- The repositories, the clock and the audit service.  No function of the service awaits
`started` and `settled`: they mark where a call begins and what it ends with. -/
inductive PauseOp where
  | findActive (scope : String)
  | findById (id : Nat)
  | findPaused (scope : String)
  | findAllActive
  | insert (pause : PauseFields)
  | save (pause : PauseScope)
  | createAuditEntry (entry : PauseAuditEntry)
  | now
  | recordSensitiveAction (input : RecordSensitiveActionInput)
  | delay (ms : Int)
  | started
  | settled (outcome : Except Failure PauseResponse)

def PauseOp.Res : PauseOp → Type
  | .findActive _ | .findById _ => Option PauseScope
  | .findPaused _ | .findAllActive => List PauseScope
  | .insert _ | .save _ => PauseScope
  | .createAuditEntry _ | .delay _ | .started | .settled _ => Unit
  | .now => Int
  | .recordSensitiveAction _ => EventRow

abbrev pauseInterface : Interface :=
  ⟨PauseOp, PauseOp.Res⟩

abbrev PauseProgram (α : Type) : Type :=
  Async pauseInterface Failure α

abbrev ask (op : pauseInterface.Op) : PauseProgram (pauseInterface.Res op) :=
  .call op

def findActive (scope : String) : PauseProgram (Option PauseScope) :=
  ask (.findActive scope)

def findById (id : Nat) : PauseProgram (Option PauseScope) :=
  ask (.findById id)

def findPaused (scope : String) : PauseProgram (List PauseScope) :=
  ask (.findPaused scope)

def findAllActive : PauseProgram (List PauseScope) :=
  ask .findAllActive

def insertPause (pause : PauseFields) : PauseProgram PauseScope :=
  ask (.insert pause)

def savePause (pause : PauseScope) : PauseProgram PauseScope :=
  ask (.save pause)

def createAuditEntry (entry : PauseAuditEntry) : PauseProgram Unit :=
  ask (.createAuditEntry entry)

def currentTime : PauseProgram Int :=
  ask .now

/-! ## Activation and resume -/

def applyActivatePause (opts : ActivatePauseOpts) : PauseProgram PauseScope := do
  match ← findActive opts.scope.value with
  | some existing => do
      let updated ← savePause { existing with
        reason := opts.reason, activatedBy := opts.actorId, activatedByRole := some opts.actorRole,
        expiresAt := opts.expiresAt, environment := opts.environment }
      createAuditEntry
        { pauseScopeId := updated.id, action := "activate", actorId := opts.actorId,
          actorRole := opts.actorRole, reason := opts.reason,
          metadata := some ⟨[("updated", .bool true)], rfl⟩ }
      .done updated
  | none => do
      let saved ← insertPause
        { scope := opts.scope.value, reason := opts.reason, activatedBy := opts.actorId,
          activatedByRole := some opts.actorRole, environment := opts.environment,
          expiresAt := opts.expiresAt, active := true }
      createAuditEntry
        { pauseScopeId := saved.id, action := "activate", actorId := opts.actorId,
          actorRole := opts.actorRole, reason := opts.reason }
      .done saved

def applyResumePause (args : ResumePauseArgs) : PauseProgram (Option PauseScope) := do
  match ← findActive args.scope.value with
  | none => .done none
  | some pause => do
      let resumedAt ← currentTime
      let saved ← savePause { pause with
        active := false, resumedBy := some args.actorId, resumedByRole := some args.actorRole,
        resumeReason := some args.reason, resumedAt := some resumedAt }
      createAuditEntry
        { pauseScopeId := saved.id, action := "resume", actorId := args.actorId,
          actorRole := args.actorRole, reason := args.reason }
      .done (some saved)

/-- `snapshotActive`; with an id, the row with that id whatever its state. -/
def snapshotActive (scope : String) (id : Option Nat := none) : PauseProgram PauseSnapshot := do
  let row ← match id with
    | some id => findById id
    | none => findActive scope
  .done ⟨row⟩

def rollbackEntry (id : Nat) : PauseAuditEntry where
  pauseScopeId := id
  action := "rollback"
  actorId := "system"
  actorRole := "system"
  reason := rollbackReason

def revertActivation (scope : String) (before : PauseSnapshot) : PauseProgram Unit := do
  match ← findActive scope with
  | none => .done ()
  | some current =>
    match before.pause with
    | some previous => do
        -- an existing pause was updated: put its settings back
        let _ ← savePause { current with
          reason := previous.reason, activatedBy := previous.activatedBy,
          activatedByRole := previous.activatedByRole, environment := previous.environment,
          expiresAt := previous.expiresAt }
        createAuditEntry (rollbackEntry current.id)
    | none => do
        -- a new pause: lift it again
        let resumedAt ← currentTime
        let _ ← savePause { current with
          active := false, resumedBy := some "system", resumedByRole := some "system",
          resumeReason := some rollbackReason, resumedAt := some resumedAt }
        createAuditEntry (rollbackEntry current.id)

def revertResume (before : PauseSnapshot) : PauseProgram Unit := do
  match before.pause with
  | none => .done ()
  | some previous =>
    match ← findById previous.id with
    | none => .done ()
    | some row => do
        let _ ← savePause { row with
          active := true, resumedBy := none, resumedByRole := none, resumeReason := none,
          resumedAt := none }
        createAuditEntry (rollbackEntry row.id)

/-! ## Evidence -/

structure AdminAudit where
  toUpperCase : String → String
  options : AdminConfigAuditOptions := {}

def AdminAudit.service (audit : AdminAudit) : AdminConfigAuditService pauseInterface where
  recordSensitiveAction input :=
    ask (.recordSensitiveAction input)
  delay ms := ask (.delay ms)
  toUpperCase := audit.toUpperCase
  options := audit.options

structure PauseControlService where
  adminConfigAudit : Option AdminAudit
  toIso : Int → String

def encodeSnapshot (toIso : Int → String) (snapshot : PauseSnapshot) : JsonValue :=
  match snapshot.pause with
  | none => ⟨.obj [("pause", .null)], by decide⟩
  | some row =>
    { value := .obj [("pause", .obj
        [("id", .str (digits row.id)), ("scope", .str row.scope), ("active", .bool row.active),
          ("reason", .str row.reason), ("activatedBy", .str row.activatedBy),
          ("activatedByRole", nullableText row.activatedByRole),
          ("environment", nullableText row.environment),
          ("expiresAt", nullableText (row.expiresAt.map toIso)),
          ("resumedBy", nullableText row.resumedBy),
          ("resumedByRole", nullableText row.resumedByRole),
          ("resumeReason", nullableText row.resumeReason),
          ("resumedAt", nullableText (row.resumedAt.map toIso))])]
      wellKeyed := by
        have hnullable : ∀ text, wellKeyed (nullableText text) = true := by
          intro text
          cases text <;> rfl
        simp only [wellKeyed, wellKeyedMembers, hnullable, Bool.and_true,
          List.map_cons, List.map_nil]
        decide }

def activation (toIso : Int → String) (opts : ActivatePauseOpts) :
    AdminConfigChange pauseInterface PauseSnapshot PauseScope where
  action := .emergencyPauseToggled
  actor :=
    { id := opts.actorId, role := some opts.actorRole, ipAddress := opts.ipAddress,
      userAgent := opts.userAgent }
  allowedRoles := some ["ADMIN"]
  resourceType := "pause-scope"
  resourceId := opts.scope.value
  reason := opts.reason
  metadata := some ((⟨[("operation", .str "activate")], rfl⟩ : JsonRecord).assign "environment"
    ⟨nullableText opts.environment, by cases opts.environment <;> rfl⟩)
  snapshot := snapshotActive opts.scope.value
  apply := applyActivatePause opts
  revert := revertActivation opts.scope.value
  encode := encodeSnapshot toIso

def resumption (toIso : Int → String) (args : ResumePauseArgs) (id : Nat) :
    AdminConfigChange pauseInterface PauseSnapshot (Option PauseScope) where
  action := .emergencyPauseToggled
  actor :=
    { id := args.actorId, role := some args.actorRole, ipAddress := args.ipAddress,
      userAgent := args.userAgent }
  allowedRoles := some ["ADMIN"]
  resourceType := "pause-scope"
  resourceId := args.scope.value
  reason := args.reason
  metadata := some ⟨[("operation", .str "resume")], rfl⟩
  snapshot := snapshotActive args.scope.value (some id)
  apply := applyResumePause args
  revert := revertResume
  encode := encodeSnapshot toIso

section Service

variable (service : PauseControlService)

def activatePause (opts : ActivatePauseOpts) : PauseProgram PauseScope :=
  match service.adminConfigAudit with
  | none => applyActivatePause opts
  | some audit => applyWithEvidence audit.service (activation service.toIso opts)

def resumePause (args : ResumePauseArgs) : PauseProgram (Option PauseScope) :=
  match service.adminConfigAudit with
  | none => applyResumePause args
  | some audit => do
      match ← findActive args.scope.value with
      | none => .done none
      | some active =>
        applyWithEvidence audit.service (resumption service.toIso args active.id)

end Service

/-! ## Readers -/

def isExpired (pause : PauseScope) : PauseProgram Bool :=
  match pause.expiresAt with
  | none => .done false
  | some expiresAt => do
      let now ← currentTime
      .done (decide (expiresAt ≤ now))

def expirePause (pause : PauseScope) : PauseProgram Unit := do
  let resumedAt ← currentTime
  let _ ← savePause { pause with
    active := false, resumeReason := some "Auto-expired", resumedAt := some resumedAt }
  createAuditEntry
    { pauseScopeId := pause.id, action := "expire", actorId := "system", actorRole := "system",
      reason := "Auto-expired" }

def checkPauses : List PauseScope → PauseProgram PauseStatus
  | [] => .done { paused := false }
  | pause :: rest => do
      match ← isExpired pause with
      | true => do
          expirePause pause
          checkPauses rest
      | false =>
        .done { paused := true, reason := some pause.reason, expiresAt := pause.expiresAt }

def isOperationPaused (scope : String) : PauseProgram PauseStatus := do
  let pauses ← findPaused scope
  checkPauses pauses

def collectActive : List PauseScope → List PauseScope → PauseProgram (List PauseScope)
  | [], active => .done active
  | pause :: rest, active => do
      match ← isExpired pause with
      | true => do
          expirePause pause
          collectActive rest active
      | false => collectActive rest (active ++ [pause])

def getActivePauses : PauseProgram (List PauseScope) := do
  let pauses ← findAllActive
  collectActive pauses []

end Trellis.PauseControl
