import Trellis.Audit.SensitiveActions

/-!
# Evidence for administrative changes

`AdminConfigAuditService`: a change of the configuration is applied between two snapshots, its
evidence is written with retries, and a change without evidence is reverted. The callbacks of a
change and the injected services are programs over one interface, which a caller extends with its
own operations.
-/

namespace Trellis.Audit

open Core List

/-! ## Copies of JSON values -/

mutual

/-- `JSON.parse(JSON.stringify(value))` of a value that has a text. -/
def jsonCopy : Value → Value
  | .num (.finite d) => .num (.finite { d with negative := d.negative && d.digits ≠ 0 })
  | .num _ => .null
  | .arr items => .arr (jsonCopyItems items)
  | .obj members => .obj (jsonCopyMembers members)
  | v => v

/-- The items; `undefined` is written as `null`. -/
def jsonCopyItems : List Value → List Value
  | [] => []
  | .undefined :: vs => .null :: jsonCopyItems vs
  | v :: vs => jsonCopy v :: jsonCopyItems vs

/-- The members; `undefined` is left out. -/
def jsonCopyMembers : List (String × Value) → List (String × Value)
  | [] => []
  | (_, .undefined) :: ms => jsonCopyMembers ms
  | (key, v) :: ms => (key, jsonCopy v) :: jsonCopyMembers ms

end

theorem mem_jsonCopyItems {items : List Value} {v : Value} (h : v ∈ jsonCopyItems items) :
    v = .null ∨ ∃ v' ∈ items, v = jsonCopy v' := by
  induction items with
  | nil => cases h
  | cons first rest ih =>
    have hrest : v ∈ jsonCopyItems rest → v = .null ∨ ∃ v' ∈ first :: rest, v = jsonCopy v' := by
      intro h
      rcases ih h with hnull | ⟨v', hv', heq⟩
      · exact .inl hnull
      · exact .inr ⟨v', mem_cons_of_mem _ hv', heq⟩
    cases first with
    | undefined =>
      rcases mem_cons.mp h with rfl | h
      · exact .inl rfl
      · exact hrest h
    | _ =>
      rcases mem_cons.mp h with rfl | h
      · exact .inr ⟨_, mem_cons_self, rfl⟩
      · exact hrest h

variable {members : List (String × Value)}

theorem mem_jsonCopyMembers {m : String × Value}
    (h : m ∈ jsonCopyMembers members) : ∃ m' ∈ members, m.2 = jsonCopy m'.2 := by
  induction members with
  | nil => cases h
  | cons first rest ih =>
    obtain ⟨key, v⟩ := first
    have hrest : m ∈ jsonCopyMembers rest → ∃ m' ∈ (key, v) :: rest, m.2 = jsonCopy m'.2 := by
      intro h
      obtain ⟨m', hm', heq⟩ := ih h
      exact ⟨m', mem_cons_of_mem _ hm', heq⟩
    cases v with
    | undefined => exact hrest h
    | _ =>
      rcases mem_cons.mp h with rfl | h
      · exact ⟨_, mem_cons_self, rfl⟩
      · exact hrest h

theorem jsonCopyMembers_keys (members : List (String × Value)) :
    ((jsonCopyMembers members).map Prod.fst).Sublist (members.map Prod.fst) := by
  induction members with
  | nil => exact .slnil
  | cons first rest ih =>
    obtain ⟨key, v⟩ := first
    cases v with
    | undefined => exact ih.cons key
    | _ => exact ih.cons_cons key

theorem wellKeyed_jsonCopy (v : Value) (h : wellKeyed v = true) :
    wellKeyed (jsonCopy v) = true := by
  induction v using Value.induct with
  | hundefined => rfl
  | hnull => rfl
  | hbool b => rfl
  | hnum n => cases n <;> rfl
  | hstr s => rfl
  | harr items ih =>
    refine wellKeyedItems_iff.mpr fun v hv => ?_
    rcases mem_jsonCopyItems hv with rfl | ⟨v', hv', rfl⟩
    · rfl
    · exact ih v' hv' (wellKeyedItems_iff.mp h v' hv')
  | hobj members ih =>
    obtain ⟨hnodup, hmembers⟩ := wellKeyed_obj_iff.mp h
    refine wellKeyed_obj_iff.mpr ⟨(jsonCopyMembers_keys members).nodup hnodup, fun m hm => ?_⟩
    obtain ⟨m', hm', heq⟩ := mem_jsonCopyMembers hm
    rw [heq]
    exact ih m' hm' (hmembers m' hm')

/-! ## Records -/

structure JsonValue where
  value : Value
  wellKeyed : wellKeyed value = true

def toState : Option JsonValue → Option JsonRecord
  | none => none
  | some ⟨.undefined, _⟩ | some ⟨.null, _⟩ => none
  | some ⟨.obj members, h⟩ => some ⟨jsonCopyMembers members, wellKeyed_jsonCopy (.obj members) h⟩
  | some ⟨v, h⟩ => some ⟨[("value", jsonCopy v)], wellKeyed_obj_iff.mpr
      ⟨List.nodup_singleton _, fun _ hm => by
        rw [List.mem_singleton.mp hm]
        exact wellKeyed_jsonCopy v h⟩⟩

/-- The members of `{ ...members, [key]: v }`. -/
def assignMember (members : List (String × Value)) (key : String) (v : Value) :
    List (String × Value) :=
  if key ∈ members.map Prod.fst then members.map fun m => if m.1 = key then (key, v) else m
  else members ++ [(key, v)]

theorem wellKeyed_assignMember {key : String} {v : Value} (h : wellKeyed (.obj members) = true)
    (hv : wellKeyed v = true) : wellKeyed (.obj (assignMember members key v)) = true := by
  obtain ⟨hnodup, hmembers⟩ := wellKeyed_obj_iff.mp h
  unfold assignMember
  split
  · have hkeys : (members.map fun m => if m.1 = key then (key, v) else m).map Prod.fst =
        members.map Prod.fst := by
      rw [map_map]
      refine map_congr_left fun m _ => ?_
      by_cases hm : m.1 = key <;> simp [hm]
    refine wellKeyed_obj_iff.mpr ⟨?_, fun m hm => ?_⟩
    · rw [hkeys]
      exact hnodup
    · obtain ⟨m', hm', rfl⟩ := mem_map.mp hm
      split
      · exact hv
      · exact hmembers m' hm'
  · rename_i hfresh
    refine wellKeyed_obj_iff.mpr ⟨?_, fun m hm => ?_⟩
    · rw [map_append]
      refine nodup_append.mpr ⟨hnodup, nodup_singleton _, ?_⟩
      intro a ha b hb hab
      rw [hab, mem_singleton.mp hb] at ha
      exact hfresh ha
    · rcases mem_append.mp hm with hm | hm
      · exact hmembers m hm
      · rw [mem_singleton.mp hm]
        exact hv

def JsonRecord.assign (payload : JsonRecord) (key : String) (v : JsonValue) : JsonRecord :=
  ⟨assignMember payload.members key v.value, wellKeyed_assignMember payload.wellKeyed v.wellKeyed⟩

def JsonValue.text (s : String) : JsonValue :=
  ⟨.str s, rfl⟩

/-! ## Changes -/

structure AdminConfigActor where
  id : String
  role : Option String := none
  ipAddress : Option String := none
  userAgent : Option String := none

structure ChangeDetails where
  action : SensitiveAction
  actor : AdminConfigActor
  allowedRoles : Option (List String) := none
  resourceType : String
  resourceId : String
  reason : String
  metadata : Option JsonRecord := none

/-- `AdminConfigChange`, with what `JSON.stringify` sees of a snapshot. -/
structure AdminConfigChange (J : Interface) (σ ρ : Type) extends ChangeDetails where
  snapshot : Async J Failure σ
  apply : Async J Failure ρ
  revert : σ → Async J Failure Unit
  encode : σ → JsonValue

def adminConfigRoles : List String :=
  ["ADMIN", "MAINTAINER"]

structure AdminConfigAuditOptions where
  maxAttempts : Option Int := none
  baseDelayMs : Option Int := none

structure AdminConfigAuditService (J : Interface) where
  recordSensitiveAction : RecordSensitiveActionInput → Async J Failure EventRow
  delay : Int → Async J Failure Unit
  toUpperCase : String → String
  options : AdminConfigAuditOptions := {}

inductive EvidenceOutcome where
  | applied
  | applyFailed
  | unauthorized

def EvidenceOutcome.value : EvidenceOutcome → String
  | .applied => "applied"
  | .applyFailed => "apply_failed"
  | .unauthorized => "unauthorized"

/-- `EvidenceFields`; `none` is `null`. -/
structure EvidenceFields where
  status : SensitiveActionStatus
  before : Option JsonValue
  after : Option JsonValue
  outcome : EvidenceOutcome
  error : Option String := none

def errorName : Failure → String
  | .badRequest _ => "BadRequestException"
  | .conflict _ => "ConflictException"
  | .forbidden _ => "ForbiddenException"
  | .notFound _ => "NotFoundException"
  | .serviceUnavailable _ => "ServiceUnavailableException"
  | .error _ | .other _ => "Error"

def evidenceMetadata (details : ChangeDetails) (evidence : EvidenceFields) (attempt : Nat) :
    JsonRecord :=
  let given := details.metadata.getD ⟨[], wellKeyed_nil⟩
  let named := given.assign "outcome" (.text evidence.outcome.value)
  let failed := match evidence.error.filter (· ≠ "") with
    | some name => named.assign "error" (.text name)
    | none => named
  if 1 < attempt then failed.assign "recordAttempt" ⟨.int attempt, rfl⟩ else failed

def evidenceInput (details : ChangeDetails) (evidence : EvidenceFields) (attempt : Nat) :
    RecordSensitiveActionInput where
  action := details.action.value
  actorId := if details.actor.id = "" then "unknown" else details.actor.id
  actorType := some .maintainer
  actorRole := details.actor.role
  resourceType := some details.resourceType
  resourceId := some details.resourceId
  reason := some details.reason
  beforeState := toState evidence.before
  afterState := toState evidence.after
  metadata := some (evidenceMetadata details evidence attempt)
  status := some evidence.status
  ipAddress := details.actor.ipAddress
  userAgent := details.actor.userAgent

/-! ## The service -/

section Service

variable {J : Interface} {σ ρ : Type} (service : AdminConfigAuditService J)

def maxAttempts (options : AdminConfigAuditOptions) : Nat :=
  (max 1 (options.maxAttempts.getD 3)).toNat

def baseDelayMs (options : AdminConfigAuditOptions) : Int :=
  max 0 (options.baseDelayMs.getD 50)

variable (details : ChangeDetails)

def record (evidence : EvidenceFields) (attempt : Nat) : Async J Failure EventRow :=
  service.recordSensitiveAction (evidenceInput details evidence attempt)

def backoff (rest attempt : Nat) : Async J Failure Unit :=
  if 0 < rest ∧ 0 < baseDelayMs service.options then
    service.delay (baseDelayMs service.options * 2 ^ (attempt - 1))
  else .done ()

/-- The loop of `recordWithRetry`, with the number of attempts that are left. -/
def recordAttempts (details : ChangeDetails) (evidence : EvidenceFields) :
    (rest attempt : Nat) → (lastError : Failure) → Async J Failure Unit
  | 0, _, lastError => .fail lastError
  | rest + 1, attempt, _ => do
      match ← (record service details evidence attempt).attempt with
      | .ok _ => .done ()
      | .error error => do
          backoff service rest attempt
          recordAttempts details evidence rest (attempt + 1) error

def recordWithRetry (evidence : EvidenceFields) : Async J Failure Unit :=
  recordAttempts service details evidence (maxAttempts service.options) 1 (.other "undefined")

def recordBestEffort (evidence : EvidenceFields) : Async J Failure Unit := do
  let _ ← (record service details evidence 1).attempt
  .done ()

def isAuthorized : Bool :=
  match details.actor.role.map service.toUpperCase with
  | none => false
  | some role => details.actor.id ≠ "" && role ≠ "" &&
      (details.allowedRoles.getD adminConfigRoles).contains role

variable (change : AdminConfigChange J σ ρ)

def revertUnaudited (before : σ) : Async J Failure ρ := do
  match ← (change.revert before).attempt with
  | .error _ => .fail (.serviceUnavailable
      ("Configuration change could not be audited or rolled back; " ++
        "manual reconciliation required"))
  | .ok _ => .fail (.serviceUnavailable
      ("Configuration change was rolled back because its audit evidence could not be " ++
        "recorded"))

def evidenceOfApplied (before : σ) (result : ρ) : Async J Failure ρ := do
  let after ← change.snapshot
  match ← (recordWithRetry service change.toChangeDetails
      { status := .succeeded, before := some (change.encode before),
        after := some (change.encode after), outcome := .applied }).attempt with
  | .ok _ => .done result
  | .error _ => revertUnaudited change before

def applyAuthorized : Async J Failure ρ := do
  let before ← change.snapshot
  match ← change.apply.attempt with
  | .error error => do
      recordBestEffort service change.toChangeDetails
        { status := .failed, before := some (change.encode before), after := none,
          outcome := .applyFailed, error := some (errorName error) }
      .fail error
  | .ok result => evidenceOfApplied service change before result

def applyWithEvidence : Async J Failure ρ :=
  if isAuthorized service change.toChangeDetails then applyAuthorized service change
  else do
    recordBestEffort service change.toChangeDetails
      { status := .failed, before := none, after := none, outcome := .unauthorized }
    .fail (.forbidden "Insufficient role to change administrative configuration")

end Service

end Trellis.Audit
