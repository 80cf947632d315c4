import Trellis.Audit.AdminConfig
import Trellis.Audit.Appendable

/-!
# Administrative changes with evidence or not at all

One call of `applyWithEvidence` against every pattern of failures of the two snapshots, the
change, its revert and every repository operation. The change is atomic and its revert restores
the snapshot.
-/

namespace Trellis.Audit

open Core Async AuditChoice Prod

/-! ## The audit tables under a script -/

/-- The answer of the tables under a choice; a lost answer is one after the effect. -/
def AuditChoice.answer : AuditChoice → (op : AuditOp) → AuditWorld →
    Except Failure op.Res × AuditWorld
  | .served, op, w => serveAudit op w
  | .rejected e, _, w => (.error e, w)
  | .lost e, op, w => (.error e, (serveAudit op w).2)

structure ScriptedLog where
  db : AuditWorld := {}
  operations : Nat := 0

def performLog (choices : Nat → AuditChoice) (op : auditInterface.Op) (w : ScriptedLog) :
    Except Failure (auditInterface.Res op) × ScriptedLog :=
  let answered := (choices w.operations).answer op w.db
  (answered.1, ⟨answered.2, w.operations + 1⟩)

def RowsGrow (w w' : ScriptedLog) : Prop :=
  w.db.events.Subperm w'.db.events

theorem insert_perm (w : AuditWorld) (event : EventFields) :
    (w.insert event).events.Perm (w.newRow event :: w.events) :=
  List.perm_orderedInsert _ _ _

theorem serveAudit_subperm (op : AuditOp) (w : AuditWorld) :
    w.events.Subperm (serveAudit op w).2.events := by
  cases op with
  | saveEvent event =>
    rcases saveEvent_cases w event with hsave | ⟨-, hsave⟩ <;> simp only [serveAudit, hsave]
    · exact .refl _
    · exact (List.sublist_cons_self _ _).subperm.trans (insert_perm w event).symm.subperm
  | _ => exact .refl _

theorem rowsGrow_performLog (choices : Nat → AuditChoice) (op : AuditOp) (w : ScriptedLog) :
    RowsGrow w (performLog choices op w).2 := by
  simp only [RowsGrow, performLog]
  cases choices w.operations with
  | rejected e => exact .refl _
  | served => exact serveAudit_subperm op w.db
  | lost e => exact serveAudit_subperm op w.db

variable {choices : Nat → AuditChoice} {w w' : ScriptedLog}

theorem rowsGrow_eval {α : Type} {p : AuditProgram α} {r : Except Failure α}
    (h : p.eval (performLog choices) w = (r, w')) : RowsGrow w w' := by
  have hgrow := eval_rel (R := RowsGrow) (fun _ => .refl _) (fun h h' => h.trans h')
    (rowsGrow_performLog choices) p w
  rw [h] at hgrow
  exact hgrow

variable {event : EventFields} {row : EventRow}

theorem saveEvent_stored (h : (saveEvent event).eval (performLog choices) w = (.ok row, w')) :
    row.toEventFields = event ∧ w'.db.events.Perm (row :: w.db.events) := by
  have hanswer : performLog choices (.saveEvent event) w = (.ok row, w') :=
    (eval_call (I := auditInterface) (.saveEvent event) w).symm.trans h
  cases hchoice : choices w.operations with
  | rejected e =>
    simp only [performLog, hchoice, answer] at hanswer
    cases hanswer
  | lost e =>
    simp only [performLog, hchoice, answer] at hanswer
    cases hanswer
  | served =>
    rcases saveEvent_cases w.db event with hsave | ⟨-, hsave⟩ <;>
      simp only [performLog, hchoice, answer, serveAudit, hsave] at hanswer <;>
      cases hanswer
    exact ⟨rfl, insert_perm w.db event⟩

variable {input : RecordSensitiveActionInput}

theorem recordSensitiveAction_stored {service : AuditService} {now : Int}
    (h : (recordSensitiveAction service now input).eval (performLog choices) w = (.ok row, w')) :
    ∃ definition latest head occurredAt, checkInput input = .ok definition ∧ row.toEventFields =
        sealEvent service (draftEvent input definition latest head occurredAt) ∧
      (row :: w.db.events).Subperm w'.db.events := by
  obtain ⟨definition, w₁, hinput, h⟩ := eval_bind_ok h
  obtain ⟨latest, w₂, hlatest, h⟩ := eval_bind_ok h
  obtain ⟨head, w₃, hhead, h⟩ := eval_bind_ok h
  obtain ⟨_, w₄, hcheck, h⟩ := eval_bind_ok h
  obtain ⟨occurredAt, w₅, htime, h⟩ := eval_bind_ok h
  obtain ⟨saved, w₆, hsave, h⟩ := eval_bind_ok h
  obtain ⟨_, w₇, hsaveHead, h⟩ := eval_bind_ok h
  cases h
  obtain ⟨hrow, hevents⟩ := saveEvent_stored hsave
  rw [eval_ofExcept] at hinput hcheck htime
  refine ⟨definition, latest, head, occurredAt, (mk.inj hinput).1, hrow, ?_⟩
  have hbefore : RowsGrow w w₅ := by
    obtain rfl := (mk.inj hinput).2
    obtain rfl := (mk.inj hcheck).2
    obtain rfl := (mk.inj htime).2
    exact (rowsGrow_eval hlatest).trans (rowsGrow_eval hhead)
  have hstored : (row :: w.db.events).Subperm w₆.db.events :=
    ((List.subperm_cons _).mpr hbefore).trans hevents.symm.subperm
  exact hstored.trans (rowsGrow_eval hsaveHead)

/-! ## Attempts without lost answers -/

section Attempts

variable {service : AuditService} {choices : Nat → AuditChoice} {w : ScriptedLog}

def ScriptedLog.tick (w : ScriptedLog) : ScriptedLog :=
  { w with operations := w.operations + 1 }

def NoLostAnswer (choices : Nat → AuditChoice) : Prop :=
  ∀ n e, choices n ≠ .lost e

def Refusing (db : AuditWorld) : Prop :=
  ∃ e, checkHead db.events.getLast? db.head = .error e

theorem eval_call_cases {α : Type} (hlost : NoLostAnswer choices) (op : AuditOp)
    (f : op.Res → AuditProgram α) (w : ScriptedLog) :
    (∃ e, (ask op >>= f).eval (performLog choices) w = (.error e, w.tick)) ∨
      ∀ a db, serveAudit op w.db = (.ok a, db) → (ask op >>= f).eval (performLog choices) w =
          (f a).eval (performLog choices) ⟨db, w.operations + 1⟩ := by
  have hcall : (ask op).eval (performLog choices) w =
      performLog choices op w := eval_call (I := auditInterface) op w
  cases hchoice : choices w.operations with
  | lost e => exact absurd hchoice (hlost _ e)
  | rejected e =>
    left
    refine ⟨e, ?_⟩
    simp only [performLog, hchoice, answer] at hcall
    exact eval_bind_of_error hcall
  | served =>
    right
    intro a db hserve
    simp only [performLog, hchoice, answer, hserve] at hcall
    exact eval_bind_of_ok hcall

inductive AttemptOutcome (w : ScriptedLog) : Except Failure EventRow × ScriptedLog → Prop
  | stored (row : EventRow) (w' : ScriptedLog)
      (hlength : w'.db.events.length = w.db.events.length + 1) : AttemptOutcome w (.ok row, w')
  | failed (e : Failure) (w' : ScriptedLog) (hsame : w'.db = w.db) : AttemptOutcome w (.error e, w')
  | stopped (e : Failure) (w' : ScriptedLog) (hrefusing : Refusing w'.db) :
      AttemptOutcome w (.error e, w')

theorem AttemptOutcome.of_db {x : Except Failure EventRow × ScriptedLog}
    (h : AttemptOutcome w' x) (hdb : w'.db = w.db) : AttemptOutcome w x := by
  cases h with
  | stored row w'' hlength => exact .stored row w'' (hdb ▸ hlength)
  | failed e w'' hsame => exact .failed e w'' (hsame.trans hdb)
  | stopped e w'' hrefusing => exact .stopped e w'' hrefusing

theorem refusing_insert {db : AuditWorld} (hintact : Intact service db.events db.head)
    (hfollows : Follows service db.events event) : Refusing (db.insert event) := by
  have hlogged : Logged service (⟨db, none⟩ : SharedLog Unit) :=
    ⟨hintact.counted, hintact.chained, fun _ => hintact.head_eq, fun hne => absurd rfl hne⟩
  have hsaved := (hlogged.saveEvent rfl hfollows ()).1
  exact checkHead_of_missing hsaved (by nofun)

variable (hlost : NoLostAnswer choices)
include hlost

theorem attempt_storeEvent (hintact : Intact service w.db.events w.db.head)
    (hfollows : Follows service w.db.events event) :
    AttemptOutcome w ((storeEvent event).eval (performLog choices) w) := by
  rcases eval_call_cases hlost (.saveEvent event) (fun saved => do
    saveHead (headOf saved)
    .done saved) w with ⟨e, heval⟩ | hserved
  · exact heval ▸ .failed e _ rfl
  · have hserve : serveAudit (.saveEvent event) w.db =
        (.ok (w.db.newRow event), w.db.insert event) := by
      simp only [serveAudit, saveEvent_of_follows hintact.counted hfollows]
      rw [insert_of_follows hintact.counted hfollows]
    have hlength : (w.db.insert event).events.length = w.db.events.length + 1 :=
      (insert_perm w.db event).length_eq
    refine (hserved _ _ hserve).symm ▸ ?_
    rcases eval_call_cases hlost (.saveHead (headOf (w.db.newRow event)))
      (fun _ => (.done (w.db.newRow event) : AuditProgram EventRow))
        ⟨w.db.insert event, w.operations + 1⟩ with ⟨e, heval⟩ | hserved'
    · exact heval ▸ .stopped e _ (refusing_insert hintact hfollows)
    · exact (hserved' () _ rfl).symm ▸ .stored _ _ hlength

/-- The checks and reads of a call end it with the tables as they were, or lead to
`appendEvent` with what the tables hold. -/
theorem record_reads (now : Int) (input : RecordSensitiveActionInput) (w : ScriptedLog) :
    (∃ e w', (recordSensitiveAction service now input).eval (performLog choices) w =
        (.error e, w') ∧ w'.db = w.db) ∨ ∃ definition w', w'.db = w.db ∧
        (recordSensitiveAction service now input).eval (performLog choices) w =
          (appendEvent service now input definition w.db.events.getLast? w.db.head).eval
            (performLog choices) w' := by
  cases hinput : checkInput input with
  | error e =>
    left
    refine ⟨e, w, ?_, rfl⟩
    rw [recordSensitiveAction, hinput]
    rfl
  | ok definition =>
    have hstart : (recordSensitiveAction service now input).eval (performLog choices) w =
        (ask .findLatest >>= fun latest => do
          let head ← findHead
          appendEvent service now input definition latest head).eval (performLog choices) w := by
      rw [recordSensitiveAction, hinput]
      rfl
    rcases eval_call_cases hlost .findLatest (fun latest => do
        let head ← findHead
        appendEvent service now input definition latest head) w with ⟨e, heval⟩ | hserved
    · exact .inl ⟨e, _, hstart.trans heval, rfl⟩
    · have hread := hstart.trans (hserved _ _ rfl)
      rcases eval_call_cases hlost .findHead (fun head =>
          appendEvent service now input definition w.db.events.getLast? head)
        ⟨w.db, w.operations + 1⟩ with ⟨e, heval⟩ | hserved'
      · exact .inl ⟨e, _, hread.trans heval, rfl⟩
      · exact .inr ⟨definition, ⟨w.db, w.operations + 2⟩, rfl,
          hread.trans (hserved' w.db.head w.db rfl)⟩

theorem attempt_record (hintact : Intact service w.db.events w.db.head) (now : Int)
    (input : RecordSensitiveActionInput) :
    AttemptOutcome w ((recordSensitiveAction service now input).eval (performLog choices) w) := by
  rcases record_reads hlost now input w with ⟨e, w', heval, hsame⟩ | ⟨definition, w', hdb, heval⟩
  · rw [heval]
    exact .failed e w' hsame
  · rw [heval, appendEvent, checkHead_of_intact hintact]
    cases htime : occurredAtOf now input.occurredAt with
    | error e => exact .failed e w' hdb
    | ok occurredAt =>
      have hfollows := follows_sealEvent hintact input definition occurredAt
      change AttemptOutcome w ((storeEvent (sealEvent service (draftEvent input definition
        w.db.events.getLast? w.db.head occurredAt))).eval (performLog choices) w')
      generalize sealEvent service (draftEvent input definition w.db.events.getLast? w.db.head
        occurredAt) = event at hfollows ⊢
      rw [← hdb] at hintact hfollows
      exact (attempt_storeEvent hlost hintact hfollows).of_db hdb

omit hlost

variable (service) in
theorem refused_record (hlost : NoLostAnswer choices) (hrefusing : Refusing w.db) (now : Int)
    (input : RecordSensitiveActionInput) :
    ∃ e w', (recordSensitiveAction service now input).eval (performLog choices) w =
      (.error e, w') ∧ w'.db = w.db := by
  obtain ⟨e, hcheck⟩ := hrefusing
  rcases record_reads hlost now input w with hread | ⟨definition, w', hdb, heval⟩
  · exact hread
  · refine ⟨e, w', ?_, hdb⟩
    rw [heval, appendEvent, hcheck]
    rfl

end Attempts

/-! ## A call under a pattern of failures -/

inductive AdminOp (σ : Type) where
  | audit (op : AuditOp)
  | clock
  | delay (ms : Int)
  | snapshot
  | apply
  | revert (before : σ)

def AdminOp.Res {σ : Type} (ρ : Type) : AdminOp σ → Type
  | .audit op => op.Res
  | .clock => Int
  | .delay _ => Unit
  | .snapshot => σ
  | .apply => ρ
  | .revert _ => Unit

def adminInterface (σ ρ : Type) : Interface where
  Op := AdminOp σ
  Res := AdminOp.Res ρ

/-- An atomic change of a configuration whose revert restores the snapshot. -/
structure ConfigAccess (K σ ρ : Type) where
  snapshot : K → σ
  apply : K → Except Failure (ρ × K)
  revert : σ → K → K
  restores : ∀ k result k', apply k = .ok (result, k') → revert (snapshot k) k' = k

structure FailurePattern where
  before : Option Failure := none
  apply : Option Failure := none
  after : Option Failure := none
  revert : Option Failure := none
  audit : Nat → AuditChoice := fun _ => .served
  clock : Nat → Int := fun _ => 0

structure AdminWorld (K : Type) where
  config : K
  log : ScriptedLog := {}
  snapshots : Nat := 0

/-- A call of `applyWithEvidence`, its services and the failures it meets. -/
structure AdminCall (K σ ρ : Type) where
  audit : AuditService
  options : AdminConfigAuditOptions := {}
  toUpperCase : String → String
  details : ChangeDetails
  encode : σ → JsonValue
  access : ConfigAccess K σ ρ
  pattern : FailurePattern := {}

namespace AdminCall

variable {K σ ρ : Type} (call : AdminCall K σ ρ)

def snapshotOutcome (failure : Option Failure) (config : K) : Except Failure σ :=
  match failure with
  | some e => .error e
  | none => .ok (call.access.snapshot config)

def applyOutcome (config : K) : Except Failure (ρ × K) :=
  match call.pattern.apply with
  | some e => .error e
  | none => call.access.apply config

def perform (op : (adminInterface σ ρ).Op) (w : AdminWorld K) :
    Except Failure ((adminInterface σ ρ).Res op) × AdminWorld K :=
  match op with
  | .audit op =>
    let answered := performLog call.pattern.audit op w.log
    (answered.1, { w with log := answered.2 })
  | .clock => (.ok (call.pattern.clock w.log.operations), w)
  | .delay _ => (.ok (), w)
  | .snapshot =>
    let failure := if w.snapshots = 0 then call.pattern.before else call.pattern.after
    (call.snapshotOutcome failure w.config, { w with snapshots := w.snapshots + 1 })
  | .apply =>
    match call.applyOutcome w.config with
    | .error e => (.error e, w)
    | .ok (result, config) => (.ok result, { w with config := config })
  | .revert before =>
    match call.pattern.revert with
    | some e => (.error e, w)
    | none => (.ok (), { w with config := call.access.revert before w.config })

def service : AdminConfigAuditService (adminInterface σ ρ) where
  recordSensitiveAction input := do
    let now ← Async.call (I := adminInterface σ ρ) .clock
    (recordSensitiveAction call.audit now input).lift AdminOp.audit (fun _ => id)
  delay ms := Async.call (I := adminInterface σ ρ) (.delay ms)
  toUpperCase := call.toUpperCase
  options := call.options

def change : AdminConfigChange (adminInterface σ ρ) σ ρ where
  toChangeDetails := call.details
  snapshot := Async.call (I := adminInterface σ ρ) .snapshot
  apply := Async.call (I := adminInterface σ ρ) .apply
  revert before := Async.call (I := adminInterface σ ρ) (.revert before)
  encode := call.encode

def run (config : K) (log : ScriptedLog) : Except Failure ρ × AdminWorld K :=
  (applyWithEvidence call.service call.change).eval call.perform ⟨config, log, 0⟩

/-! ## Evidence writes only move the log -/

def logPart : Async.Part (AdminWorld K) ScriptedLog where
  get w := w.log
  put w log := { w with log := log }
  get_put _ _ := rfl
  put_put _ _ _ := rfl
  put_get _ := rfl

theorem eval_record (evidence : EvidenceFields) (attempt : Nat) (w : AdminWorld K) :
    (record call.service call.details evidence attempt).eval call.perform w =
      let recorded := (recordSensitiveAction call.audit (call.pattern.clock w.log.operations)
        (evidenceInput call.details evidence attempt)).eval (performLog call.pattern.audit) w.log
      (recorded.1, { w with log := recorded.2 }) := by
  have hperform : ∀ (op : AuditOp) (w : AdminWorld K), (call.perform (.audit op) w).1.map id =
          (performLog call.pattern.audit op (logPart.get w)).1 ∧ (call.perform (.audit op) w).2 =
          logPart.put w (performLog call.pattern.audit op (logPart.get w)).2 := by
    intro op w
    refine ⟨?_, rfl⟩
    rw [Except.map_id]
    rfl
  exact eval_lift logPart hperform _ w

structure OnlyLog (w w' : AdminWorld K) : Prop where
  world_eq : w' = { w with log := w'.log }
  grows : RowsGrow w.log w'.log

theorem OnlyLog.refl (w : AdminWorld K) : OnlyLog w w :=
  ⟨rfl, .refl _⟩

theorem OnlyLog.trans {w₁ w₂ w₃ : AdminWorld K} (h : OnlyLog w₁ w₂) (h' : OnlyLog w₂ w₃) :
    OnlyLog w₁ w₃ := by
  refine ⟨?_, h.grows.trans h'.grows⟩
  rw [h'.world_eq, h.world_eq]

theorem OnlyLog.config_eq {w w' : AdminWorld K} (h : OnlyLog w w') : w'.config = w.config := by
  rw [h.world_eq]

theorem onlyLog_record (evidence : EvidenceFields) (attempt : Nat) (w : AdminWorld K) :
    OnlyLog w ((record call.service call.details evidence attempt).eval call.perform w).2 := by
  rw [eval_record]
  exact ⟨rfl, rowsGrow_eval rfl⟩

theorem eval_backoff (rest attempt : Nat) (w : AdminWorld K) :
    (backoff call.service rest attempt).eval call.perform w = (.ok (), w) := by
  unfold backoff
  split <;> rfl

/-- The event that shows a change between two configurations. -/
structure EvidenceFor (before after : K) (row : EventRow) : Prop where
  action_eq : row.action = call.details.action.value
  resourceType_eq : row.resourceType = clip (some call.details.resourceType) 100
  resourceId_eq : row.resourceId = clip (some call.details.resourceId) 255
  status_eq : row.status = SensitiveActionStatus.succeeded.value
  beforeState_eq : row.beforeState = (sanitizeAuditPayload {}
    (if (describeSensitiveAction call.details.action).capturesState then
      toState (some (call.encode (call.access.snapshot before))) else none)).value
  afterState_eq : row.afterState = (sanitizeAuditPayload {}
    (if (describeSensitiveAction call.details.action).capturesState then
      toState (some (call.encode (call.access.snapshot after))) else none)).value

def appliedEvidence (before after : K) : EvidenceFields where
  status := .succeeded
  before := some (call.encode (call.access.snapshot before))
  after := some (call.encode (call.access.snapshot after))
  outcome := .applied

variable {definition : SensitiveActionDefinition}

theorem definition_of_checkInput (h : checkInput input = .ok definition) {action : SensitiveAction}
    (haction : input.action = action.value) : definition = describeSensitiveAction action := by
  unfold checkInput at h
  rw [haction, ofValue_value] at h
  simp only at h
  split at h
  · cases h
  · split at h
    · cases h
    · exact (Except.ok.inj h).symm

theorem evidenceFor_recorded {before after : K} {attempt : Nat} {latest : Option EventRow}
    {head : Option ChainHead} {occurredAt : Int}
    (hinput : checkInput (evidenceInput call.details (call.appliedEvidence before after)
      attempt) = .ok definition)
    (hrow : row.toEventFields = sealEvent call.audit (draftEvent (evidenceInput call.details
      (call.appliedEvidence before after) attempt) definition latest head occurredAt)) :
    call.EvidenceFor before after row := by
  obtain rfl := definition_of_checkInput hinput rfl
  constructor <;> rw [hrow] <;> rfl

theorem eval_recordAttempts_succ (evidence : EvidenceFields) (rest attempt : Nat)
    (lastError : Failure) (w : AdminWorld K) :
    (recordAttempts call.service call.details evidence (rest + 1) attempt lastError).eval
        call.perform w =
      match (record call.service call.details evidence attempt).eval call.perform w with
      | (.ok _, w') => (.ok (), w')
      | (.error e, w') =>
        (recordAttempts call.service call.details evidence rest (attempt + 1) e).eval
          call.perform w' := by
  rw [recordAttempts, eval_bind, eval_attempt]
  rcases (record call.service call.details evidence attempt).eval call.perform w with ⟨r, w'⟩
  cases r with
  | ok row => rfl
  | error e =>
    change eval call.perform (_ >>= _) w' = _
    rw [eval_bind, eval_backoff]

/-- The retry loop only moves the log, and it resolves only with the evidence stored.  The
induction is on the attempts that are left. -/
theorem recordAttempts_spec {before after : K} {rest attempt : Nat} {lastError : Failure}
    {r : Except Failure Unit} {w w' : AdminWorld K}
    (h : (recordAttempts call.service call.details (call.appliedEvidence before after)
      rest attempt lastError).eval call.perform w = (r, w')) :
    OnlyLog w w' ∧ ∀ u, r = .ok u → ∃ row, call.EvidenceFor before after row ∧
      (row :: w.log.db.events).Subperm w'.log.db.events := by
  induction rest generalizing attempt lastError w with
  | zero =>
    cases h
    exact ⟨.refl _, nofun⟩
  | succ rest ih =>
    have hmoves := call.onlyLog_record (call.appliedEvidence before after) attempt w
    rw [eval_recordAttempts_succ] at h
    rcases hrecord : (record call.service call.details (call.appliedEvidence before after)
      attempt).eval call.perform w with ⟨outcome, w₁⟩
    rw [hrecord] at h hmoves
    cases outcome with
    | ok row =>
      cases h
      refine ⟨hmoves, fun _ _ => ?_⟩
      rw [eval_record] at hrecord
      obtain ⟨hok, hlog⟩ := Prod.mk.inj hrecord
      obtain ⟨definition, latest, head, occurredAt, hinput, hrow, hstored⟩ :=
        recordSensitiveAction_stored (Prod.ext hok rfl)
      refine ⟨row, call.evidenceFor_recorded hinput hrow, ?_⟩
      rw [← hlog]
      exact hstored
    | error e =>
      obtain ⟨hrest, hevidence⟩ := ih h
      refine ⟨hmoves.trans hrest, fun u hu => ?_⟩
      obtain ⟨row, hrow, hstored⟩ := hevidence u hu
      exact ⟨row, hrow, ((List.subperm_cons _).mpr hmoves.grows).trans hstored⟩

variable {evidence : EvidenceFields} {rest attempt : Nat} {lastError : Failure}
  {w : AdminWorld K} {u : Unit}

theorem recordAttempts_refusing (hlost : NoLostAnswer call.pattern.audit)
    (hrefusing : Refusing w.log.db) :
    ((recordAttempts call.service call.details evidence rest attempt lastError).eval
      call.perform w).1 ≠ .ok u := by
  induction rest generalizing attempt lastError w with
  | zero => exact fun h => by cases h
  | succ rest ih =>
    obtain ⟨e, log, hrecord, hsame⟩ := refused_record call.audit hlost hrefusing
      (call.pattern.clock w.log.operations) (evidenceInput call.details evidence attempt)
    rw [eval_recordAttempts_succ, eval_record, hrecord]
    refine ih ?_
    rw [hsame]
    exact hrefusing

theorem recordAttempts_single (hlost : NoLostAnswer call.pattern.audit)
    (hintact : Intact call.audit w.log.db.events w.log.db.head)
    (hok : ((recordAttempts call.service call.details evidence rest attempt lastError).eval
      call.perform w).1 = .ok u) :
    ((recordAttempts call.service call.details evidence rest attempt lastError).eval
      call.perform w).2.log.db.events.length = w.log.db.events.length + 1 := by
  induction rest generalizing attempt lastError w with
  | zero => cases hok
  | succ rest ih =>
    have houtcome := attempt_record hlost hintact (call.pattern.clock w.log.operations)
      (evidenceInput call.details evidence attempt)
    rw [eval_recordAttempts_succ, eval_record] at hok ⊢
    generalize (recordSensitiveAction call.audit (call.pattern.clock w.log.operations)
      (evidenceInput call.details evidence attempt)).eval (performLog call.pattern.audit)
        w.log = recorded at houtcome hok ⊢
    cases houtcome with
    | stored row log hlength => exact hlength
    | failed e log hsame =>
      have hrest := ih (w := { w with log := log }) (hsame ▸ hintact) hok
      rw [hsame] at hrest
      exact hrest
    | stopped e log hrefusing =>
      exact absurd hok (call.recordAttempts_refusing (w := { w with log := log }) hlost hrefusing)

/-! ## The paths of a call -/

/-- The call threw and the configuration is the given one. -/
structure Thrown (config : K) (x : Except Failure ρ × AdminWorld K) : Prop where
  error : ∃ e, x.1 = .error e
  config_eq : x.2.config = config

theorem thrown_bestEffort (evidence : EvidenceFields) (e : Failure) (w : AdminWorld K) :
    Thrown w.config ((recordBestEffort call.service call.details evidence >>= fun _ =>
      (.fail e : Async (adminInterface σ ρ) Failure ρ)).eval call.perform w) := by
  have hmoves := call.onlyLog_record evidence 1 w
  rw [eval_bind, recordBestEffort, eval_bind, eval_attempt]
  refine ⟨⟨e, rfl⟩, ?_⟩
  exact hmoves.config_eq

variable (config : K) (log : ScriptedLog)

theorem eval_snapshot (n : Nat) : call.change.snapshot.eval call.perform ⟨config, log, n⟩ =
    (call.snapshotOutcome (if n = 0 then call.pattern.before else call.pattern.after) config,
      ⟨config, log, n + 1⟩) :=
  eval_call (I := adminInterface σ ρ) .snapshot _

theorem eval_apply (w : AdminWorld K) : call.change.apply.eval call.perform w =
    match call.applyOutcome w.config with
    | .error e => (.error e, w)
    | .ok (result, config) => (.ok result, { w with config := config }) :=
  eval_call (I := adminInterface σ ρ) .apply w

theorem run_authorized (hrole : isAuthorized call.service call.details = true) :
    call.run config log =
      (applyAuthorized call.service call.change).eval call.perform ⟨config, log, 0⟩ := by
  unfold run applyWithEvidence
  rw [if_pos (by rw [change]; exact hrole)]

variable {e : Failure} {result : ρ} {config' : K}

theorem run_applied (hrole : isAuthorized call.service call.details = true)
    (hbefore : call.pattern.before = none)
    (happly : call.applyOutcome config = .ok (result, config')) :
    call.run config log = (evidenceOfApplied call.service call.change
      (call.access.snapshot config) result).eval call.perform ⟨config', log, 1⟩ := by
  rw [run_authorized call config log hrole, applyAuthorized, eval_bind, eval_snapshot, if_pos rfl,
    hbefore]
  change eval call.perform (_ >>= _) ⟨config, log, 1⟩ = _
  rw [eval_bind, eval_attempt, eval_apply, happly]

theorem eval_after_failed {before : σ} (hafter : call.pattern.after = some e) :
    (evidenceOfApplied call.service call.change before result).eval call.perform
      ⟨config, log, 1⟩ = (.error e, ⟨config, log, 2⟩) := by
  rw [evidenceOfApplied, eval_bind, eval_snapshot, if_neg Nat.one_ne_zero, hafter]
  rfl

theorem eval_revert (hrevert : call.pattern.revert = none) (before : σ) (w : AdminWorld K) :
    ∃ e, (revertUnaudited call.change before).eval call.perform w =
      (.error e, { w with config := call.access.revert before w.config }) := by
  have hcall : (call.change.revert before).eval call.perform w =
      (.ok (), { w with config := call.access.revert before w.config }) := by
    refine (eval_call (I := adminInterface σ ρ) (.revert before) w).trans ?_
    simp only [perform, hrevert]
    rfl
  rw [revertUnaudited, eval_bind, eval_attempt, hcall]
  exact ⟨_, rfl⟩

/-- The change was applied and the second snapshot taken: the call returns with what the evidence
writes have stored, or its change is reverted. -/
structure Audited (result : ρ) (config' : K) : Prop where
  applied : call.applyOutcome config = .ok (result, config')
  cases : ∃ r w, (recordWithRetry call.service call.details (call.appliedEvidence config
      config')).eval call.perform ⟨config', log, 2⟩ = (r, w) ∧
    (r = .ok () ∧ call.run config log = (.ok result, w) ∨ ∃ e, call.run config log = (.error e,
        { w with config := call.access.revert (call.access.snapshot config) w.config }))

theorem audited_of_applied (hrevert : call.pattern.revert = none)
    (hrole : isAuthorized call.service call.details = true) (hbefore : call.pattern.before = none)
    (happly : call.applyOutcome config = .ok (result, config'))
    (hafter : call.pattern.after = none) : call.Audited config log result config' := by
  refine ⟨happly, ?_⟩
  rw [call.run_applied config log hrole hbefore happly, evidenceOfApplied, eval_bind,
    eval_snapshot, if_neg Nat.one_ne_zero, hafter]
  rcases hrecord : (recordWithRetry call.service call.details
    (call.appliedEvidence config config')).eval call.perform ⟨config', log, 2⟩ with ⟨r, w⟩
  have hattempt : (recordWithRetry call.service call.details
      (call.appliedEvidence config config')).attempt.eval call.perform ⟨config', log, 2⟩ =
        (.ok r, w) := by
    rw [eval_attempt, hrecord]
  refine ⟨r, w, rfl, ?_⟩
  cases r with
  | ok _ => exact .inl ⟨rfl, eval_bind_of_ok hattempt⟩
  | error e =>
    obtain ⟨e', heval⟩ := call.eval_revert hrevert (call.access.snapshot config) w
    exact .inr ⟨e', (eval_bind_of_ok hattempt).trans heval⟩

structure SnapshotFails (config' : K) : Prop where
  authorized : isAuthorized call.service call.details = true
  before_ok : call.pattern.before = none
  applied : ∃ result, call.applyOutcome config = .ok (result, config')
  after_fails : call.pattern.after ≠ none

theorem SnapshotFails.run_eq (h : call.SnapshotFails config config') :
    ∃ e, call.run config log = (.error e, ⟨config', log, 2⟩) := by
  obtain ⟨result, happly⟩ := h.applied
  obtain ⟨e, hafter⟩ := Option.ne_none_iff_exists'.mp h.after_fails
  rw [call.run_applied config log h.authorized h.before_ok happly]
  exact ⟨e, call.eval_after_failed config' log hafter⟩

theorem run_cases (hrevert : call.pattern.revert = none) :
    Thrown config (call.run config log) ∨ (∃ config', call.SnapshotFails config config') ∨
      ∃ result config', call.Audited config log result config' := by
  cases hrole : isAuthorized call.service call.details with
  | false =>
    left
    unfold run applyWithEvidence
    rw [if_neg (by rw [change, hrole]; exact Bool.false_ne_true)]
    exact call.thrown_bestEffort _ _ ⟨config, log, 0⟩
  | true =>
    cases hbefore : call.pattern.before with
    | some e =>
      left
      rw [run_authorized call config log hrole, applyAuthorized, eval_bind, eval_snapshot,
        if_pos rfl, hbefore]
      exact ⟨⟨e, rfl⟩, rfl⟩
    | none =>
      cases happly : call.applyOutcome config with
      | error e =>
        left
        rw [run_authorized call config log hrole, applyAuthorized, eval_bind, eval_snapshot,
          if_pos rfl, hbefore]
        change Thrown config (eval call.perform (_ >>= _) ⟨config, log, 1⟩)
        rw [eval_bind, eval_attempt, eval_apply, happly]
        exact call.thrown_bestEffort _ _ ⟨config, log, 1⟩
      | ok applied =>
        obtain ⟨result, config'⟩ := applied
        by_cases hafter : call.pattern.after = none
        · exact .inr (.inr ⟨result, config',
            call.audited_of_applied config log hrevert hrole hbefore happly hafter⟩)
        · exact .inr (.inl ⟨config', hrole, hbefore, ⟨result, happly⟩, hafter⟩)

/-! ## All or nothing -/

/-- The call returned with evidence of its change, or it threw and the configuration is the one
before. -/
structure AllOrNothing : Prop where
  returned : ∀ result, (call.run config log).1 = .ok result →
    ∃ row, call.EvidenceFor config (call.run config log).2.config row ∧
      (row :: log.db.events).Subperm (call.run config log).2.log.db.events
  thrown : ∀ e, (call.run config log).1 = .error e → (call.run config log).2.config = config

variable {call config log}

theorem Thrown.allOrNothing (h : Thrown config (call.run config log)) :
    call.AllOrNothing config log := by
  refine ⟨fun result hresult => ?_, fun _ _ => h.config_eq⟩
  obtain ⟨e, he⟩ := h.error
  rw [he] at hresult
  cases hresult

theorem apply_of_applyOutcome (h : call.applyOutcome config = .ok (result, config')) :
    call.access.apply config = .ok (result, config') := by
  unfold applyOutcome at h
  split at h
  · cases h
  · exact h

theorem Audited.allOrNothing (h : call.Audited config log result config') :
    call.AllOrNothing config log := by
  obtain ⟨r, w, hrecord, hcases⟩ := h.cases
  obtain ⟨hmoves, hevidence⟩ := call.recordAttempts_spec hrecord
  have hconfig : w.config = config' := hmoves.config_eq
  rcases hcases with ⟨hok, hrun⟩ | ⟨e, hrun⟩
  · obtain ⟨row, hrow, hstored⟩ := hevidence () hok
    refine ⟨fun _ _ => ⟨row, ?_, ?_⟩, fun e he => ?_⟩
    · rw [hrun, hconfig]
      exact hrow
    · rw [hrun]
      exact hstored
    · rw [hrun] at he
      cases he
  · refine Thrown.allOrNothing ⟨⟨e, by rw [hrun]⟩, ?_⟩
    rw [hrun, hconfig]
    exact call.access.restores config result config' (apply_of_applyOutcome h.applied)

/-- If `revert` does not fail, a call returns with evidence or leaves the configuration as it
was exactly if the snapshot does not fail after a change that took effect.  Where the log was
intact and no answer of it is lost, a call that returns has added one event. -/
theorem allOrNothing_iff (hrevert : call.pattern.revert = none) : (call.AllOrNothing config log ↔
      ¬ ∃ config', call.SnapshotFails config config' ∧ config' ≠ config) ∧
    (NoLostAnswer call.pattern.audit → Intact call.audit log.db.events log.db.head →
      ∀ result, (call.run config log).1 = .ok result →
        (call.run config log).2.log.db.events.length = log.db.events.length + 1) := by
  constructor
  · constructor
    · rintro hall ⟨config', hfails, hchanged⟩
      obtain ⟨e, hrun⟩ := hfails.run_eq call config log
      have hconfig := hall.thrown e (by rw [hrun])
      rw [hrun] at hconfig
      exact hchanged hconfig
    · intro hnot
      rcases call.run_cases config log hrevert with hthrown | ⟨config', hfails⟩ |
        ⟨result, config', haudited⟩
      · exact hthrown.allOrNothing
      · have hsame : config' = config := by
          by_contra hchanged
          exact hnot ⟨config', hfails, hchanged⟩
        obtain ⟨e, hrun⟩ := hfails.run_eq call config log
        refine Thrown.allOrNothing ⟨⟨e, by rw [hrun]⟩, ?_⟩
        rw [hrun]
        exact hsame
      · exact haudited.allOrNothing
  · intro hlost hintact result hresult
    rcases call.run_cases config log hrevert with hthrown | ⟨config', hfails⟩ |
      ⟨result', config', haudited⟩
    · obtain ⟨e, he⟩ := hthrown.error
      rw [he] at hresult
      cases hresult
    · obtain ⟨e, hrun⟩ := hfails.run_eq call config log
      rw [hrun] at hresult
      cases hresult
    · obtain ⟨r, w, hrecord, ⟨hok, hrun⟩ | ⟨e, hrun⟩⟩ := haudited.cases
      · have hsingle := call.recordAttempts_single hlost (w := ⟨config', log, 2⟩) hintact
          ((congrArg fst hrecord).trans hok)
        rw [hrun]
        exact (congrArg (fun x => x.2.log.db.events.length) hrecord).symm.trans hsingle
      · rw [hrun] at hresult
        cases hresult

end AdminCall

/-! ## A pause -/

def pauseAccess : ConfigAccess Bool Bool Unit where
  snapshot paused := paused
  apply _ := .ok ((), true)
  revert before _ := before
  restores _ _ _ _ := rfl

def pauseCall (pattern : FailurePattern) : AdminCall Bool Bool Unit where
  audit := exampleService
  toUpperCase text := String.ofList (text.toList.map Char.toUpper)
  details :=
    { action := .emergencyPauseToggled, actor := { id := "admin-1", role := some "admin" },
      resourceType := "pause-scope", resourceId := "payments", reason := "incident" }
  encode paused := ⟨.bool paused, rfl⟩
  access := pauseAccess
  pattern := pattern

theorem pause_without_log_is_reverted :
    (pauseCall { audit := fun _ => .rejected (.error "connection lost") }).AllOrNothing
      false {} := by
  refine (AdminCall.allOrNothing_iff rfl).1.mpr ?_
  rintro ⟨config', hfails, -⟩
  exact hfails.after_fails rfl

def secondSnapshotFails : FailurePattern :=
  { after := some (.error "connection lost") }

/-- If the second snapshot fails, the call throws and the pause stays, without evidence. -/
theorem failed_snapshot_keeps_pause : (pauseCall secondSnapshotFails).run false {} =
      (.error (.error "connection lost"), ⟨true, {}, 2⟩) ∧
    ¬ (pauseCall secondSnapshotFails).AllOrNothing false {} := by
  have hrun : (pauseCall secondSnapshotFails).run false {} =
      (.error (.error "connection lost"), ⟨true, {}, 2⟩) := by
    exact AdminCall.eval_after_failed _ true {} rfl
  refine ⟨hrun, fun hall => ?_⟩
  have hconfig := hall.thrown _ (congrArg fst hrun)
  cases hconfig

end Trellis.Audit
