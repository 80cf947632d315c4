import Trellis.Audit.ChainIntegrity

/-!
# Interleaved appends to the audit log

Any number of `recordSensitiveAction` calls, interleaved at every await, where any operation may
fail with or without its effect and calls stop anywhere. The event row and the head row are
written by two saves; the world remembers the call whose event is stored while its head is not.
-/

namespace Trellis.Audit

open Core List

variable {ι : Type} {service : AuditService}

/-! ## The shared tables -/

/-- The tables, and the call whose event is stored while its head is not. -/
structure SharedLog (ι : Type) where
  db : AuditWorld := {}
  missing : Option ι := none

/-- The call whose head is missing after an operation of call `i`. -/
def missingAfter (i : ι) (w : SharedLog ι) (db : AuditWorld) : AuditOp → AuditChoice → Option ι
  | .saveEvent _, _ => if db.nextId = w.db.nextId then w.missing else some i
  | .saveHead _, .rejected _ => w.missing
  | .saveHead _, _ => none
  | _, _ => w.missing

def performShared (i : ι) (op : AuditOp) (c : AuditChoice) (w : SharedLog ι) :
    Option (Except Failure op.Res × SharedLog ι) :=
  (performAudit op c w.db).map fun x => (x.1, ⟨x.2, missingAfter i w x.2 op c⟩)

def sharedSemantics (ι : Type) : Semantics auditInterface Failure ι (SharedLog ι) where
  Choice := AuditChoice
  perform := performShared
  Event := Empty
  happen e := e.elim

structure RecordCall where
  now : Int
  input : RecordSensitiveActionInput

def auditPool (service : AuditService) (calls : ι → RecordCall) :
    Pool auditInterface Failure ι (SharedLog ι) EventRow where
  world := {}
  calls i := recordSensitiveAction service (calls i).now (calls i).input

/-! ## The contract of a call -/

variable (service) in
/-- The events form one chain.  The head is at the last event or, if it is missing, at the one
before. -/
structure Logged (w : SharedLog ι) : Prop where
  counted : Counted 1 w.db.events
  chained : Chained service none w.db.events
  settled : w.missing = none → w.db.head = w.db.events.getLast?.map headOf
  behind : w.missing ≠ none → ∃ events row, w.db.events = events ++ [row] ∧
    w.db.head = events.getLast?.map headOf

def headSequence (w : SharedLog ι) : Int :=
  (w.db.head.map (·.sequence)).getD 0

/-- Events are only appended, and the head does not go back. -/
structure LogGrows (w w' : SharedLog ι) : Prop where
  events : w.db.events <+: w'.db.events
  head : headSequence w ≤ headSequence w'

theorem LogGrows.refl (w : SharedLog ι) : LogGrows w w :=
  ⟨prefix_refl _, le_refl _⟩

variable (service) in
/-- While the head of a call is missing, nobody else changes the tables. -/
def logContract (i : ι) : Contract (SharedLog ι) where
  inv := Logged service
  rely w w' := LogGrows w w' ∧ (w.missing = some i → w' = w)
  guar w w' := LogGrows w w' ∧ ∀ j, j ≠ i → w.missing = some j → w' = w

theorem logContract_compatible :
    Pool.Compatible (sharedSemantics ι) (logContract service) (Logged service) where
  inv_eq _ := rfl
  guar_rely i _ _ _ hij h := ⟨h.1, h.2 i hij⟩
  happen_inv e := e.elim
  happen_rely _ e := e.elim

def latestKnown (i : ι) (latest : Option EventRow) : Assertion (logContract service i) where
  holds w := ∀ row, latest = some row → row ∈ w.db.events
  stable _ _ hmove h row hrow := hmove.2.2.1.events.subset (h row hrow)

def headKnown (i : ι) (head : Option ChainHead) : Assertion (logContract service i) where
  holds w := (head.map (·.sequence)).getD 0 ≤ headSequence w
  stable _ _ hmove h := h.trans hmove.2.2.1.head

/-- The event of the call is the last one, and its head is missing. -/
def headMissing (i : ι) (row : EventRow) : Assertion (logContract service i) where
  holds w := w.missing = some i ∧ w.db.events.getLast? = some row
  stable _ _ hmove h := by
    rw [hmove.2.2.2 h.1]
    exact h

/-! ## The two saves -/

variable {latest : Option EventRow} {head : Option ChainHead}

theorem sequence_of_checkHead (hcheck : checkHead latest head = .ok ()) :
    latest.map (·.sequence) = head.map (·.sequence) ∧
      latest.map (·.eventHash) = head.map (·.eventHash) := by
  cases head with
  | none =>
    cases latest with
    | none => exact ⟨rfl, rfl⟩
    | some row => cases hcheck
  | some head =>
    simp only [checkHead] at hcheck
    split at hcheck
    · cases hcheck
    · rename_i hsame
      push Not at hsame
      exact hsame

theorem length_le_of_fresh {events : List EventRow} (hcounted : Counted 1 events) {n : Int}
    (hn : 0 ≤ n) (hfresh : events.any (·.sequence = n + 1) = false) : events.length ≤ n := by
  by_contra hlt
  obtain ⟨row, hrow, hsequence⟩ := hcounted.exists_mem (k := n + 1) (by omega) (by omega)
  simp only [any_eq_false, decide_eq_true_eq] at hfresh
  exact hfresh row hrow hsequence

variable {w : SharedLog ι}

theorem headSequence_of_missing (h : Logged service w)
    (hmissing : w.missing ≠ none) : headSequence w < w.db.events.length := by
  obtain ⟨events, row, hevents, hhead⟩ := h.behind hmissing
  have hcounted := h.counted
  rw [hevents] at hcounted
  have hcounted' := (consecutive_concat.mp hcounted).1
  simp only [headSequence, hhead, hevents, length_append, length_singleton, Option.map_map]
  cases hlast : events.getLast? with
  | none =>
    simp only [Option.map_none, Option.getD_none]
    omega
  | some last =>
    have hposition := hcounted'.getLast hlast
    simp only [Option.map_some, Option.getD_some, Function.comp_apply, headOf]
    omega

theorem follows_of_fresh (h : Logged service w) (hcheck : checkHead latest head = .ok ())
    (hlatest : ∀ row, latest = some row → row ∈ w.db.events)
    (hhead : (head.map (·.sequence)).getD 0 ≤ headSequence w)
    (input : RecordSensitiveActionInput) (definition : SensitiveActionDefinition) (occurredAt : Int)
    (hfresh : w.db.events.any (·.sequence = (draftEvent input definition latest head
      occurredAt).sequence) = false) : w.missing = none ∧ Follows service w.db.events
      (sealEvent service (draftEvent input definition latest head occurredAt)) := by
  obtain ⟨hsequence, hhash⟩ := sequence_of_checkHead hcheck
  have hevent : (draftEvent input definition latest head occurredAt).sequence =
      (latest.map (·.sequence)).getD 0 + 1 := by
    simp only [draftEvent, ← hsequence, Option.or_self]
  have hprevious : (draftEvent input definition latest head occurredAt).previousHash =
      latest.map (·.eventHash) := by
    simp only [draftEvent, ← hhash, Option.or_self]
  rw [hevent] at hfresh
  rw [← hsequence] at hhead
  -- the row that was read is the last one of the table
  have hrow : latest = w.db.events.getLast? ∧ (latest.map (·.sequence)).getD 0 =
      w.db.events.length := by
    cases latest with
    | none =>
      have hlength := length_le_of_fresh h.counted (le_refl 0) hfresh
      have hnil : w.db.events = [] := length_eq_zero_iff.mp (by omega)
      rw [hnil]
      exact ⟨rfl, rfl⟩
    | some row =>
      have hmem := hlatest row rfl
      have hbounds := h.counted.mem_bounds row hmem
      simp only [Option.map_some, Option.getD_some] at hfresh ⊢
      have hlength := length_le_of_fresh h.counted (by omega) hfresh
      exact ⟨(h.counted.getLast?_of_mem hmem (by omega)).symm, by omega⟩
  constructor
  · by_contra hmissing
    have hlt := headSequence_of_missing h hmissing
    omega
  · refine ⟨?_, ?_, rfl⟩
    · exact hevent.trans (by rw [hrow.2])
    · exact hprevious.trans (by rw [hrow.1])

/-! ## What each operation keeps -/

variable {w w' : SharedLog ι} {i : ι}

theorem guar_of_eq (h : w' = w) : (logContract service i).guar w w' := by
  subst h
  exact ⟨.refl w', fun _ _ _ => rfl⟩

theorem saveEvent_cases (w : AuditWorld) (event : EventFields) :
    (w.saveEvent event = .error duplicateSequence) ∨
      (w.events.any (·.sequence = event.sequence) = false ∧
        w.saveEvent event = .ok (w.newRow event, w.insert event)) := by
  by_cases hany : w.events.any (·.sequence = event.sequence) = true
  · left
    simp only [AuditWorld.saveEvent, hany, if_true]
  · right
    rw [Bool.not_eq_true] at hany
    refine ⟨hany, ?_⟩
    simp only [AuditWorld.saveEvent, hany, Bool.false_eq_true, if_false]

variable {c : AuditChoice}

theorem perform_saveEvent {event : EventFields}
    {r : Except Failure EventRow} (hperf : performShared i (.saveEvent event) c w = some (r, w')) :
    (w' = w ∧ ∃ e, r = .error e) ∨ (w.db.events.any (·.sequence = event.sequence) = false ∧
        w' = ⟨w.db.insert event, some i⟩ ∧ ∀ row, r = .ok row → row = w.db.newRow event) := by
  have hsame : missingAfter i w w.db (.saveEvent event) c = w.missing := if_pos rfl
  have hnext : missingAfter i w (w.db.insert event) (.saveEvent event) c = some i :=
    if_neg (Nat.succ_ne_self _)
  rcases saveEvent_cases w.db event with hsave | ⟨hfresh, hsave⟩
  · cases c with
    | rejected e =>
      simp only [performShared, performAudit, Option.map_some, hsame] at hperf
      cases hperf
      exact .inl ⟨rfl, e, rfl⟩
    | served =>
      simp only [performShared, performAudit, hsave, Option.map_some, hsame] at hperf
      cases hperf
      exact .inl ⟨rfl, _, rfl⟩
    | lost e =>
      simp only [performShared, performAudit, hsave, Option.map_some, hsame] at hperf
      cases hperf
      exact .inl ⟨rfl, e, rfl⟩
  · cases c with
    | rejected e =>
      simp only [performShared, performAudit, Option.map_some, hsame] at hperf
      cases hperf
      exact .inl ⟨rfl, e, rfl⟩
    | served =>
      simp only [performShared, performAudit, hsave, Option.map_some, hnext] at hperf
      cases hperf
      exact .inr ⟨hfresh, rfl, fun row hrow => (Except.ok.inj hrow).symm⟩
    | lost e =>
      simp only [performShared, performAudit, hsave, Option.map_some, hnext] at hperf
      cases hperf
      exact .inr ⟨hfresh, rfl, fun row hrow => by cases hrow⟩

theorem perform_saveHead {head : ChainHead}
    {r : Except Failure Unit} (hperf : performShared i (.saveHead head) c w = some (r, w')) :
    w' = w ∨ w' = ⟨w.db.saveHead head, none⟩ := by
  cases c with
  | served => cases hperf; exact .inr rfl
  | rejected e => cases hperf; exact .inl rfl
  | lost e => cases hperf; exact .inr rfl

theorem perform_findLatest {r : Except Failure (Option EventRow)}
    (hperf : performShared i .findLatest c w = some (r, w')) :
    w' = w ∧ ∀ latest, r = .ok latest → latest = w.db.events.getLast? := by
  cases c with
  | served => cases hperf; exact ⟨rfl, fun latest h => (Except.ok.inj h).symm⟩
  | rejected e => cases hperf; exact ⟨rfl, fun latest h => by cases h⟩
  | lost e => cases hperf

theorem perform_findHead {r : Except Failure (Option ChainHead)}
    (hperf : performShared i .findHead c w = some (r, w')) :
    w' = w ∧ ∀ head, r = .ok head → head = w.db.head := by
  cases c with
  | served => cases hperf; exact ⟨rfl, fun head h => (Except.ok.inj h).symm⟩
  | rejected e => cases hperf; exact ⟨rfl, fun head h => by cases h⟩
  | lost e => cases hperf

theorem Logged.saveEvent (h : Logged service w) (hnone : w.missing = none)
    {event : EventFields} (hfollows : Follows service w.db.events event) (i : ι) :
    Logged service ⟨w.db.insert event, some i⟩ ∧
      (logContract service i).guar w ⟨w.db.insert event, some i⟩ := by
  have hintact : Intact service (w.db.events ++ [w.db.newRow event]) _ :=
    intact_concat h.counted h.chained hfollows rfl
  rw [insert_of_follows h.counted hfollows]
  constructor
  · exact ⟨hintact.counted, hintact.chained, nofun, fun _ => ⟨_, _, rfl, h.settled hnone⟩⟩
  · refine ⟨⟨prefix_append _ _, le_refl _⟩, ?_⟩
    intro j _ hmissing
    rw [hnone] at hmissing
    cases hmissing

theorem Logged.saveHead (h : Logged service w) {row : EventRow}
    (hmissing : w.missing = some i) (hlast : w.db.events.getLast? = some row) :
    Logged service (⟨w.db.saveHead (headOf row), none⟩ : SharedLog ι) ∧
      (logContract service i).guar w ⟨w.db.saveHead (headOf row), none⟩ := by
  have hbehind : headSequence w < w.db.events.length :=
    headSequence_of_missing h (by rw [hmissing]; nofun)
  have hposition := h.counted.getLast hlast
  have hhead : headSequence w ≤ row.sequence := by omega
  refine ⟨⟨h.counted, h.chained, fun _ => ?_, fun hne => absurd rfl hne⟩, ?_⟩
  · change some (headOf row) = w.db.events.getLast?.map headOf
    rw [hlast]
    rfl
  · refine ⟨⟨prefix_refl _, hhead⟩, fun j hj hmissing' => ?_⟩
    rw [hmissing] at hmissing'
    exact absurd (Option.some.inj hmissing').symm hj

/-! ## The contract is kept -/

section Triples

variable {g : Guard (sharedSemantics ι)} {i : ι}

theorem triple_findLatest :
    Triple (C := logContract service i) (sharedSemantics ι) g i .top findLatest
      (fun latest => latestKnown i latest) .top := by
  refine triple_call fun w c r w' hinv _ _ hperf => ?_
  obtain ⟨rfl, hr⟩ := perform_findLatest hperf
  refine ⟨hinv, guar_of_eq rfl, ?_⟩
  cases r with
  | error e => trivial
  | ok latest =>
    intro row hrow
    rw [hr latest rfl] at hrow
    exact mem_of_getLast? hrow

theorem triple_findHead {P : Assertion (logContract service i)} :
    Triple (sharedSemantics ι) g i P findHead (fun head => P.and (headKnown i head)) .top := by
  refine triple_call fun w c r w' hinv hP _ hperf => ?_
  obtain ⟨rfl, hr⟩ := perform_findHead hperf
  refine ⟨hinv, guar_of_eq rfl, ?_⟩
  cases r with
  | error e => trivial
  | ok head =>
    refine ⟨hP, ?_⟩
    obtain rfl := hr head rfl
    exact le_refl _

theorem triple_saveEvent
    (hcheck : checkHead latest head = .ok ()) (input : RecordSensitiveActionInput)
    (definition : SensitiveActionDefinition) (occurredAt : Int) :
    Triple (C := logContract service i) (sharedSemantics ι) g i
      ((latestKnown i latest).and (headKnown i head))
      (saveEvent (sealEvent service (draftEvent input definition latest head occurredAt)))
      (fun row => headMissing i row) .top := by
  refine triple_call fun w c r w' hinv hP _ hperf => ?_
  rcases perform_saveEvent hperf with ⟨rfl, e, rfl⟩ | ⟨hfresh, rfl, hr⟩
  · exact ⟨hinv, guar_of_eq rfl, trivial⟩
  · obtain ⟨hnone, hfollows⟩ := follows_of_fresh hinv hcheck hP.1 hP.2 input definition
      occurredAt hfresh
    obtain ⟨hinv', hguar⟩ := Logged.saveEvent hinv hnone hfollows i
    refine ⟨hinv', hguar, ?_⟩
    cases r with
    | error e => trivial
    | ok row =>
      obtain rfl := hr row rfl
      refine ⟨rfl, ?_⟩
      rw [insert_of_follows hinv.counted hfollows]
      exact getLast?_concat

theorem triple_saveHead {row : EventRow} :
    Triple (C := logContract service i) (sharedSemantics ι) g i (headMissing i row)
      (saveHead (headOf row)) (fun _ => .top) .top := by
  refine triple_call fun w c r w' hinv hP _ hperf => ?_
  have houtcome : outcome (C := logContract service i) (fun _ : Unit => .top) .top r w' := by
    cases r <;> trivial
  rcases perform_saveHead hperf with rfl | rfl
  · exact ⟨hinv, guar_of_eq rfl, houtcome⟩
  · obtain ⟨hinv', hguar⟩ := Logged.saveHead hinv hP.1 hP.2
    exact ⟨hinv', hguar, houtcome⟩

theorem triple_record (now : Int) (input : RecordSensitiveActionInput) :
    Triple (C := logContract service i) (sharedSemantics ι) g i .top
      (recordSensitiveAction service now input) (fun _ => .top) .top := by
  refine triple_ofExcept_bind fun definition _ => ?_
  refine triple_bind triple_findLatest fun latest => ?_
  refine triple_bind triple_findHead fun head => ?_
  refine triple_ofExcept_bind fun _ hcheck => ?_
  refine triple_ofExcept_bind fun occurredAt _ => ?_
  refine triple_bind (triple_saveEvent hcheck input definition occurredAt) fun row => ?_
  exact triple_bind triple_saveHead fun _ => triple_return

end Triples

theorem reach_logged [DecidableEq ι] {calls : ι → RecordCall}
    {c : Pool auditInterface Failure ι (SharedLog ι) EventRow}
    (hreach : Pool.Reach (sharedSemantics ι) (anyStep _) (auditPool service calls) c) :
    Logged service c.world := by
  have hempty : Logged service ({} : SharedLog ι) :=
    ⟨trivial, trivial, fun _ => rfl, fun hne => absurd rfl hne⟩
  have hkept := hreach.keeps logContract_compatible hempty (fun i => triple_record _ _)
    fun _ => trivial
  exact hkept.world_inv

/-! ## A further call -/

variable (service) in
/-- A call that is served succeeds, and the chain is valid after it. -/
def Appends (now : Int) (input : RecordSensitiveActionInput) (w : AuditWorld) : Prop :=
  ∃ row w' result, (recordSensitiveAction service now input).eval serveAudit w = (.ok row, w') ∧
    (verifyChain service).eval serveAudit w' = (.ok result, w') ∧ result.valid = true

theorem eval_verifyChain (w : AuditWorld) :
    (verifyChain service).eval serveAudit w = (.ok (verifyRows service w.events w.head), w) :=
  rfl

theorem record_eval_refused {w : AuditWorld} {now : Int} {input : RecordSensitiveActionInput}
    {definition : SensitiveActionDefinition} {e : Failure}
    (hinput : checkInput input = .ok definition)
    (hcheck : checkHead w.events.getLast? w.head = .error e) :
    (recordSensitiveAction service now input).eval serveAudit w = (.error e, w) := by
  unfold recordSensitiveAction
  rw [hinput]
  change Async.eval serveAudit
    (appendEvent service now input definition w.events.getLast? w.head) w = _
  unfold appendEvent
  rw [hcheck]
  rfl

theorem Logged.intact (h : Logged service w) (hnone : w.missing = none) :
    Intact service w.db.events w.db.head :=
  ⟨h.counted, h.chained, h.settled hnone⟩

theorem checkHead_of_missing (h : Logged service w) (hmissing : w.missing ≠ none) :
    ∃ e, checkHead w.db.events.getLast? w.db.head = .error e := by
  cases hcheck : checkHead w.db.events.getLast? w.db.head with
  | error e => exact ⟨e, rfl⟩
  | ok _ =>
    exfalso
    have hlt := headSequence_of_missing h hmissing
    rw [headSequence, ← (sequence_of_checkHead hcheck).1] at hlt
    cases hlast : w.db.events.getLast? with
    | none =>
      rw [getLast?_eq_none_iff.mp hlast, length_nil] at hlt
      exact absurd hlt (lt_irrefl _)
    | some last =>
      have hposition := h.counted.getLast hlast
      rw [hlast, Option.map_some, Option.getD_some] at hlt
      omega

/-- After any history of calls, a further valid call succeeds and leaves a valid chain exactly
if no event is stored whose head is not. -/
theorem appendable_iff_no_missing_head [DecidableEq ι] {calls : ι → RecordCall}
    {c : Pool auditInterface Failure ι (SharedLog ι) EventRow}
    (hreach : Pool.Reach (sharedSemantics ι) (anyStep _) (auditPool service calls) c)
    {now occurredAt : Int} {input : RecordSensitiveActionInput}
    {definition : SensitiveActionDefinition} (hinput : checkInput input = .ok definition)
    (htime : occurredAtOf now input.occurredAt = .ok occurredAt) :
    Appends service now input c.world.db ↔ c.world.missing = none := by
  have hlogged := reach_logged hreach
  constructor
  · rintro ⟨row, w', result, hrecord, -, -⟩
    by_contra hmissing
    obtain ⟨e, hcheck⟩ := checkHead_of_missing hlogged hmissing
    rw [record_eval_refused hinput hcheck] at hrecord
    cases hrecord
  · intro hnone
    have hintact := hlogged.intact hnone
    have happended := intact_appended hintact input definition occurredAt
    exact ⟨_, _, _, record_eval hintact hinput htime, eval_verifyChain _,
      verifyRows_valid_iff.mpr happended⟩

/-! ## Two histories of one call -/

def oneRecord : Unit → RecordCall :=
  fun _ => ⟨0, roleAssigned⟩

def allServed : List (Pool.Pick (sharedSemantics Unit)) :=
  [.call () .served, .call () .served, .call () .served, .call () .served]

def headRejected : List (Pool.Pick (sharedSemantics Unit)) :=
  [.call () .served, .call () .served, .call () .served,
    .call () (.rejected (.error "connection lost"))]

theorem served_record_is_appendable :
    ∃ c, Pool.Reach (sharedSemantics Unit) (anyStep _) (auditPool exampleService oneRecord) c ∧
      c.world.db.events.length = 1 ∧ Appends exampleService 1 roleAssigned c.world.db := by
  refine Pool.exists_run allServed (fun c => (c.world.missing, c.world.db.events.length)) (none, 1)
    (by decide +kernel) fun c hreach hc => ?_
  obtain ⟨hmissing, hlength⟩ := Prod.mk.inj hc
  have hinput : checkInput roleAssigned = .ok ⟨.accessControl, true, true⟩ := by rfl
  exact ⟨hlength, (appendable_iff_no_missing_head hreach hinput rfl).mpr hmissing⟩

/-- After a call whose save of the head was rejected, every further call is refused and the
chain is not valid. -/
theorem rejected_head_blocks_log :
    ∃ c, Pool.Reach (sharedSemantics Unit) (anyStep _) (auditPool exampleService oneRecord) c ∧
      (recordSensitiveAction exampleService 1 roleAssigned).eval serveAudit c.world.db =
        (.error (.badRequest
          "Sensitive action history is missing its recorded chain head; refusing to append."),
          c.world.db) ∧
      (verifyRows exampleService c.world.db.events c.world.db.head).valid = false ∧
      ¬ Appends exampleService 1 roleAssigned c.world.db := by
  refine Pool.exists_run headRejected (fun c => (c.world.db.head.isNone, c.world.db.events.length))
    (true, 1) (by decide +kernel) fun c hreach hc => ?_
  obtain ⟨hhead, hlength⟩ := Prod.mk.inj hc
  have hhead := Option.isNone_iff_eq_none.mp hhead
  obtain ⟨row, hrow⟩ := length_eq_one_iff.mp hlength
  have hcheck : checkHead c.world.db.events.getLast? c.world.db.head = .error (.badRequest
      "Sensitive action history is missing its recorded chain head; refusing to append.") := by
    rw [hhead, hrow]
    rfl
  have hinput : checkInput roleAssigned = .ok ⟨.accessControl, true, true⟩ := by rfl
  have hrefused : (recordSensitiveAction exampleService 1 roleAssigned).eval serveAudit
      c.world.db = _ := record_eval_refused hinput hcheck
  refine ⟨hrefused, ?_, ?_⟩
  · rw [← Bool.not_eq_true, verifyRows_valid_iff]
    intro hintact
    have hheads := hintact.head_eq
    rw [hhead, hrow] at hheads
    cases hheads
  · rintro ⟨row, w', result, hrecord, -, -⟩
    rw [hrefused] at hrecord
    cases hrecord

end Trellis.Audit
