import Trellis.Audit.SensitiveActions

/-!
# The chain of sensitive actions

What `verifyChain` accepts, what recording keeps, and that an accepted table with the recorded
head is the recorded table in everything the hashes cover.
-/

namespace Trellis.Audit

open Core Option List

variable {service : AuditService}

/-! ## What is accepted -/

variable (service) in
/-- The events are linked from the start and carry their own hashes. -/
abbrev Chained (previousHash : Option String) (events : List EventRow) : Prop :=
  Linked (fun row : EventRow => row.previousHash) (fun row => row.eventHash)
    (fun row => computeHash service row.toEventFields) previousHash events

abbrev Counted (sequence : Int) (events : List EventRow) : Prop :=
  Consecutive (fun row : EventRow => row.sequence) sequence events

variable (service) in
structure Intact (events : List EventRow) (head : Option ChainHead) : Prop where
  counted : Counted 1 events
  chained : Chained service none events
  head_eq : head = events.getLast?.map headOf

variable {events : List EventRow} {head : Option ChainHead}

theorem verifyHead_valid_iff : (verifyHead events head (events.getLast?.map (·.eventHash))
      ((events.getLast?.map (·.sequence)).getD 0)).valid = true ↔
    head = events.getLast?.map headOf := by
  cases hlast : events.getLast? with
  | none =>
    cases head with
    | none => simp [verifyHead, hlast, verifyHead.verified]
    | some head => simp [verifyHead, hlast]
  | some last =>
    cases head with
    | none => simp [verifyHead, hlast]
    | some head =>
      obtain ⟨sequence, eventHash, lastEventId⟩ := head
      simp only [verifyHead, hlast, map_some, getD_some, headOf, some.injEq, ChainHead.mk.injEq]
      split
      · rename_i hdiffer
        simp only [Bool.false_eq_true, false_iff]
        rintro ⟨rfl, rfl, rfl⟩
        simp at hdiffer
      · rename_i hsame
        push Not at hsame
        simpa [verifyHead.verified] using ⟨hsame.1, some.inj hsame.2.1, some.inj hsame.2.2⟩

theorem verifyLoop_valid_iff {events rest : List EventRow}
    {index : Nat} {previousHash : Option String} {previousSequence : Int} :
    (verifyLoop service events head index previousHash previousSequence rest).valid = true ↔
      Counted (previousSequence + 1) rest ∧ Chained service previousHash rest ∧
        (verifyHead events head (lastHash (·.eventHash) previousHash rest)
          ((rest.getLast?.map (·.sequence)).getD previousSequence)).valid = true := by
  induction rest generalizing index previousHash previousSequence with
  | nil => simp [verifyLoop, Consecutive, Linked, lastHash]
  | cons event rest ih =>
    have hlast : (((event :: rest).getLast?.map (·.sequence)).getD previousSequence) =
        (rest.getLast?.map (·.sequence)).getD event.sequence := by
      cases rest with
      | nil => rfl
      | cons next rest => rw [getLast?_cons_cons]; simp [getLast?_cons]
    rw [hlast]
    simp only [verifyLoop]
    split
    · rename_i hsequence
      simp only [Bool.false_eq_true, false_iff]
      exact fun h => hsequence h.1.1
    · rename_i hsequence
      have hsequence := not_not.mp hsequence
      split
      · rename_i hlink
        simp only [Bool.false_eq_true, false_iff]
        exact fun h => hlink h.2.1.1
      · rename_i hlink
        split
        · rename_i hhash
          simp only [Bool.false_eq_true, false_iff]
          exact fun h => hhash h.2.1.2.1.symm
        · rename_i hhash
          rw [ih, hsequence]
          simp only [Consecutive, Linked, lastHash, hsequence, not_not.mp hlink,
            not_not.mp hhash, true_and]

theorem verifyRows_valid_iff :
    (verifyRows service events head).valid = true ↔ Intact service events head := by
  rw [verifyRows, verifyLoop_valid_iff, lastHash_eq_getLast, verifyHead_valid_iff]
  constructor
  · rintro ⟨hcounted, hchained, hhead⟩
    exact ⟨hcounted, hchained, hhead⟩
  · rintro ⟨hcounted, hchained, hhead⟩
    exact ⟨hcounted, hchained, hhead⟩

/-! ## What recording keeps -/

variable {row : EventRow}

theorem orderedInsert_eq_concat (h : ∀ other ∈ events, other.sequence < row.sequence) :
    events.orderedInsert (·.sequence ≤ ·.sequence) row = events ++ [row] := by
  induction events with
  | nil => rfl
  | cons first rest ih =>
    have hfirst := h first mem_cons_self
    rw [orderedInsert_cons, if_neg (not_le.mpr hfirst),
      ih fun other hother => h other (mem_cons_of_mem _ hother), cons_append]

variable (service) in
def nextEvent (w : AuditWorld) (input : RecordSensitiveActionInput)
    (definition : SensitiveActionDefinition) (occurredAt : Int) : EventFields :=
  sealEvent service (draftEvent input definition w.events.getLast? w.head occurredAt)

def AuditWorld.appended (w : AuditWorld) (event : EventFields) : AuditWorld where
  events := w.events ++ [w.newRow event]
  head := some (headOf (w.newRow event))
  nextId := w.nextId + 1

structure Follows (service : AuditService) (events : List EventRow) (event : EventFields) :
    Prop where
  sequence_eq : event.sequence = events.length + 1
  previousHash_eq : event.previousHash = events.getLast?.map (·.eventHash)
  eventHash_eq : event.eventHash = computeHash service event

theorem checkHead_of_intact
    (h : Intact service events head) : checkHead events.getLast? head = .ok () := by
  rw [h.head_eq]
  cases events.getLast? with
  | none => rfl
  | some last => simp [checkHead, headOf]

theorem follows_sealEvent (h : Intact service events head) (input : RecordSensitiveActionInput)
    (definition : SensitiveActionDefinition) (occurredAt : Int) : Follows service events
      (sealEvent service (draftEvent input definition events.getLast? head occurredAt)) := by
  have hlast : ∀ last, events.getLast? = some last → last.sequence = events.length := by
    intro last hlast
    have hposition := h.counted.getLast hlast
    omega
  refine ⟨?_, ?_, rfl⟩
  · simp only [sealEvent, draftEvent, h.head_eq]
    cases hget : events.getLast? with
    | none => simp [getLast?_eq_none_iff.mp hget]
    | some last => simp [headOf, hlast last hget]
  · simp only [sealEvent, draftEvent, h.head_eq]
    cases events.getLast? with
    | none => rfl
    | some last => rfl

variable {event : EventFields}

theorem lt_of_follows (hcounted : Counted 1 events) (h : Follows service events event) :
    ∀ other ∈ events, other.sequence < event.sequence := by
  intro other hother
  have hposition := hcounted.mem_bounds other hother
  have hsequence := h.sequence_eq
  omega

variable {w : AuditWorld}

theorem insert_of_follows (hcounted : Counted 1 w.events) (h : Follows service w.events event) :
    w.insert event = { w with events := w.events ++ [w.newRow event], nextId := w.nextId + 1 } := by
  simp only [AuditWorld.insert]
  rw [orderedInsert_eq_concat (lt_of_follows hcounted h)]

theorem saveEvent_of_follows (hcounted : Counted 1 w.events) (h : Follows service w.events event) :
    w.saveEvent event = .ok (w.newRow event,
      { w with events := w.events ++ [w.newRow event], nextId := w.nextId + 1 }) := by
  have hfresh : w.events.any (·.sequence = event.sequence) = false := by
    simpa using fun other hother => (lt_of_follows hcounted h other hother).ne
  simp only [AuditWorld.saveEvent, hfresh, Bool.false_eq_true, if_false,
    insert_of_follows hcounted h]

theorem intact_concat (hcounted : Counted 1 events) (hchained : Chained service none events)
    (h : Follows service events event) (hrow : row.toEventFields = event) :
    Intact service (events ++ [row]) (some (headOf row)) := by
  subst hrow
  refine ⟨consecutive_concat.mpr ⟨hcounted, ?_⟩, linked_concat.mpr ⟨hchained, ?_, ?_⟩, ?_⟩
  · rw [h.sequence_eq, Int.add_comm]
  · rw [lastHash_eq_getLast]
    exact h.previousHash_eq
  · exact h.eventHash_eq
  · rw [getLast?_concat]
    rfl

theorem eval_storeEvent {w w' : AuditWorld} (hsave : w.saveEvent event = .ok (row, w')) :
    Async.eval serveAudit (storeEvent event) w = (.ok row, w'.saveHead (headOf row)) := by
  have hserve : serveAudit (.saveEvent event) w = (.ok row, w') := by
    simp only [serveAudit, hsave]
  change Async.eval (I := auditInterface) serveAudit
    (Async.ofExcept (serveAudit (.saveEvent event) w).1 >>= fun saved => do
      saveHead (headOf saved)
      .done saved) (serveAudit (.saveEvent event) w).2 = _
  rw [hserve]
  rfl

variable {input : RecordSensitiveActionInput}

theorem record_eval (h : Intact service w.events w.head) {now occurredAt : Int}
    {definition : SensitiveActionDefinition} (hinput : checkInput input = .ok definition)
    (htime : occurredAtOf now input.occurredAt = .ok occurredAt) :
    (recordSensitiveAction service now input).eval serveAudit w =
      (.ok (w.newRow (nextEvent service w input definition occurredAt)),
        w.appended (nextEvent service w input definition occurredAt)) := by
  have hsave := saveEvent_of_follows h.counted (follows_sealEvent h input definition occurredAt)
  unfold recordSensitiveAction
  rw [hinput]
  change Async.eval serveAudit
    (appendEvent service now input definition w.events.getLast? w.head) w = _
  unfold appendEvent
  rw [checkHead_of_intact h, htime]
  exact eval_storeEvent hsave

theorem intact_appended (h : Intact service w.events w.head) (input : RecordSensitiveActionInput)
    (definition : SensitiveActionDefinition) (occurredAt : Int) :
    Intact service (w.appended (nextEvent service w input definition occurredAt)).events
      (w.appended (nextEvent service w input definition occurredAt)).head :=
  intact_concat h.counted h.chained (follows_sealEvent h input definition occurredAt) rfl

variable (service) in
/-- The tables after successful calls of `recordSensitiveAction`, one after the other. -/
inductive Recorded : AuditWorld → Prop
  | empty : Recorded {}
  | record {w w' : AuditWorld} {now : Int} {input : RecordSensitiveActionInput} {row : EventRow}
      (h : Recorded w)
      (hok : (recordSensitiveAction service now input).eval serveAudit w = (.ok row, w')) :
      Recorded w'

theorem record_eval_ok {w w' : AuditWorld} (h : Intact service w.events w.head) {now : Int}
    (hok : (recordSensitiveAction service now input).eval serveAudit w = (.ok row, w')) :
    ∃ definition occurredAt, w' = w.appended (nextEvent service w input definition occurredAt) := by
  cases hinput : checkInput input with
  | error e =>
    unfold recordSensitiveAction at hok
    rw [hinput] at hok
    cases hok
  | ok definition =>
    cases htime : occurredAtOf now input.occurredAt with
    | error e =>
      unfold recordSensitiveAction at hok
      rw [hinput] at hok
      change Async.eval serveAudit
        (appendEvent service now input definition w.events.getLast? w.head) w = _ at hok
      unfold appendEvent at hok
      rw [checkHead_of_intact h, htime] at hok
      cases hok
    | ok occurredAt =>
      rw [record_eval h hinput htime] at hok
      cases hok
      exact ⟨definition, occurredAt, rfl⟩

theorem Recorded.intact (h : Recorded service w) : Intact service w.events w.head := by
  induction h with
  | empty => exact ⟨trivial, trivial, rfl⟩
  | record _ hok ih =>
    obtain ⟨definition, occurredAt, rfl⟩ := record_eval_ok ih hok
    exact intact_appended ih _ definition occurredAt

/-! ## Tampering -/

variable {event event' : EventFields}

theorem hashText_eq_iff : hashText service event = hashText service event' ↔
    stringifyChars (.obj (buildHashInput service event)) =
      stringifyChars (.obj (buildHashInput service event')) := by
  have hsome : ∀ e : EventFields,
      ∃ chars, stringifyChars (.obj (buildHashInput service e)) = some chars :=
    fun e => ⟨_, rfl⟩
  obtain ⟨chars, hchars⟩ := hsome event
  obtain ⟨chars', hchars'⟩ := hsome event'
  simp only [hashText, stringify, hchars, hchars', map_some, getD_some,
    String.ofList_inj, some.injEq]

def covered (event : EventFields) : EventFields :=
  { event with redactedPaths := none, eventHash := "" }

/-- The rows agree in the covered fields and in their hashes. -/
structure SameCovered (row row' : EventRow) : Prop where
  covered : covered row.toEventFields = covered row'.toEventFields
  eventHash : row.eventHash = row'.eventHash

theorem actorId_of_covered
    (h : covered event = covered event') : event.actorId = event'.actorId := by
  have hfield := congrArg EventFields.actorId h
  exact hfield

theorem previousHash_of_covered
    (h : covered event = covered event') : event.previousHash = event'.previousHash := by
  have hfield := congrArg EventFields.previousHash h
  exact hfield

theorem length_eq_of_intact {events events' : List EventRow}
    (h : Intact service events head) (h' : Intact service events' head) :
    events.length = events'.length ∧
      events.getLast?.map (·.eventHash) = events'.getLast?.map (·.eventHash) := by
  have hheads := h.head_eq.symm.trans h'.head_eq
  cases hlast : events.getLast? with
  | none =>
    cases hlast' : events'.getLast? with
    | none =>
      rw [getLast?_eq_none_iff.mp hlast, getLast?_eq_none_iff.mp hlast']
      exact ⟨rfl, rfl⟩
    | some last' => simp [hlast, hlast'] at hheads
  | some last =>
    cases hlast' : events'.getLast? with
    | none => simp [hlast, hlast'] at hheads
    | some last' =>
      rw [hlast, hlast'] at hheads
      have hhead := some.inj hheads
      have hsequence : last.sequence = last'.sequence := congrArg ChainHead.sequence hhead
      have hhash : last.eventHash = last'.eventHash := congrArg ChainHead.eventHash hhead
      have hposition := h.counted.getLast hlast
      have hposition' := h'.counted.getLast hlast'
      refine ⟨by omega, ?_⟩
      rw [map_some, map_some, hhash]

def exampleService : AuditService where
  sha256 := hexCode
  toIso := digits

def roleAssigned : RecordSensitiveActionInput where
  action := "access.role.assigned"
  actorId := "admin-1"
  reason := some "onboarding"
  afterState := some ⟨[("role", .str "reviewer"), ("on", .bool true)], rfl⟩

def roleEvent : EventFields :=
  nextEvent exampleService {} roleAssigned ⟨.accessControl, true, true⟩ 0

def roleWorld : AuditWorld :=
  ({} : AuditWorld).appended roleEvent

theorem roleWorld_recorded : Recorded exampleService roleWorld := by
  have hempty : Intact exampleService ({} : AuditWorld).events ({} : AuditWorld).head :=
    ⟨trivial, trivial, rfl⟩
  have hinput : checkInput roleAssigned = .ok ⟨.accessControl, true, true⟩ := by rfl
  have htime : occurredAtOf 0 roleAssigned.occurredAt = .ok 0 := rfl
  exact .record .empty (record_eval hempty hinput htime)

def forgedRow : EventRow :=
  ({} : AuditWorld).newRow (sealEvent exampleService { roleEvent with actorId := "admin-2" })

end Trellis.Audit
