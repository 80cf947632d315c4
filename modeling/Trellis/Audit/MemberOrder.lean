import Trellis.Audit.ChainIntegrity
import Trellis.Core.JsonOrder

/-!
# The order of members and the hash of an event

The hash of an event is taken over `JSON.stringify` of its states before they are stored, and
recomputed over what a `jsonb` column returns, which keeps the members of an object and not their
order.
-/

namespace Trellis.Audit

open Core List

variable {service : AuditService}

/-! ## Returned rows -/

/-- The database returns a row: the `jsonb` values with members related by `order`, the other
fields as they are. -/
structure ReturnedRow (order : List (String × Value) → List (String × Value) → Prop)
    (row row' : EventRow) : Prop where
  rest : row' = { row with
    beforeState := row'.beforeState, afterState := row'.afterState, metadata := row'.metadata }
  beforeState : Returned order (nullableRecord row.beforeState) (nullableRecord row'.beforeState)
  afterState : Returned order (nullableRecord row.afterState) (nullableRecord row'.afterState)
  metadata : Returned order (nullableRecord row.metadata) (nullableRecord row'.metadata)

section HashInput

variable {order : List (String × Value) → List (String × Value) → Prop}

theorem returned_nullableText (text : Option String) :
    Returned order (nullableText text) (nullableText text) := by
  cases text <;> exact ⟨nofun, rfl⟩

theorem returned_str (text : String) : Returned order (.str text) (.str text) :=
  ⟨nofun, rfl⟩

variable (service) in
theorem returned_hashInput_iff (event : EventFields)
    (beforeState afterState metadata : Option JsonRecord) :
    List.Forall₂ (ReturnedMember order) (buildHashInput service event)
        (buildHashInput service { event with beforeState, afterState, metadata }) ↔
      Returned order (nullableRecord event.beforeState) (nullableRecord beforeState) ∧
        Returned order (nullableRecord event.afterState) (nullableRecord afterState) ∧
          Returned order (nullableRecord event.metadata) (nullableRecord metadata) := by
  simp only [buildHashInput, forall₂_cons, ReturnedMember, returned_nullableText,
    returned_str, true_and, and_true, forall₂_nil_left_iff]

end HashInput

variable {row row' : EventRow} {order : List (String × Value) → List (String × Value) → Prop}

variable (h : ReturnedRow order row row')
include h

theorem ReturnedRow.fields_eq : row'.toEventFields = { row.toEventFields with
    beforeState := row'.beforeState, afterState := row'.afterState, metadata := row'.metadata } :=
  congrArg EventRow.toEventFields h.rest

theorem ReturnedRow.previousHash_eq : row'.previousHash = row.previousHash := by
  rw [h.rest]

theorem ReturnedRow.eventHash_eq : row'.eventHash = row.eventHash := by
  rw [h.rest]

omit h

variable (service) in
/-- A returned row has the text that was hashed exactly if its objects are in the order in
which they were written. -/
theorem hashText_eq_iff_inOrder (h : ReturnedRow List.Perm row row') :
    hashText service row'.toEventFields = hashText service row.toEventFields ↔
      ReturnedRow Eq row row' := by
  have hmembers := (returned_hashInput_iff service row.toEventFields row'.beforeState
    row'.afterState row'.metadata).mpr ⟨h.beforeState, h.afterState, h.metadata⟩
  have hreordered : Reordered (.obj (buildHashInput service row.toEventFields))
      (.obj (buildHashInput service row'.toEventFields)) := by
    rw [h.fields_eq]
    exact ⟨_, _, rfl, returnedMembers_iff.mpr hmembers, .refl _⟩
  rw [hashText_eq_iff, stringify_eq_iff_sameOrder hreordered, sameOrder_obj_iff, h.fields_eq,
    returned_hashInput_iff]
  constructor
  · rintro ⟨hbefore, hafter, hmetadata⟩
    exact ⟨h.rest, hbefore, hafter, hmetadata⟩
  · intro hsame
    exact ⟨hsame.beforeState, hsame.afterState, hsame.metadata⟩

/-! ## Verification of what is returned -/

variable {events' events : List EventRow}

theorem forall₂_sequence (h : List.Forall₂ (ReturnedRow List.Perm) events events') {sequence : Int}
    (hcounted : Counted sequence events) : Counted sequence events' := by
  induction h generalizing sequence with
  | nil => trivial
  | cons hrow _ ih =>
    refine ⟨?_, ih hcounted.2⟩
    rw [hrow.rest]
    exact hcounted.1

theorem getLast?_headOf (h : List.Forall₂ (ReturnedRow List.Perm) events events') :
    events'.getLast?.map headOf = events.getLast?.map headOf := by
  have hheads : events'.map headOf = events.map headOf := by
    rw [← forall₂_eq_eq_eq, forall₂_map_left_iff, forall₂_map_right_iff]
    refine List.Forall₂.flip (h.imp fun row row' hrow => ?_)
    have hhead := congrArg headOf hrow.rest
    exact hhead
  rw [← getLast?_map, ← getLast?_map, hheads]

theorem chained_iff_inOrder (hinj : Function.Injective service.sha256.digest)
    (h : List.Forall₂ (ReturnedRow List.Perm) events events') {previousHash : Option String}
    (hchained : Chained service previousHash events) :
    Chained service previousHash events' ↔ List.Forall₂ (ReturnedRow Eq) events events' := by
  induction h generalizing previousHash with
  | nil => exact ⟨fun _ => .nil, fun _ => trivial⟩
  | @cons row row' events events' hrow hrest ih =>
    obtain ⟨hlink, hhash, hchained'⟩ := hchained
    change row.eventHash = computeHash service row.toEventFields at hhash
    have hlink' := hrow.previousHash_eq
    have hhash' := hrow.eventHash_eq
    have hown : row'.eventHash = computeHash service row'.toEventFields ↔
        ReturnedRow Eq row row' := by
      rw [← hashText_eq_iff_inOrder service hrow, hhash', hhash]
      exact ⟨fun heq => (hinj heq).symm, fun heq => congrArg service.sha256.digest heq.symm⟩
    rw [forall₂_cons, ← hown, ← ih hchained']
    constructor
    · rintro ⟨-, hown', hrest'⟩
      change Chained service (some row'.eventHash) events' at hrest'
      rw [hhash'] at hrest'
      exact ⟨hown', hrest'⟩
    · rintro ⟨hown', hrest'⟩
      refine ⟨hlink'.trans hlink, hown', ?_⟩
      change Chained service (some row'.eventHash) events'
      rw [hhash']
      exact hrest'

/-- `verifyChain` accepts a recorded table exactly if every object is returned in the order in
which it was written. -/
theorem verifyChain_valid_iff_inOrder (hinj : Function.Injective service.sha256.digest)
    {w : AuditWorld} (hrecorded : Recorded service w) {events : List EventRow}
    (hreturned : List.Forall₂ (ReturnedRow List.Perm) w.events events) :
    (verifyRows service events w.head).valid = true ↔
      List.Forall₂ (ReturnedRow Eq) w.events events := by
  have hintact := hrecorded.intact
  rw [verifyRows_valid_iff, ← chained_iff_inOrder hinj hreturned hintact.chained]
  constructor
  · exact fun h => h.chained
  · intro hchained
    refine ⟨forall₂_sequence hreturned hintact.counted, hchained, ?_⟩
    rw [getLast?_headOf hreturned]
    exact hintact.head_eq

/-! ## The granted role -/

def roleRow : EventRow :=
  ({} : AuditWorld).newRow roleEvent

def swappedRow : EventRow :=
  { roleRow with afterState := some ⟨[("on", .bool true), ("role", .str "reviewer")], rfl⟩ }

theorem roleRow_afterState : nullableRecord roleRow.afterState =
    .obj [("role", .str "reviewer"), ("on", .bool true)] := by
  have hrole : isSensitiveKey "role" = false := by decide +kernel
  have hon : isSensitiveKey "on" = false := by decide +kernel
  have hshort : ¬ 500 < utf16Length "reviewer" := by decide +kernel
  have hsanitized := nullableRecord_sanitizeAuditPayload {} (by decide)
    ⟨[("role", .str "reviewer"), ("on", .bool true)], rfl⟩
  simp only [walkMembers, hrole, hon, Bool.false_eq_true, if_false, walk, hshort] at hsanitized
  exact hsanitized

theorem roleRow_states : roleRow.beforeState = none ∧ roleRow.metadata = none :=
  ⟨rfl, rfl⟩

theorem returned_afterState
    (hbefore : row.beforeState = none) (hmetadata : row.metadata = none) {state : Option JsonRecord}
    (h : Returned order (nullableRecord row.afterState) (nullableRecord state)) :
    ReturnedRow order row { row with afterState := state } := by
  have hnull : Returned order (nullableRecord none) (nullableRecord none) := ⟨nofun, rfl⟩
  refine ⟨rfl, ?_, h, ?_⟩
  · rw [hbefore]
    exact hnull
  · rw [hmetadata]
    exact hnull

theorem returned_self (hbefore : row.beforeState = none) (hmetadata : row.metadata = none)
    (h : Returned order (nullableRecord row.afterState) (nullableRecord row.afterState)) :
    ReturnedRow order row row :=
  returned_afterState hbefore hmetadata h

theorem role_in_order_is_verified :
    (verifyRows exampleService [roleRow] roleWorld.head).valid = true := by
  have hreturned : ∀ order : List (String × Value) → List (String × Value) → Prop,
      (∀ members, order members members) → ReturnedRow order roleRow roleRow := by
    intro order hrefl
    refine returned_self roleRow_states.1 roleRow_states.2 ?_
    rw [roleRow_afterState]
    exact ⟨_, _, rfl, ⟨_, _, rfl, ⟨nofun, rfl⟩, _, _, rfl, ⟨nofun, rfl⟩, rfl⟩, hrefl _⟩
  exact (verifyChain_valid_iff_inOrder hexCode_injective roleWorld_recorded
    (.cons (hreturned _ .refl) .nil)).mpr (.cons (hreturned _ fun _ => rfl) .nil)

/-- The same members in the other order are reported as tampering. -/
theorem reordered_members_raise_alarm : Recorded exampleService roleWorld ∧
    List.Forall₂ (ReturnedRow List.Perm) roleWorld.events [swappedRow] ∧
      (verifyRows exampleService [swappedRow] roleWorld.head).valid = false := by
  have hreturned : ReturnedRow List.Perm roleRow swappedRow := by
    refine returned_afterState roleRow_states.1 roleRow_states.2 ?_
    rw [roleRow_afterState]
    exact ⟨_, _, rfl, ⟨_, _, rfl, ⟨nofun, rfl⟩, _, _, rfl, ⟨nofun, rfl⟩, rfl⟩, .swap _ _ _⟩
  have hevents : List.Forall₂ (ReturnedRow List.Perm) roleWorld.events [swappedRow] :=
    .cons hreturned .nil
  refine ⟨roleWorld_recorded, hevents, ?_⟩
  rw [← Bool.not_eq_true, verifyRows_valid_iff]
  intro hintact
  have hsame := (chained_iff_inOrder hexCode_injective hevents
    roleWorld_recorded.intact.chained).mp hintact.chained
  cases hsame with
  | cons hrow _ =>
    have hstate := hrow.afterState
    change SameOrder (nullableRecord roleRow.afterState) (nullableRecord swappedRow.afterState)
      at hstate
    rw [roleRow_afterState] at hstate
    cases sameOrder_obj_iff.mp hstate with
    | cons hmember _ => exact absurd hmember.1 (by decide)

end Trellis.Audit
