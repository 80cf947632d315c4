import Trellis.Core.JsonParse
import Trellis.Events.Replay

/-!
# The two canonical forms

The ledger and the replay engine each have a function `canonicalize`. They agree on values without
`undefined`. Elsewhere the ledger writes nothing for an item and `undefined` for a member, the
engine writes `null` for an item and leaves the member out.
-/

namespace Trellis.Events

open Core List Replay Option

namespace Replay

/-- The text of a member; `undefined` has none. -/
def memberValue : Value → Option (List Char)
  | .undefined => none
  | v => some (canonicalChars v)

theorem canonicalMembers_eq_map (members : List (String × Value)) :
    canonicalMembers members = members.map fun m => (m.1, memberValue m.2) := by
  induction members with
  | nil => rfl
  | cons m ms ih =>
    obtain ⟨key, v⟩ := m
    cases v <;> simp [canonicalMembers, memberValue, ih]

end Replay

/-! ## How the texts are read -/

/-- How the texts of a value are read: as a value if the engine wrote it, and as the same value
only if `undefined` does not occur. -/
structure Agree (v : Value) (o : Option Value) (u : Value) : Prop where
  ledger : Reads opaqueNumbers ((Ledger.canonicalChars v).getD []) o
  head : ((Ledger.canonicalChars v).getD []).head? ≠ some ']'
  replay : Reads opaqueNumbers (canonicalChars v) (some u)
  same : isDefined v = true → canonicalChars v = (Ledger.canonicalChars v).getD []
  defined : o = some u → isDefined v = true

theorem reads_nothing : Reads opaqueNumbers [] none := by
  have hread : Reads opaqueNumbers [] (parseToken opaqueNumbers []) :=
    reads_token (by simp) (by simp)
  rwa [parseToken, read_eq_none (.inl rfl)] at hread

theorem reads_undefined : Reads opaqueNumbers "undefined".toList none := by
  have hread : Reads opaqueNumbers _ (parseToken opaqueNumbers "undefined".toList) :=
    reads_token (by simp [isDelimiter]) (by simp)
  rwa [parseToken, read_eq_none (.inr ⟨'u', by decide, rfl⟩)] at hread

theorem agree_undefined : Agree .undefined none .null where
  ledger := reads_nothing
  head := nofun
  replay := reads_null
  same := nofun
  defined := nofun

variable {v : Value} {o : Option Value} {u : Value}

theorem ledger_eq_some (hv : v ≠ .undefined) : ∃ text, Ledger.canonicalChars v = some text := by
  cases v with
  | undefined => exact absurd rfl hv
  | bool b => cases b <;> exact ⟨_, rfl⟩
  | _ => exact ⟨_, rfl⟩

/-- A member is written with its value, or as `undefined`. -/
theorem Agree.member (h : Agree v o u) :
    Reads opaqueNumbers ((Ledger.canonicalChars v).getD "undefined".toList) o := by
  by_cases hv : v = .undefined
  · subst hv
    have hnone : o = none := h.ledger.parse_eq.symm.trans reads_nothing.parse_eq
    rw [hnone]
    exact reads_undefined
  · have hread := h.ledger
    obtain ⟨text, htext⟩ := ledger_eq_some hv
    rwa [htext] at hread ⊢

theorem agree_items {items : List Value} (h : ∀ v ∈ items, ∃ o u, Agree v o u) :
    ∃ os us, List.Forall₂ (Reads opaqueNumbers) (Ledger.canonicalItems items) os ∧
      List.Forall₂ (fun text u => Reads opaqueNumbers text (some u)) (canonicalItems items) us ∧
      (os = us.map some → definedItems items = true) ∧
      (definedItems items = true → canonicalItems items = Ledger.canonicalItems items) ∧
      ∀ text ∈ Ledger.canonicalItems items, text.head? ≠ some ']' := by
  induction items with
  | nil => exact ⟨[], [], .nil, .nil, fun _ => rfl, fun _ => rfl, nofun⟩
  | cons v vs ih =>
    obtain ⟨o, u, hv⟩ := h v mem_cons_self
    obtain ⟨os, us, hledger, hreplay, hdefined, hsame, hhead⟩ :=
      ih fun v hv => h v (mem_cons_of_mem _ hv)
    refine ⟨o :: os, u :: us, .cons hv.ledger hledger, .cons hv.replay hreplay, ?_, ?_, ?_⟩
    · intro heq
      rw [map_cons, cons.injEq] at heq
      simp [definedItems, hv.defined heq.1, hdefined heq.2]
    · intro hall
      rw [definedItems, Bool.and_eq_true] at hall
      rw [canonicalItems, Ledger.canonicalItems, hv.same hall.1, hsame hall.2]
    · exact forall_mem_cons.mpr ⟨hv.head, hhead⟩

theorem agree_arr {items : List Value} (h : ∀ v ∈ items, ∃ o u, Agree v o u) :
    ∃ o u, Agree (.arr items) o u := by
  obtain ⟨os, us, hledger, hreplay, hdefined, hsame, hhead⟩ := agree_items h
  have hreplay' := reads_items hreplay
  have hsame' : isDefined (.arr items) = true → canonicalChars (.arr items) =
      (Ledger.canonicalChars (.arr items)).getD [] := by
    intro hall
    rw [canonicalChars, hsame hall]
    rfl
  by_cases hempty : Ledger.canonicalItems items = [[]]
  · -- the one item that is left empty is read as no item
    refine ⟨some (.arr []), .arr us, ?_, nofun, hreplay', hsame', fun heq => ?_⟩
    · rw [Ledger.canonicalChars, hempty]
      exact reads_arr .nil nofun nofun
    · cases heq
      cases items with
      | nil => cases hempty
      | cons => cases hreplay
  · refine ⟨_, .arr us, reads_arr hledger hempty hhead, nofun, hreplay', hsame', fun heq => ?_⟩
    obtain ⟨us', hus, heq'⟩ := map_eq_some_iff.mp heq
    cases heq'
    exact hdefined (mapM_id_eq_some.mp hus)

def writtenMember (m : String × Value) : List Char :=
  memberText m.1 ((Ledger.canonicalChars m.2).getD "undefined".toList)

theorem agree_members {members : List (String × Value)}
    (h : ∀ m ∈ members, ∃ o u, Agree m.2 o u) :
    ∃ os us, List.Forall₂ (ReadsMember opaqueNumbers) (members.map writtenMember) os ∧
      List.Forall₂ (fun text u => ReadsMember opaqueNumbers text (some u))
        (members.filterMap fun m => (memberValue m.2).map (memberText m.1)) us ∧
      (os = us.map some → ∀ m ∈ members, isDefined m.2 = true) ∧
      ((∀ m ∈ members, isDefined m.2 = true) →
        members.filterMap (fun m => (memberValue m.2).map (memberText m.1)) =
          members.map writtenMember) := by
  induction members with
  | nil => exact ⟨[], [], .nil, .nil, nofun, fun _ => rfl⟩
  | cons m ms ih =>
    obtain ⟨key, v⟩ := m
    obtain ⟨o, u, hv⟩ := h _ mem_cons_self
    obtain ⟨os, us, hledger, hreplay, hdefined, hsame⟩ :=
      ih fun m hm => h m (mem_cons_of_mem _ hm)
    have hwritten : ReadsMember opaqueNumbers (writtenMember (key, v)) (o.map (key, ·)) :=
      ⟨key, _, o, rfl, rfl, hv.member⟩
    by_cases hundefined : v = .undefined
    · subst hundefined
      have hnone : o = none := hv.ledger.parse_eq.symm.trans reads_nothing.parse_eq
      subst hnone
      refine ⟨none :: os, us, .cons hwritten hledger, hreplay, fun heq => ?_, fun hall => ?_⟩
      · cases us <;> cases heq
      · exact absurd (hall _ mem_cons_self) nofun
    · have hvalue : memberValue v = some (canonicalChars v) := by
        cases v <;> first | rfl | exact absurd rfl hundefined
      simp only [filterMap_cons, hvalue, map_some]
      refine ⟨o.map (key, ·) :: os, (key, u) :: us, .cons hwritten hledger,
        .cons ⟨key, _, some u, rfl, rfl, hv.replay⟩ hreplay, fun heq => ?_, fun hall => ?_⟩
      · rw [map_cons, cons.injEq] at heq
        refine forall_mem_cons.mpr ⟨hv.defined ?_, hdefined heq.2⟩
        cases o with
        | none => cases heq.1
        | some u' =>
          cases heq.1
          rfl
      · obtain ⟨hfirst, hrest⟩ := forall_mem_cons.mp hall
        obtain ⟨text, htext⟩ := ledger_eq_some hundefined
        rw [hsame hrest, map_cons, writtenMember, hv.same hfirst, htext]
        rfl

theorem agree_obj {members : List (String × Value)}
    (h : ∀ m ∈ members, ∃ o u, Agree m.2 o u) : ∃ o u, Agree (.obj members) o u := by
  obtain ⟨os, us, hledger, hreplay, hdefined, hsame⟩ :=
    agree_members fun m (hm : m ∈ sortMembers members) => h m (mem_sortMembers.mp hm)
  have hwritten : Ledger.canonicalChars (.obj members) =
      some ('{' :: (commaSeparated ((sortMembers members).map writtenMember) ++ ['}'])) := by
    rw [Ledger.canonicalChars, Ledger.canonicalMembers_eq_map, sortMembers_map, List.map_map]
    rfl
  have hcanonical : canonicalChars (.obj members) = '{' :: (commaSeparated
      ((sortMembers members).filterMap fun m => (memberValue m.2).map (memberText m.1)) ++
        ['}']) := by
    rw [canonicalChars, canonicalMembers_eq_map, sortMembers_map, filterMap_map]
    rfl
  refine ⟨(os.mapM id).map .obj, .obj us, ?_, ?_, hcanonical ▸ reads_members hreplay, ?_,
    fun heq => ?_⟩
  · rw [hwritten, getD_some]
    exact reads_obj hledger
  · simp [hwritten]
  · intro hall
    rw [hcanonical, hwritten, hsame fun m hm => definedMembers_iff.mp hall m (mem_sortMembers.mp hm)]
    rfl
  · obtain ⟨us', hus, heq'⟩ := map_eq_some_iff.mp heq
    cases heq'
    have hall := hdefined (mapM_id_eq_some.mp hus)
    exact definedMembers_iff.mpr fun m hm => hall m (mem_sortMembers.mpr hm)

theorem agree_primitive {text : List Char} (h : primitiveText v = some text) :
    ∃ o u, Agree v o u := by
  obtain ⟨u, hu, hread⟩ := @reads_primitive opaqueNumbers _ _ h
  have hledger : (Ledger.canonicalChars v).getD [] = text := by
    have heq : Ledger.canonicalChars v = primitiveText v := by
      cases v <;> first | rfl | cases h
    rw [heq, h, getD_some]
  have hreplay : canonicalChars v = text := by
    have heq : canonicalChars v = (primitiveText v).getD [] := by
      cases v <;> first | rfl | cases h
    rw [heq, h, getD_some]
  refine ⟨some u, u, hledger ▸ hread, ?_, hreplay ▸ hread, fun _ => ?_, fun _ => ?_⟩
  · rw [hledger]
    exact hread.head?_ne.2
  · rw [hledger, hreplay]
  · cases v <;> first | rfl | cases h

/-- The two functions write the same text for a payload exactly if `undefined` occurs nowhere
in it. -/
theorem canonicalPayload_eq_iff (payload : Record) :
    canonicalPayload payload = String.ofList (canonicalChars (.obj payload)) ↔
      isDefined (.obj payload) = true := by
  have hagree : ∀ v, ∃ o u, Agree v o u := by
    intro v
    induction v using Value.inductText with
    | hundefined => exact ⟨_, _, agree_undefined⟩
    | hprimitive v text htext => exact agree_primitive htext
    | harr items ih => exact agree_arr ih
    | hobj members ih => exact agree_obj ih
  obtain ⟨o, u, hobj⟩ := hagree (.obj payload)
  rw [canonicalPayload, String.ofList_inj]
  constructor
  · intro heq
    refine hobj.defined (hobj.ledger.parse_eq.symm.trans ?_)
    rw [heq]
    exact hobj.replay.parse_eq
  · exact fun hdefined => (hobj.same hdefined).symm

end Trellis.Events
