import Trellis.Common.CanonicalJson
import Trellis.Core.JsonOrder

/-!
# What canonical JSON says about a value

The canonical text of a value is read as the value, with its keys sorted, so that two values
have one text exactly if they differ in the order of keys only.  Numbers count by their text.
-/

namespace Trellis.Common

open Core List

theorem mapM_eq_ok {ε α β : Type} {f : α → Except ε β} {g : α → β} {l : List α} {ys : List β}
    (h : ∀ x y, f x = .ok y → y = g x) :
    l.mapM f = .ok ys ↔ (∀ x ∈ l, ∃ y, f x = .ok y) ∧ ys = l.map g := by
  induction l generalizing ys with
  | nil => simp [pure, Except.pure, eq_comm]
  | cons x xs ih =>
    rw [mapM_cons, forall_mem_cons, map_cons]
    cases hx : f x with
    | error e => exact ⟨nofun, fun h => nomatch h.1.1⟩
    | ok y =>
      cases hxs : xs.mapM f with
      | error e =>
        refine ⟨nofun, fun h => ?_⟩
        have hok := ih.mpr ⟨h.1.2, rfl⟩
        rw [hxs] at hok
        cases hok
      | ok ys' =>
        obtain ⟨hall, rfl⟩ := ih.mp hxs
        rw [← h x y hx]
        constructor
        · rintro ⟨rfl⟩
          exact ⟨⟨⟨y, rfl⟩, hall⟩, rfl⟩
        · rintro ⟨-, rfl⟩
          rfl

theorem bind_eq_ok {ε α β : Type} {x : Except ε α} {f : α → β} {b : β} :
    (x >>= fun a => Except.ok (f a)) = .ok b ↔ ∃ a, x = .ok a ∧ b = f a := by
  cases x <;> simp [bind, Except.bind, eq_comm]

/-! ## Accepted values -/

def Accepted (v : Value) : Prop :=
  ∃ text, serialize v = .ok text

/-- The canonical text of an accepted value. -/
def textOf (v : Value) : List Char :=
  (serialize v).toOption.getD []

variable {s : List Char}

theorem eq_textOf {v : Value} (h : serialize v = .ok s) : s = textOf v := by
  rw [textOf, h]
  rfl

theorem serialize_arr {items : List Value} : serialize (.arr items) = .ok s ↔
    (∀ v ∈ items, Accepted v) ∧ s = '[' :: (commaSeparated (items.map textOf) ++ [']']) := by
  have hitems : serializeItems items = items.mapM serialize := by
    induction items with
    | nil => rfl
    | cons v vs ih =>
      rw [serializeItems, ih, mapM_cons]
      rfl
  simp only [serialize, bind_eq_ok, hitems, mapM_eq_ok fun _ _ => eq_textOf, and_assoc,
    exists_and_left, exists_eq_left]
  rfl

/-- What is written for the value of a member. -/
def memberValue : Value → Except Failure (List Char)
  | .undefined => .error (.error "Canonical JSON cannot contain undefined values")
  | v => serialize v

theorem memberValue_ok {m : String × Value} {text : List Char} :
    (memberValue m.2).map (memberText m.1) = .ok text ↔
      Accepted m.2 ∧ text = memberText m.1 (textOf m.2) := by
  have hvalue : (memberValue m.2).map (memberText m.1) = .ok text ↔
      (serialize m.2).map (memberText m.1) = .ok text := by
    cases m.2 <;> first | rfl | exact ⟨nofun, nofun⟩
  rw [hvalue, Accepted, textOf]
  cases serialize m.2 with
  | error e => exact ⟨nofun, fun h => nomatch h.1⟩
  | ok written => simp [Except.map, Except.toOption, eq_comm]

theorem serialize_obj {members : List (String × Value)} : serialize (.obj members) = .ok s ↔
    (∀ m ∈ members, Accepted m.2) ∧ s = '{' :: (commaSeparated ((sortMembers members).map
      fun m => memberText m.1 (textOf m.2)) ++ ['}']) := by
  have hmembers : serializeMembers members = members.map fun m => (m.1, memberValue m.2) := by
    induction members with
    | nil => rfl
    | cons m ms ih =>
      obtain ⟨key, v⟩ := m
      cases v <;> simp [serializeMembers, memberValue, ih]
  simp only [serialize, bind_eq_ok, hmembers, sortMembers_map, mapM_map, Function.comp_def,
    mapM_eq_ok fun _ _ h => (memberValue_ok.mp h).2, memberValue_ok, mem_sortMembers, and_assoc,
    exists_and_left, exists_eq_left, exists_eq, and_true]

theorem serialize_primitive {v : Value} {text : List Char} (htext : primitiveText v = some text)
    (h : serialize v = .ok s) : s = text := by
  cases v with
  | undefined | arr _ | obj _ => cases htext
  | null | str _ =>
    cases htext
    cases h
    rfl
  | bool b => cases b <;> cases htext <;> cases h <;> rfl
  | num n =>
    cases htext
    cases n with
    | finite d =>
      simp only [serialize, serializeNumber] at h
      split at h <;> cases h
      rfl
    | infinite _ | nan => cases h

/-! ## Reading canonical texts -/

theorem reads_serialize (reader : NumberReader) (v : Value) : Accepted v →
    ∃ u, Reordered v u ∧ Reads reader (textOf v) (some u) := by
  induction v using Value.inductText with
  | hundefined => exact fun ⟨_, h⟩ => nomatch h
  | hprimitive v text htext =>
    rintro ⟨s, hs⟩
    obtain ⟨u, hu, hread⟩ := reads_primitive htext
    refine ⟨u, (returned_primitive_iff htext).mpr hu, ?_⟩
    rwa [← eq_textOf hs, serialize_primitive htext hs]
  | harr items ih =>
    rintro ⟨s, hs⟩
    obtain ⟨hitems, htext⟩ := serialize_arr.mp hs
    obtain ⟨us, hus⟩ := exists_forall₂ fun v hv => ih v hv (hitems v hv)
    refine ⟨.arr us, ⟨us, rfl, returnedItems_iff.mpr (hus.imp fun _ _ h => h.1)⟩, ?_⟩
    rw [← eq_textOf hs, htext]
    exact reads_items (forall₂_map_left_iff.mpr (hus.imp fun _ _ h => h.2))
  | hobj members ih =>
    rintro ⟨s, hs⟩
    obtain ⟨hmembers, htext⟩ := serialize_obj.mp hs
    obtain ⟨us, hus⟩ := exists_forall₂
      (R := fun m u => m.1 = u.1 ∧ Reordered m.2 u.2 ∧ Reads reader (textOf m.2) (some u.2))
      fun m (hm : m ∈ sortMembers members) =>
        have hm := mem_sortMembers.mp hm
        let ⟨u, hu⟩ := ih m hm (hmembers m hm)
        ⟨(m.1, u), rfl, hu⟩
    obtain ⟨kept, hkept, hperm⟩ := perm_comp_forall₂ (perm_insertionSort KeyLe members).symm
      (hus.imp fun m u h => (⟨h.1, h.2.1⟩ : ReturnedMember List.Perm m u))
    refine ⟨.obj us, ⟨kept, us, rfl, returnedMembers_iff.mpr hkept, hperm⟩, ?_⟩
    rw [← eq_textOf hs, htext]
    refine reads_members (forall₂_map_left_iff.mpr (hus.imp fun m u h => ?_))
    exact ⟨m.1, _, some u.2, rfl, by simp [h.1], h.2.2⟩

theorem textOf_eq_of_reordered (v : Value) :
    ∀ w, wellKeyed w = true → Accepted v → Accepted w → Reordered v w → textOf v = textOf w := by
  induction v using Value.inductText with
  | hundefined => exact fun w _ ⟨_, h⟩ => nomatch h
  | hprimitive v text htext =>
    rintro w - ⟨s, hs⟩ ⟨t, ht⟩ h
    rw [← eq_textOf hs, ← eq_textOf ht, serialize_primitive htext hs,
      serialize_primitive ((returned_primitive_iff htext).mp h) ht]
  | harr items ih =>
    rintro w hkeys ⟨s, hs⟩ ⟨t, ht⟩ ⟨items', rfl, hitems⟩
    obtain ⟨haccepted, rfl⟩ := serialize_arr.mp hs
    obtain ⟨haccepted', rfl⟩ := serialize_arr.mp ht
    have hkeys' := wellKeyedItems_iff.mp hkeys
    have hsame : items.map textOf = items'.map textOf := by
      rw [← forall₂_eq_eq_eq, forall₂_map_left_iff, forall₂_map_right_iff]
      exact (forall₂_mem (returnedItems_iff.mp hitems)).imp fun v v' ⟨h, hv, hv'⟩ =>
        ih v hv v' (hkeys' v' hv') (haccepted v hv) (haccepted' v' hv') h
    rw [← eq_textOf hs, ← eq_textOf ht, hsame]
  | hobj members ih =>
    rintro w hkeys ⟨s, hs⟩ ⟨t, ht⟩ ⟨kept, members', rfl, hmembers, hperm⟩
    obtain ⟨haccepted, rfl⟩ := serialize_obj.mp hs
    obtain ⟨haccepted', rfl⟩ := serialize_obj.mp ht
    obtain ⟨hnodup, hkeys'⟩ := wellKeyed_obj_iff.mp hkeys
    have hsame : members.map (fun m => (m.1, textOf m.2)) =
        kept.map fun m => (m.1, textOf m.2) := by
      rw [← forall₂_eq_eq_eq, forall₂_map_left_iff, forall₂_map_right_iff]
      refine (forall₂_mem (returnedMembers_iff.mp hmembers)).imp fun m m' ⟨h, hm, hm'⟩ => ?_
      have hmem := hperm.mem_iff.mp hm'
      rw [h.1, ih m hm m'.2 (hkeys' m' hmem) (haccepted m hm) (haccepted' m' hmem) h.2]
    have hsorted : sortMembers (members.map fun m => (m.1, textOf m.2)) =
        sortMembers (members'.map fun m => (m.1, textOf m.2)) := by
      rw [hsame]
      refine sortMembers_eq_of_perm (hperm.map _) ?_
      rw [map_map]
      exact (hperm.map Prod.fst).nodup_iff.mpr hnodup
    rw [sortMembers_map, sortMembers_map] at hsorted
    have htexts := congrArg (map fun m => memberText m.1 m.2) hsorted
    rw [map_map, map_map] at htexts
    rw [← eq_textOf hs, ← eq_textOf ht]
    exact congrArg (fun texts => '{' :: (commaSeparated texts ++ ['}'])) htexts

theorem textOf_eq_iff {v w : Value} (hkeys : wellKeyed w = true) (hv : Accepted v)
    (hw : Accepted w) : textOf v = textOf w ↔ Reordered v w := by
  refine ⟨fun heq => ?_, textOf_eq_of_reordered v w hkeys hv hw⟩
  obtain ⟨u, hu, hread⟩ := reads_serialize opaqueNumbers v hv
  obtain ⟨u', hu', hread'⟩ := reads_serialize opaqueNumbers w hw
  rw [← heq] at hread'
  obtain rfl : u' = u := Option.some.inj (hread'.parse_eq.symm.trans hread.parse_eq)
  exact returned_of_common rearranges_perm v u' w hu hu'

theorem canonicalJson_ok {v : Value} {s : String} (h : canonicalJson v = .ok s) :
    Accepted v ∧ s = String.ofList (textOf v) := by
  rw [canonicalJson] at h
  cases hv : serialize v with
  | error e =>
    rw [hv] at h
    cases h
  | ok text =>
    rw [hv] at h
    cases h
    exact ⟨⟨text, hv⟩, congrArg String.ofList (eq_textOf hv)⟩

/-- `JSON.parse` gives back an accepted value from its canonical text, and two of them have the
same text exactly if they are equal, each time up to the order of keys. -/
theorem canonicalJson_faithful (reader : NumberReader) {v w : Value} {s t : String}
    (hkeys : wellKeyed w = true) (hv : canonicalJson v = .ok s) (hw : canonicalJson w = .ok t) :
    (∃ u, parse reader s.toList = some u ∧ Reordered v u) ∧ (s = t ↔ Reordered v w) := by
  obtain ⟨haccepted, rfl⟩ := canonicalJson_ok hv
  obtain ⟨haccepted', rfl⟩ := canonicalJson_ok hw
  obtain ⟨u, hu, hread⟩ := reads_serialize reader v haccepted
  rw [String.toList_ofList, String.ofList_inj]
  exact ⟨⟨u, hread.parse_eq, hu⟩, textOf_eq_iff hkeys haccepted haccepted'⟩

theorem nested_value_is_faithful :
    (∃ u, parse opaqueNumbers "\x7b\"a\":[null,-1],\"b\":\"x\"\x7d".toList = some u ∧
      Reordered (.obj [("b", .str "x"), ("a", .arr [.null, .int (-1)])]) u) ∧
    ("\x7b\"a\":[null,-1],\"b\":\"x\"\x7d" = "\x7b\"a\":[null,-1],\"b\":\"x\"\x7d" ↔
      Reordered (.obj [("b", .str "x"), ("a", .arr [.null, .int (-1)])])
        (.obj [("a", .arr [.null, .int (-1)]), ("b", .str "x")])) :=
  canonicalJson_faithful opaqueNumbers (by decide) (by rfl) (by rfl)

end Trellis.Common
