import Trellis.Core.HashChain
import Trellis.Core.JsonParse

/-!
# Values that come back with their members in another order

A store may return an object with its members in an order of its own, at every depth. The text
stays the same exactly if the members are in the same order everywhere, because it is read as the
value.
-/

namespace Trellis.Core

open List

/-! ## The relation -/

mutual

/-- The second value is the first one after a store returned it; `order` relates the members
of an object with those in the order they are returned in.  A value that is no array and no
object comes back with the same text. -/
def Returned (order : List (String × Value) → List (String × Value) → Prop) : Value → Value → Prop
  | .arr items, v' => ∃ items', v' = .arr items' ∧ ReturnedItems order items items'
  | .obj members, v' => ∃ kept members', v' = .obj members' ∧
      ReturnedMembers order members kept ∧ order kept members'
  | v, v' => primitiveText v ≠ none ∧ primitiveText v' = primitiveText v

def ReturnedItems (order : List (String × Value) → List (String × Value) → Prop) :
    List Value → List Value → Prop
  | [], vs' => vs' = []
  | v :: vs, vs' => ∃ v' rest, vs' = v' :: rest ∧ Returned order v v' ∧ ReturnedItems order vs rest

/-- The members of an object, before they are put into another order. -/
def ReturnedMembers (order : List (String × Value) → List (String × Value) → Prop) :
    List (String × Value) → List (String × Value) → Prop
  | [], ms' => ms' = []
  | (key, v) :: ms, ms' => ∃ v' rest, ms' = (key, v') :: rest ∧ Returned order v v' ∧
      ReturnedMembers order ms rest

end

abbrev Reordered : Value → Value → Prop :=
  Returned List.Perm

abbrev SameOrder : Value → Value → Prop :=
  Returned Eq

variable {members members' : List (String × Value)}

section Lists

variable {order : List (String × Value) → List (String × Value) → Prop}

theorem returnedItems_iff {items items' : List Value} :
    ReturnedItems order items items' ↔ List.Forall₂ (Returned order) items items' := by
  induction items generalizing items' with
  | nil => simp [ReturnedItems]
  | cons v vs ih =>
    simp only [ReturnedItems, forall₂_cons_left_iff, ih]
    constructor
    · rintro ⟨v', rest, rfl, hv, hrest⟩
      exact ⟨v', rest, hv, hrest, rfl⟩
    · rintro ⟨v', rest, hv, hrest, rfl⟩
      exact ⟨v', rest, rfl, hv, hrest⟩

def ReturnedMember (order : List (String × Value) → List (String × Value) → Prop)
    (m m' : String × Value) : Prop :=
  m.1 = m'.1 ∧ Returned order m.2 m'.2

theorem returnedMembers_iff : ReturnedMembers order members members' ↔
    List.Forall₂ (ReturnedMember order) members members' := by
  induction members generalizing members' with
  | nil => simp [ReturnedMembers]
  | cons m ms ih =>
    obtain ⟨key, v⟩ := m
    simp only [ReturnedMembers, forall₂_cons_left_iff, ih]
    constructor
    · rintro ⟨v', rest, rfl, hv, hrest⟩
      exact ⟨(key, v'), rest, ⟨rfl, hv⟩, hrest, rfl⟩
    · rintro ⟨⟨key', v'⟩, rest, ⟨hkey, hv⟩, hrest, rfl⟩
      cases hkey
      exact ⟨v', rest, rfl, hv, hrest⟩

theorem returned_primitive_iff {v v' : Value} {text : List Char}
    (h : primitiveText v = some text) : Returned order v v' ↔ primitiveText v' = some text := by
  cases v with
  | undefined | arr _ | obj _ => cases h
  | _ => simp [Returned, h]

end Lists

theorem sameOrder_obj_iff : SameOrder (.obj members) (.obj members') ↔
    List.Forall₂ (ReturnedMember Eq) members members' := by
  simp only [Returned, Value.obj.injEq]
  constructor
  · rintro ⟨kept, members', rfl, hkept, rfl⟩
    exact returnedMembers_iff.mp hkept
  · intro h
    exact ⟨members', members', rfl, returnedMembers_iff.mpr h, rfl⟩

/-! ## Related lists -/

theorem exists_forall₂ {α β : Type} {R : α → β → Prop} {as : List α}
    (h : ∀ a ∈ as, ∃ b, R a b) : ∃ bs, List.Forall₂ R as bs := by
  induction as with
  | nil => exact ⟨[], .nil⟩
  | cons a as ih =>
    obtain ⟨b, hb⟩ := h a mem_cons_self
    obtain ⟨bs, hbs⟩ := ih fun a ha => h a (mem_cons_of_mem _ ha)
    exact ⟨b :: bs, .cons hb hbs⟩

theorem forall₂_mem {α β : Type} {R : α → β → Prop} {as : List α} {bs : List β}
    (h : List.Forall₂ R as bs) : List.Forall₂ (fun a b => R a b ∧ a ∈ as ∧ b ∈ bs) as bs :=
  forall₂_iff_zip.mpr
    ⟨h.length_eq, fun hab => ⟨(forall₂_iff_zip.mp h).2 hab, of_mem_zip hab⟩⟩

theorem forall_mem_of_forall₂ {α β : Type} {P : α → Prop} {Q : β → Prop} {as : List α} {bs : List β}
    (h : List.Forall₂ (fun a b => P a ∧ Q b) as bs) : (∀ a ∈ as, P a) ∧ ∀ b ∈ bs, Q b := by
  induction h with
  | nil => simp
  | cons hfirst _ ih =>
    exact ⟨forall_mem_cons.mpr ⟨hfirst.1, ih.1⟩, forall_mem_cons.mpr ⟨hfirst.2, ih.2⟩⟩

theorem forall₂_of_common {α β γ : Type} {R : α → γ → Prop} {S : β → γ → Prop} {T : α → β → Prop}
    {as : List α} {bs : List β} {cs : List γ} (has : List.Forall₂ R as cs)
    (hbs : List.Forall₂ S bs cs) (h : ∀ a ∈ as, ∀ b c, R a c → S b c → T a b) :
    List.Forall₂ T as bs := by
  induction has generalizing bs with
  | nil =>
    cases hbs
    exact .nil
  | cons hfirst _ ih =>
    cases hbs with
    | cons hfirst' hrest' =>
      exact .cons (h _ mem_cons_self _ _ hfirst hfirst')
        (ih hrest' fun a ha => h a (mem_cons_of_mem _ ha))

/-- What is returned in one order can be returned in the other. -/
def Rearranges (order : List (String × Value) → List (String × Value) → Prop) : Prop :=
  ∀ {R : String × Value → String × Value → Prop} {kept members kept' members' : List _},
    order kept members → order kept' members → List.Forall₂ R members' kept' →
      ∃ kept'', List.Forall₂ R kept'' kept ∧ order kept'' members'

theorem rearranges_eq : Rearranges Eq := by
  rintro R kept members kept' members' rfl rfl h
  exact ⟨members', h, rfl⟩

theorem rearranges_perm : Rearranges List.Perm := by
  intro R kept members kept' members' hkept hkept' h
  obtain ⟨kept'', hrelated, hperm⟩ :=
    perm_comp_forall₂ (hkept.trans hkept'.symm) (List.Forall₂.flip h)
  exact ⟨kept'', List.Forall₂.flip hrelated, hperm⟩

theorem returned_of_common {order : List (String × Value) → List (String × Value) → Prop}
    (horder : Rearranges order) (v : Value) :
    ∀ u w, Returned order v u → Returned order w u → Returned order v w := by
  induction v using Value.inductText with
  | hundefined => exact fun u w h _ => absurd rfl h.1
  | hprimitive v text htext =>
    intro u w hv hw
    rw [returned_primitive_iff htext] at hv ⊢
    cases w with
    | arr items =>
      obtain ⟨us, rfl, -⟩ := hw
      cases hv
    | obj members =>
      obtain ⟨kept, us, rfl, -⟩ := hw
      cases hv
    | _ => rw [← hw.2, hv]
  | harr items ih =>
    rintro u w ⟨us, rfl, hus⟩ hw
    cases w with
    | arr items' =>
      obtain ⟨us', heq, hus'⟩ := hw
      cases heq
      rw [returnedItems_iff] at hus hus'
      exact ⟨items', rfl, returnedItems_iff.mpr
        (forall₂_of_common hus hus' fun v hv w u => ih v hv u w)⟩
    | obj members =>
      obtain ⟨kept, members', heq, -⟩ := hw
      cases heq
    | _ => exact absurd hw.2.symm hw.1
  | hobj members ih =>
    rintro u w ⟨kept, us, rfl, hus, hkept⟩ hw
    cases w with
    | obj members' =>
      obtain ⟨kept', us', heq, hus', hkept'⟩ := hw
      cases heq
      rw [returnedMembers_iff] at hus hus'
      obtain ⟨kept'', hrelated, hperm⟩ := horder hkept hkept' hus'
      exact ⟨kept'', members', rfl, returnedMembers_iff.mpr (forall₂_of_common hus hrelated
        fun m hm m' k h h' => ⟨h.1.trans h'.1.symm, ih m hm _ _ h.2 h'.2⟩), hperm⟩
    | arr items =>
      obtain ⟨items', heq, -⟩ := hw
      cases heq
    | _ => exact absurd hw.2.symm hw.1

/-! ## Texts -/

theorem stringifyChars_of_primitive {v : Value} {text : List Char}
    (h : primitiveText v = some text) : stringifyChars v = some text := by
  rw [← h]
  cases v <;> first | rfl | cases h

theorem itemChars_eq_map (items : List Value) :
    itemChars items = items.map fun v => (stringifyChars v).getD "null".toList := by
  induction items with
  | nil => rfl
  | cons v vs ih => rw [itemChars, ih, map_cons]

theorem memberChars_eq_filterMap (members : List (String × Value)) : memberChars members =
    members.filterMap fun m => (stringifyChars m.2).map (memberText m.1) := by
  induction members with
  | nil => rfl
  | cons m ms ih =>
    obtain ⟨key, v⟩ := m
    cases htext : stringifyChars v <;> simp [memberChars, htext, ih]

theorem reads_text (reader : NumberReader) (v : Value) : isDefined v = true →
    ∃ u s, stringifyChars v = some s ∧ SameOrder v u ∧ Reads reader s (some u) := by
  induction v using Value.inductText with
  | hundefined => exact nofun
  | hprimitive v text htext =>
    intro _
    obtain ⟨u, hu, hread⟩ := reads_primitive htext
    exact ⟨u, text, stringifyChars_of_primitive htext, (returned_primitive_iff htext).mpr hu, hread⟩
  | harr items ih =>
    intro hdefined
    obtain ⟨us, hus⟩ := exists_forall₂ fun v hv => ih v hv (definedItems_iff.mp hdefined v hv)
    refine ⟨.arr us, _, rfl, ⟨us, rfl, returnedItems_iff.mpr ?_⟩, reads_items ?_⟩
    · exact hus.imp fun v u ⟨s, hs, hsame, hread⟩ => hsame
    · rw [itemChars_eq_map, forall₂_map_left_iff]
      refine hus.imp fun v u ⟨s, hs, hsame, hread⟩ => ?_
      rw [hs]
      exact hread
  | hobj members ih =>
    intro hdefined
    obtain ⟨us, hus⟩ := exists_forall₂ (R := fun m u => m.1 = u.1 ∧ ∃ s,
      stringifyChars m.2 = some s ∧ SameOrder m.2 u.2 ∧ Reads reader s (some u.2)) fun m hm =>
        let ⟨u, hu⟩ := ih m hm (definedMembers_iff.mp hdefined m hm)
        ⟨(m.1, u), rfl, hu⟩
    refine ⟨.obj us, _, rfl, sameOrder_obj_iff.mpr ?_, reads_members ?_⟩
    · exact hus.imp fun m u ⟨hkey, s, hs, hsame, hread⟩ => ⟨hkey, hsame⟩
    · rw [memberChars_eq_filterMap]
      clear ih hdefined
      induction hus with
      | nil => exact .nil
      | @cons m u ms us hm _ ihs =>
        obtain ⟨hkey, s, hs, -, hread⟩ := hm
        simp only [filterMap_cons, hs, Option.map_some]
        exact .cons ⟨m.1, s, some u.2, rfl, by simp [hkey], hread⟩ ihs

/-- Values without `undefined` have one text only in the same order. -/
theorem sameOrder_of_stringify {v v' : Value} (h : isDefined v = true) (h' : isDefined v' = true)
    (heq : stringifyChars v' = stringifyChars v) : SameOrder v v' := by
  obtain ⟨u, s, hs, hsame, hread⟩ := reads_text opaqueNumbers v h
  obtain ⟨u', s', hs', hsame', hread'⟩ := reads_text opaqueNumbers v' h'
  obtain rfl : s' = s := Option.some.inj (hs'.symm.trans (heq.trans hs))
  obtain rfl : u' = u := Option.some.inj (hread'.parse_eq.symm.trans hread.parse_eq)
  exact returned_of_common rearranges_eq v u' v' hsame hsame'

theorem stringifyChars_of_sameOrder (v : Value) :
    ∀ v', SameOrder v v' → stringifyChars v' = stringifyChars v := by
  induction v using Value.inductText with
  | hundefined => exact fun v' h => absurd rfl h.1
  | hprimitive v text htext =>
    intro v' h
    rw [stringifyChars_of_primitive htext,
      stringifyChars_of_primitive ((returned_primitive_iff htext).mp h)]
  | harr items ih =>
    rintro v' ⟨items', rfl, hitems⟩
    have hsame : itemChars items' = itemChars items := by
      have hforall := (forall₂_and_left _ _).mpr ⟨ih, returnedItems_iff.mp hitems⟩
      rw [itemChars_eq_map, itemChars_eq_map, ← forall₂_eq_eq_eq, forall₂_map_left_iff,
        forall₂_map_right_iff]
      refine List.Forall₂.flip (hforall.imp fun v v' h => ?_)
      simp only [flip, h.1 v' h.2]
    rw [stringifyChars, stringifyChars, hsame]
  | hobj members ih =>
    rintro v' ⟨kept, members', rfl, hmembers, rfl⟩
    have hforall := (forall₂_and_left _ _).mpr ⟨ih, returnedMembers_iff.mp hmembers⟩
    have hsame : memberChars kept = memberChars members := by
      rw [memberChars_eq_filterMap, memberChars_eq_filterMap]
      clear ih hmembers
      induction hforall with
      | nil => rfl
      | cons hm _ ihMembers =>
        rw [filterMap_cons, filterMap_cons, ihMembers, hm.2.1, hm.1 _ hm.2.2]
    rw [stringifyChars, stringifyChars, hsame]

theorem isDefined_of_reordered (v : Value) :
    ∀ v', Reordered v v' → isDefined v = true ∧ isDefined v' = true := by
  have htexts : ∀ {v : Value} {text : List Char}, primitiveText v = some text →
      isDefined v = true := by
    intro v text h
    cases v <;> first | rfl | cases h
  induction v using Value.inductText with
  | hundefined => exact fun v' h => absurd rfl h.1
  | hprimitive v text htext =>
    exact fun v' h => ⟨htexts htext, htexts ((returned_primitive_iff htext).mp h)⟩
  | harr items ih =>
    rintro v' ⟨items', rfl, hitems⟩
    simp only [isDefined, definedItems_iff]
    exact forall_mem_of_forall₂ (((forall₂_and_left _ _).mpr ⟨ih, returnedItems_iff.mp hitems⟩).imp
      fun v v' h => h.1 v' h.2)
  | hobj members ih =>
    rintro v' ⟨kept, members', rfl, hmembers, hperm⟩
    simp only [isDefined, definedMembers_iff, ← hperm.mem_iff]
    exact forall_mem_of_forall₂ (((forall₂_and_left _ _).mpr
      ⟨ih, returnedMembers_iff.mp hmembers⟩).imp fun m m' h => h.1 m'.2 h.2.2)

/-- A returned value has the same text exactly if its members are in the same order. -/
theorem stringify_eq_iff_sameOrder {v v' : Value} (h : Reordered v v') :
    stringifyChars v' = stringifyChars v ↔ SameOrder v v' := by
  obtain ⟨hdefined, hdefined'⟩ := isDefined_of_reordered v v' h
  exact ⟨sameOrder_of_stringify hdefined hdefined', stringifyChars_of_sameOrder v v'⟩

/-! ## The order of keys -/

theorem unitsLe_iff {as bs : List Nat} : unitsLe as bs = true ↔ @LE.le _ List.instLE as bs := by
  induction as generalizing bs with
  | nil => simp [unitsLe]
  | cons a as ih => cases bs <;> simp [unitsLe, ih, cons_le_cons_iff]

instance {α : Type} : Std.Total (KeyLe (α := α)) where
  total m m' := by simpa only [KeyLe, unitsLe_iff] using List.le_total _ _

instance {α : Type} : IsTrans (String × α) KeyLe where
  trans m m' m'' h h' := by
    simp only [KeyLe, unitsLe_iff] at h h' ⊢
    exact List.le_trans h h'

/-- The first code unit of a character tells where its code units end. -/
theorem codeUnits_injective : Function.Injective fun cs : List Char => cs.flatMap codeUnits := by
  refine flatMap_injective (fun c => by unfold codeUnits; split <;> simp) fun {c c' s t} h => ?_
  have hc : c.toNat < 0xd800 ∨ 0xdfff < c.toNat ∧ c.toNat < 0x110000 := c.valid
  have hc' : c'.toNat < 0xd800 ∨ 0xdfff < c'.toNat ∧ c'.toNat < 0x110000 := c'.valid
  unfold codeUnits at h
  rw [← Char.toNat_inj]
  split at h <;> split at h <;> simp only [cons_append, nil_append, cons.injEq] at h
  · exact h
  · omega
  · omega
  · exact ⟨by omega, h.2.2⟩

theorem key_eq_of_keyLe {α : Type} {m m' : String × α} (h : KeyLe m m') (h' : KeyLe m' m) :
    m.1 = m'.1 := by
  rw [KeyLe, unitsLe_iff] at h h'
  exact String.toList_inj.mp (codeUnits_injective (List.le_antisymm h h'))

/-- Members with distinct keys have one order. -/
theorem sortMembers_eq_of_perm {α : Type} {members members' : List (String × α)}
    (hperm : members.Perm members') (hnodup : (members.map Prod.fst).Nodup) :
    sortMembers members = sortMembers members' := by
  refine Perm.eq_of_pairwise (fun m m' hm hm' h h' => ?_) (pairwise_insertionSort KeyLe members)
    (pairwise_insertionSort KeyLe members')
    ((perm_insertionSort _ _).trans (hperm.trans (perm_insertionSort _ _).symm))
  exact inj_on_of_nodup_map hnodup (mem_sortMembers.mp hm)
    (hperm.mem_iff.mpr (mem_sortMembers.mp hm')) (key_eq_of_keyLe h h')

end Trellis.Core
