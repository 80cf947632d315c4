import Mathlib.Data.List.Infix

/-!
# Walks over the pages of a sorted list

`next a` is what the query that continues after `a` returns. Each page is the first `size` rows of
a query, and the next query continues after the last row of the page.
-/

namespace Trellis.Core

open List Option Nat

variable {α : Type} {next : α → Option (List α)} {size : Nat} {s : List α}

/-- The pages from `found` on, until one is empty; `none` if a query fails or `fuel` queries do not
suffice. -/
def walk (next : α → Option (List α)) (size : Nat) : Nat → List α → Option (List α)
  | 0, _ => none
  | fuel + 1, found =>
    match (found.take size).getLast? with
    | none => some []
    | some last =>
      (next last).bind fun rest => (walk next size fuel rest).map (found.take size ++ ·)

theorem walk_succ_of_last {found : List α} {last : α}
    (hlast : (found.take size).getLast? = some last) (fuel : Nat) :
    walk next size (fuel + 1) found = (next last).bind fun rest =>
      (walk next size fuel rest).map (found.take size ++ ·) := by
  rw [walk, hlast]

/-- The row at `i` ends a page of a walk that visits every row of the list once. -/
def EndsPage (size : Nat) (s : List α) (i : Nat) : Prop :=
  (i + 1) % size = 0 ∨ i + 1 = s.length

theorem filter_suffix {R : α → α → Prop} {p : α → Bool} (hs : s.Pairwise R)
    (hp : ∀ a b, R a b → p a = true → p b = true) : s.filter p <:+ s := by
  induction s with
  | nil => exact suffix_rfl
  | cons a s ih =>
    obtain ⟨ha, hs⟩ := pairwise_cons.mp hs
    cases hpa : p a with
    | false =>
      rw [filter_cons_of_neg (by simp [hpa])]
      exact (ih hs).trans (suffix_cons a s)
    | true =>
      have hall : ∀ b ∈ a :: s, p b = true := by
        intro b hb
        rcases mem_cons.mp hb with rfl | hb
        · exact hpa
        · exact hp a b (ha b hb) hpa
      rw [filter_eq_self.mpr hall]

theorem filter_eq_drop {after : α → α → Bool} (hs : s.Pairwise fun a b => after a b = true)
    (hasymm : ∀ a b, after a b = true → after b a = false) {i : Nat}
    (hi : i < s.length) : s.filter (after s[i]) = s.drop (i + 1) := by
  induction s generalizing i with
  | nil => cases hi
  | cons a s ih =>
    obtain ⟨ha, hs⟩ := pairwise_cons.mp hs
    cases i with
    | zero =>
      rw [getElem_cons_zero, filter_cons_of_neg]
      · exact filter_eq_self.mpr ha
      · exact fun h => Bool.false_ne_true ((hasymm a a h).symm.trans h)
    | succ i =>
      have hi : i < s.length := lt_of_succ_lt_succ hi
      rw [getElem_cons_succ, filter_cons_of_neg]
      · exact ih hs hi
      · rw [hasymm a s[i] (ha _ (getElem_mem hi))]
        exact Bool.false_ne_true

theorem eq_of_suffix {a : α} {t u : List α} (hu : (a :: u).Nodup) (h : a :: t <:+ a :: u) :
    t = u := by
  obtain ⟨p, hp⟩ := h
  cases p with
  | nil => exact (cons.inj hp).2
  | cons b p =>
    have ha : a ∈ u := by
      rw [← (cons.inj hp).2]
      exact mem_append_right p mem_cons_self
    exact absurd ha (nodup_cons.mp hu).1

/-- A suffix from which the walk returns another suffix is that one: both start with one row. -/
theorem eq_of_walk (hsize : 0 < size) (hs : s.Nodup) {t u : List α} (ht : t <:+ s) (hu : u <:+ s)
    {fuel : Nat} (h : walk next size fuel t = some u) : t = u := by
  cases fuel with
  | zero => cases h
  | succ fuel =>
    cases t with
    | nil =>
      rw [walk, take_nil] at h
      exact some.inj h
    | cons a t =>
      obtain ⟨size, rfl⟩ := exists_eq_succ_of_ne_zero hsize.ne'
      rw [walk, take_succ_cons, getLast?_cons] at h
      obtain ⟨found, -, h⟩ := bind_eq_some_iff.mp h
      obtain ⟨rest, -, rfl⟩ := map_eq_some_iff.mp h
      rw [cons_append] at hu ⊢
      rcases suffix_or_suffix_of_suffix ht hu with hsub | hsub
      · exact congrArg (a :: ·) (eq_of_suffix (hs.sublist hu.sublist) hsub)
      · exact congrArg (a :: ·) (eq_of_suffix (hs.sublist ht.sublist) hsub).symm

theorem endsPage_cases {m e i : Nat} (hm : m % size = 0) (he : e + 1 = min (m + size) s.length)
    (hi : i < s.length) (hmi : m ≤ i) (h : EndsPage size s i) : i = e ∨ e + 1 ≤ i := by
  by_contra hno
  obtain ⟨q, rfl⟩ := dvd_of_mod_eq_zero hm
  obtain ⟨k, rfl⟩ := Nat.exists_eq_add_of_le hmi
  rcases h with hmod | hlast
  · rw [Nat.add_assoc, Nat.mul_add_mod, Nat.mod_eq_of_lt (by omega)] at hmod
    omega
  · omega

theorem walk_drop_iff (hsize : 0 < size) (hs : s.Nodup)
    (hnext : ∀ a ∈ s, ∀ t, next a = some t → t <:+ s) (m : Nat) (hm : m % size = 0 ∨ s.length ≤ m) :
    (∃ fuel, walk next size fuel (s.drop m) = some (s.drop m)) ↔
      ∀ i (h : i < s.length), m ≤ i → EndsPage size s i → next s[i] = some (s.drop (i + 1)) := by
  induction hk : s.length - m using Nat.strong_induction_on generalizing m with
  | _ k ih =>
    by_cases hlt : s.length ≤ m
    · rw [drop_eq_nil_of_le hlt]
      refine iff_of_true ⟨1, ?_⟩ fun i hi hmi => by omega
      rw [walk, take_nil]
      rfl
    have hm := hm.resolve_right hlt
    obtain ⟨e, he⟩ : ∃ e, e + 1 = min (m + size) s.length :=
      ⟨min (m + size) s.length - 1, by omega⟩
    have helt : e < s.length := by omega
    have hlast : ((s.drop m).take size).getLast? = some s[e] := by
      rw [getLast?_eq_getElem?, length_take, length_drop,
        getElem?_take_of_lt (by omega), getElem?_drop]
      have hpos : m + (min size (s.length - m) - 1) = e := by omega
      rw [hpos, getElem?_eq_getElem helt]
    have hsplit : (s.drop m).take size ++ s.drop (e + 1) = s.drop m := by
      have hdrop : s.drop (e + 1) = (s.drop m).drop size := by
        rw [drop_drop]
        rcases le_total (m + size) s.length with hle | hle
        · rw [he, min_eq_left hle]
        · rw [he, min_eq_right hle, drop_length, drop_eq_nil_of_le hle]
      rw [hdrop, take_append_drop]
    have hends : EndsPage size s e := by
      rcases le_total (m + size) s.length with hle | hle
      · refine .inl ?_
        rw [he, min_eq_left hle, add_mod_right, hm]
      · exact .inr (he.trans (min_eq_right hle))
    have hrest := ih (s.length - (e + 1)) (by omega) (e + 1) (hends.imp_right ge_of_eq) rfl
    constructor
    · rintro ⟨fuel, hwalk⟩
      cases fuel with
      | zero => cases hwalk
      | succ fuel =>
        rw [walk_succ_of_last hlast] at hwalk
        obtain ⟨t, ht, hwalk⟩ := bind_eq_some_iff.mp hwalk
        obtain ⟨u, hu, happend⟩ := map_eq_some_iff.mp hwalk
        have hsuffix := hnext _ (getElem_mem helt) t ht
        rw [append_cancel_left (happend.trans hsplit.symm)] at hu
        have heq := eq_of_walk hsize hs hsuffix (drop_suffix _ _) hu
        subst heq
        intro i hi hmi hpage
        rcases endsPage_cases hm he hi hmi hpage with rfl | hlater
        · exact ht
        · exact hrest.mp ⟨fuel, hu⟩ i hi hlater hpage
    · intro hall
      obtain ⟨fuel, hwalk⟩ := hrest.mpr fun i hi hlater => hall i hi (by omega)
      refine ⟨fuel + 1, ?_⟩
      rw [walk_succ_of_last hlast, hall e helt (by omega) hends, bind_some, hwalk]
      exact congrArg some hsplit

/-- A walk visits every row once, in order, if and only if each page end is followed by the rest. -/
theorem walk_eq_iff (hsize : 0 < size) (hs : s.Nodup)
    (hnext : ∀ a ∈ s, ∀ t, next a = some t → t <:+ s) : (∃ fuel, walk next size fuel s = some s) ↔
      ∀ i (h : i < s.length), EndsPage size s i → next s[i] = some (s.drop (i + 1)) := by
  have h := walk_drop_iff hsize hs hnext 0 (.inl (zero_mod _))
  simpa using h

end Trellis.Core
