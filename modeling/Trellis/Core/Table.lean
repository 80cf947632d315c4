import Mathlib.Tactic.Positivity

/-!
# Keyed tables

A table is the list of its rows in the order they were inserted; a key column
identifies each row.
-/

namespace Trellis.Core

open List

section Table

variable {α κ : Type} [DecidableEq κ] {key : α → κ}

/-- Replace the row with the key of `row`, or append it. -/
def upsert (key : α → κ) (row : α) : List α → List α
  | [] => [row]
  | r :: rs => if key r = key row then row :: rs else r :: upsert key row rs

variable {rows : List α}

theorem map_key_upsert_of_mem {row : α} (h : key row ∈ rows.map key) :
    (upsert key row rows).map key = rows.map key := by
  induction rows with
  | nil => simp at h
  | cons r rs ih =>
    by_cases hr : key r = key row
    · simp [upsert, hr]
    · have hrs : key row ∈ rs.map key := by
        rcases mem_cons.mp (map_cons ▸ h) with heq | hmem
        · exact absurd heq.symm hr
        · exact hmem
      simp [upsert, hr, ih hrs]

theorem upsert_of_not_mem {row : α} (h : key row ∉ rows.map key) :
    upsert key row rows = rows ++ [row] := by
  induction rows with
  | nil => rfl
  | cons r rs ih =>
    simp only [map_cons, mem_cons, not_or] at h
    have hr : key r ≠ key row := fun heq => h.1 heq.symm
    simp [upsert, hr, ih h.2]

/-- In a table with distinct keys only the row with the key is replaced. -/
theorem upsert_of_mem {row : α} (hnodup : (rows.map key).Nodup) (h : key row ∈ rows.map key) :
    upsert key row rows = rows.map fun r => if key r = key row then row else r := by
  induction rows with
  | nil => cases h
  | cons r rs ih =>
    rw [map_cons, nodup_cons] at hnodup
    by_cases hr : key r = key row
    · have hrest : rs.map (fun r => if key r = key row then row else r) = rs := by
        refine (map_congr_left fun r' hr' => if_neg fun hkey => ?_).trans (map_id rs)
        exact hnodup.1 (hr.trans hkey.symm ▸ mem_map_of_mem hr')
      simp [upsert, hr, hrest]
    · have hrs := (mem_cons.mp h).resolve_left (Ne.symm hr)
      simp [upsert, hr, ih hnodup.2 hrs]

theorem mem_upsert {row r : α} (hnodup : (rows.map key).Nodup)
    (h : r ∈ upsert key row rows) : r = row ∨ (r ∈ rows ∧ key r ≠ key row) := by
  by_cases hmem : key row ∈ rows.map key
  · rw [upsert_of_mem hnodup hmem] at h
    obtain ⟨r', hr', rfl⟩ := mem_map.mp h
    split
    · exact Or.inl rfl
    · exact Or.inr ⟨hr', ‹_›⟩
  · rw [upsert_of_not_mem hmem] at h
    rcases mem_append.mp h with hold | hnew
    · exact Or.inr ⟨hold, fun hkey => hmem (hkey ▸ mem_map_of_mem hold)⟩
    · exact Or.inl (mem_singleton.mp hnew)

theorem nodup_upsert {row : α} (h : (rows.map key).Nodup) :
    ((upsert key row rows).map key).Nodup := by
  by_cases hmem : key row ∈ rows.map key
  · rw [map_key_upsert_of_mem hmem]
    exact h
  · rw [upsert_of_not_mem hmem, map_append]
    exact List.Nodup.append h (nodup_singleton _) (disjoint_singleton.mpr hmem)

theorem not_mem_of_find?_eq_none {k : κ} (h : rows.find? (key · = k) = none) :
    k ∉ rows.map key := by
  intro hmem
  obtain ⟨r, hr, hkey⟩ := mem_map.mp hmem
  simpa [hkey] using find?_eq_none.mp h r hr

theorem mem_upsert_self (row : α) (rows : List α) : row ∈ upsert key row rows := by
  induction rows with
  | nil => exact mem_singleton_self row
  | cons r rs ih =>
    by_cases hr : key r = key row
    · simp [upsert, hr]
    · simp [upsert, hr, ih]

theorem mem_upsert_of_ne {row r : α} (hmem : r ∈ rows)
    (hne : key r ≠ key row) : r ∈ upsert key row rows := by
  induction rows with
  | nil => cases hmem
  | cons r₀ rs ih =>
    by_cases hr : key r₀ = key row
    · rcases mem_cons.mp hmem with heq | hrs
      · exact absurd (heq ▸ hr) hne
      · simp [upsert, hr, hrs]
    · rcases mem_cons.mp hmem with heq | hrs
      · simp [upsert, hr, heq]
      · simp [upsert, hr, ih hrs]

omit [DecidableEq κ] in
/-- In a table with distinct keys, two weights that agree off one row differ in sum
by what they differ in on that row. -/
theorem sum_map_eq_off {row : α} (hnodup : (rows.map key).Nodup)
    (hrow : row ∈ rows) (f g : α → Nat) (hoff : ∀ r ∈ rows, key r ≠ key row → f r = g r) :
    (rows.map f).sum + g row = (rows.map g).sum + f row := by
  induction rows with
  | nil => cases hrow
  | cons r rs ih =>
    rw [map_cons, nodup_cons] at hnodup
    simp only [map_cons, sum_cons]
    rcases mem_cons.mp hrow with heq | hmem
    · subst heq
      have hrest : rs.map f = rs.map g := by
        refine map_congr_left fun r' hr' => hoff r' (mem_cons_of_mem _ hr') ?_
        intro hkey
        exact hnodup.1 (hkey ▸ mem_map_of_mem hr')
      rw [hrest]
      omega
    · have hne : key r ≠ key row := by
        intro hkey
        exact hnodup.1 (hkey ▸ mem_map_of_mem hmem)
      have hr : f r = g r := hoff r mem_cons_self hne
      have hrest := ih hnodup.2 hmem fun r' hr' => hoff r' (mem_cons_of_mem _ hr')
      omega

section Replaced

variable {row old : α} (hold : old ∈ rows) (hkey : key row = key old)
  (hnodup : (rows.map key).Nodup)

include hold hkey hnodup

theorem map_upsert {β : Type} (f : α → β) (hf : f row = f old) :
    (upsert key row rows).map f = rows.map f := by
  rw [upsert_of_mem hnodup (hkey ▸ mem_map_of_mem hold), map_map]
  refine map_congr_left fun r hr => ?_
  by_cases hr' : key r = key row
  · obtain rfl := inj_on_of_nodup_map hnodup hr hold (hr'.trans hkey)
    simp [hr', hf]
  · simp [hr']

/-- A search that cannot tell the new row from the old one finds the row in the same place. -/
theorem find?_upsert (p : α → Bool) (hp : p row = p old) :
    (upsert key row rows).find? p =
      (rows.find? p).map fun r => if key r = key row then row else r := by
  have hmap := map_upsert hold hkey hnodup p hp
  rw [upsert_of_mem hnodup (hkey ▸ mem_map_of_mem hold)] at hmap ⊢
  rw [map_map] at hmap
  rw [find?_map, ← head?_filter, ← head?_filter, filter_congr (map_inj_left.mp hmap)]

end Replaced

end Table

/-! ## Partial keys -/

section PartialKey

variable {α β : Type} {f : α → Option β} {l : List α}

theorem count_eq_one_of_nodup_filterMap [DecidableEq α] {a : α} {b : β}
    (hnodup : (l.filterMap f).Nodup) (ha : a ∈ l) (hb : f a = some b) : l.count a = 1 := by
  have hone : ¬ 2 ≤ l.count a := by
    intro htwo
    have hpair := (replicate_sublist_iff.mpr htwo).filterMap f
    exact nodup_iff_sublist.mp hnodup b (by simpa [hb] using hpair)
  have hpos := count_pos_iff.mpr ha
  omega

/-- Two elements with the same image are the same if no image occurs twice. -/
theorem eq_of_nodup_filterMap {a a' : α} {b : β} (hnodup : (l.filterMap f).Nodup) (ha : a ∈ l)
    (ha' : a' ∈ l) (hb : f a = some b) (hb' : f a' = some b) : a = a' := by
  by_contra hne
  have : Std.Symm fun a a' => ∀ b, f a = some b → ∀ b', f a' = some b' → b ≠ b' :=
    ⟨fun _ _ h b hb b' hb' => (h b' hb' b hb).symm⟩
  exact (pairwise_filterMap.mp hnodup).forall ha ha' hne b hb b hb' rfl

theorem map_filterMap_sublist {γ : Type} {g : β → γ} {k : α → Option γ}
    (h : ∀ a b, f a = some b → k a = some (g b)) (l : List α) :
    (l.filterMap f).map g <+ l.filterMap k := by
  induction l with
  | nil => exact .slnil
  | cons a l ih =>
    cases hf : f a with
    | none =>
      rw [filterMap_cons_none hf]
      exact ih.trans ((sublist_cons_self a l).filterMap k)
    | some b =>
      rw [filterMap_cons_some hf, filterMap_cons_some (h a b hf)]
      exact ih.cons_cons _

end PartialKey

end Trellis.Core
