import Trellis.Core.Share
import Trellis.Oracle.Nonce

/-!
# What a transaction holds

The row counts the increments that were committed. A transaction that has locked or inserted the
row is the only one that can change it until it ends, so the nonce that it has read is the one
that it increments.
-/

namespace Trellis.Oracle

open Core List

variable {ι π : Type}

/-! ## The invariant -/

/-- The committed increments are those of consecutive nonces from the first one on, and the row is
their end; a lock is on a row, and an insertion that is not committed is the first of all. -/
structure NonceInv (init : Option Int) (w : NonceWorld ι π) : Prop where
  consecutive : w.taken.map (·.2) = (List.range w.taken.length).map fun k : Nat => init.getD 0 + k
  stored : ∀ nonce, w.row = some nonce → nonce = init.getD 0 + w.taken.length
  absent : w.row = none → init = none ∧ w.taken = []
  held : ∀ i, w.holder = some i → w.row ≠ none
  inserted : ∀ i, w.inserter = some i → w.row = none
  drafted : ∀ i nonce, w.drafts i = some nonce →
    (w.holder = some i ∧ w.row = some (nonce - 1)) ∨ (w.inserter = some i ∧ nonce = 1)

/-- The nonces that were handed out were committed, and where the caches are `fresh` none of them is
cached, nor a later one. -/
structure CacheInv (fresh : Prop) (w : NonceWorld ι π) : Prop where
  committed : ∀ nonce ∈ w.resolved, nonce ∈ w.taken.map (·.2)
  cached : fresh → ∀ p entry, w.caches p = some entry → ∀ nonce ∈ w.resolved, nonce < entry.1

def freshFills (fresh : Prop) (process : ι → π) [DecidableEq ι] [DecidableEq π] :
    Guard (nonceSemantics process) :=
  fun _ op _ w => match op with
    | .fill nonce => fresh → w.row = some nonce
    | _ => True

/-! ## The row -/

variable {init : Option Int} {i j : ι} {w : NonceWorld ι π}

variable (h : NonceInv init w)
include h

theorem NonceInv.congr {w' : NonceWorld ι π} (hrow : w'.row = w.row)
    (hholder : w'.holder = w.holder) (hinserter : w'.inserter = w.inserter)
    (hdrafts : w'.drafts = w.drafts) (htaken : w'.taken = w.taken) : NonceInv init w' where
  consecutive := htaken ▸ h.consecutive
  stored := hrow ▸ htaken ▸ h.stored
  absent := hrow ▸ htaken ▸ h.absent
  held := hholder ▸ hrow ▸ h.held
  inserted := hinserter ▸ hrow ▸ h.inserted
  drafted := hdrafts ▸ hholder ▸ hinserter ▸ hrow ▸ h.drafted

theorem NonceInv.lock (hrow : w.row ≠ none)
    (hfree : w.holder = none ∨ w.holder = some i) : NonceInv init { w with holder := some i } :=
  { h with
    held _ _ := hrow
    drafted j nonce hdraft := by
      rcases h.drafted j nonce hdraft with ⟨hholder, hstored⟩ | hinserter
      · rcases hfree with hnone | hsome
        · rw [hnone] at hholder
          cases hholder
        · rw [hsome] at hholder
          exact Or.inl ⟨hholder, hstored⟩
      · exact Or.inr hinserter }

theorem NonceInv.create (hrow : w.row = none) (hfree : w.inserter = none) :
    NonceInv init { w with row := some 0 } where
  consecutive := h.consecutive
  stored nonce hnonce := by
    obtain ⟨rfl, htaken⟩ := h.absent hrow
    cases hnonce
    simp [htaken]
  absent := by simp
  held _ _ := by simp
  inserted j hj := by
    rw [hfree] at hj
    cases hj
  drafted j nonce hdraft := by
    rcases h.drafted j nonce hdraft with ⟨-, hstored⟩ | ⟨hinserter, -⟩
    · rw [hrow] at hstored
      cases hstored
    · rw [hfree] at hinserter
      cases hinserter

variable {nonce : Int}

theorem NonceInv.alone (hdraft : w.drafts i = some nonce)
    (hj : j ≠ i) : w.holder ≠ some j ∧ w.inserter ≠ some j ∧ w.drafts j = none := by
  have hholder : w.holder ≠ some j := by
    intro hother
    rcases h.drafted i nonce hdraft with ⟨hheld, -⟩ | ⟨hinserter, -⟩
    · rw [hheld] at hother
      exact hj (Option.some.inj hother).symm
    · exact h.held j hother (h.inserted i hinserter)
  have hinserter : w.inserter ≠ some j := by
    intro hother
    rcases h.drafted i nonce hdraft with ⟨hheld, -⟩ | ⟨hinserter, -⟩
    · exact h.held i hheld (h.inserted j hother)
    · rw [hinserter] at hother
      exact hj (Option.some.inj hother).symm
  refine ⟨hholder, hinserter, Option.eq_none_iff_forall_ne_some.mpr fun nonce' hdraft' => ?_⟩
  rcases h.drafted j nonce' hdraft' with ⟨hheld, -⟩ | ⟨hinserted, -⟩
  · exact hholder hheld
  · exact hinserter hinserted

theorem NonceInv.next (hdraft : w.drafts i = some nonce) :
    nonce - 1 = init.getD 0 + w.taken.length := by
  rcases h.drafted i nonce hdraft with ⟨-, hrow⟩ | ⟨hinserter, rfl⟩
  · exact h.stored _ hrow
  · obtain ⟨rfl, htaken⟩ := h.absent (h.inserted i hinserter)
    simp [htaken]

omit h in
theorem lt_row {fresh : Prop} (hinv : NonceInv init w ∧ CacheInv fresh w)
    (hnonce : nonce ∈ w.resolved) : ∃ stored, w.row = some stored ∧ nonce < stored := by
  have hmem := hinv.2.committed nonce hnonce
  rw [hinv.1.consecutive] at hmem
  obtain ⟨k, hk, rfl⟩ := mem_map.mp hmem
  rw [mem_range] at hk
  cases hrow : w.row with
  | none =>
    rw [(hinv.1.absent hrow).2] at hk
    cases hk
  | some stored =>
    refine ⟨stored, rfl, ?_⟩
    rw [hinv.1.stored stored hrow]
    omega

/-! ## Shares -/

/-- What a caller holds: the lock with the row, an insertion, what its transaction has written,
and the nonces that it has taken. -/
structure NonceShare where
  holds : Bool
  inserts : Bool
  row : Option Int
  draft : Option Int
  taken : List Int

def nonceShare [DecidableEq ι] (i : ι) (w : NonceWorld ι π) : NonceShare where
  holds := w.holder = some i
  inserts := w.inserter = some i
  row := if w.holder = some i then w.row else none
  draft := w.drafts i
  taken := (w.taken.filter (·.1 = i)).map (·.2)

def Resolves (w w' : NonceWorld ι π) : Prop :=
  ∀ nonce ∈ w.resolved, nonce ∈ w'.resolved

abbrev nonceContract [DecidableEq ι] (init : Option Int) (fresh : Prop) (i : ι) :
    Contract (NonceWorld ι π) :=
  shareContract (fun w => NonceInv init w ∧ CacheInv fresh w) nonceShare Resolves i

variable [DecidableEq ι]

omit h in
theorem nonce_compatible [DecidableEq π] (process : ι → π) (init : Option Int) (fresh : Prop) :
    Pool.Compatible (nonceSemantics process) (nonceContract init fresh)
      (fun w => NonceInv init w ∧ CacheInv fresh w) :=
  shareContract_compatible (fun e => e.elim) fun e => e.elim

/-! ## Writing -/

theorem NonceInv.update (hholder : w.holder = some i) (hrow : w.row = some nonce) :
    NonceInv init { w with drafts := Function.update w.drafts i (some (nonce + 1)) } :=
  { h with
    drafted j nonce' hdraft := by
      by_cases hj : j = i
      · subst hj
        have heq : nonce + 1 = nonce' := by simpa using hdraft
        refine Or.inl ⟨hholder, ?_⟩
        rw [hrow]
        congr 1
        omega
      · exact h.drafted j nonce' (by simpa [hj] using hdraft) }

theorem NonceInv.insert (hrow : w.row = none) (hfree : w.inserter = none) : NonceInv init
      { w with inserter := some i, drafts := Function.update w.drafts i (some 1) } :=
  { h with
    inserted _ _ := hrow
    drafted j nonce hdraft := by
      by_cases hj : j = i
      · subst hj
        have heq : 1 = nonce := by simpa using hdraft
        exact Or.inr ⟨rfl, heq.symm⟩
      · rcases h.drafted j nonce (by simpa [hj] using hdraft) with hheld | ⟨hinserter, -⟩
        · exact Or.inl hheld
        · rw [hfree] at hinserter
          cases hinserter }

/-! ## The end of a transaction -/

omit h in
theorem release_holder_ne : (w.release i).holder ≠ some i := by
  change (if w.holder = some i then none else w.holder) ≠ some i
  split_ifs with h
  · simp
  · exact h

omit h in
theorem release_inserter_ne : (w.release i).inserter ≠ some i := by
  change (if w.inserter = some i then none else w.inserter) ≠ some i
  split_ifs with h
  · simp
  · exact h

omit h in
theorem release_holder_iff (hj : j ≠ i) : (w.release i).holder = some j ↔ w.holder = some j := by
  change (if w.holder = some i then none else w.holder) = some j ↔ _
  split_ifs with h
  · simp [h, hj.symm]
  · rfl

omit h in
theorem release_inserter_iff (hj : j ≠ i) :
    (w.release i).inserter = some j ↔ w.inserter = some j := by
  change (if w.inserter = some i then none else w.inserter) = some j ↔ _
  split_ifs with h
  · simp [h, hj.symm]
  · rfl

theorem NonceInv.release : NonceInv init (w.release i) :=
  { h with
    held j hj := by
      have hne : j ≠ i := fun heq => release_holder_ne (heq ▸ hj)
      exact h.held j ((release_holder_iff hne).mp hj)
    inserted j hj := by
      have hne : j ≠ i := fun heq => release_inserter_ne (heq ▸ hj)
      exact h.inserted j ((release_inserter_iff hne).mp hj)
    drafted j nonce hdraft := by
      by_cases hj : j = i
      · subst hj
        simp [NonceWorld.release] at hdraft
      · have hdraft' : w.drafts j = some nonce := by simpa [NonceWorld.release, hj] using hdraft
        rw [release_holder_iff hj, release_inserter_iff hj]
        exact h.drafted j nonce hdraft' }

omit h in
theorem share_release (hj : j ≠ i) : nonceShare j (w.release i) = nonceShare j w := by
  have hholder := release_holder_iff (w := w) hj
  have hinserter := release_inserter_iff (w := w) hj
  unfold nonceShare
  simp only [hholder, hinserter]
  simp [NonceWorld.release, hj]

theorem NonceInv.commit (hdraft : w.drafts i = some nonce) : NonceInv init { w.release i with
      row := some nonce, taken := w.taken ++ [(i, nonce - 1)] } where
  consecutive := by
    rw [map_append, h.consecutive, length_append, length_singleton,
      range_succ, map_append, h.next hdraft]
    rfl
  stored nonce' hnonce := by
    cases hnonce
    have hnext := h.next hdraft
    rw [length_append, length_singleton]
    push_cast
    omega
  absent := by simp
  held _ _ := by simp
  inserted j hj := by
    have hne : j ≠ i := fun heq => release_inserter_ne (heq ▸ hj)
    exact absurd ((release_inserter_iff hne).mp hj) (h.alone hdraft hne).2.1
  drafted j nonce' hdraft' := by
    by_cases hj : j = i
    · subst hj
      simp [NonceWorld.release] at hdraft'
    · have hother : w.drafts j = some nonce' := by simpa [NonceWorld.release, hj] using hdraft'
      rw [(h.alone hdraft hj).2.2] at hother
      cases hother

end Trellis.Oracle
