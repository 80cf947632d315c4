import Trellis.Oracle.NonceInvariant

/-!
# Nonces are handed out once

The row cannot be locked before it exists.  Two first calls then both insert it: one waits for the
other, is rejected by the unique address, and rolls back.
-/

namespace Trellis.Oracle

open Core List NonceWorld Async Option Pool

variable {ι π : Type} [DecidableEq ι] [DecidableEq π] {process : ι → π} {init : Option Int}
  {fresh : Prop} {i j : ι} {w w' : NonceWorld ι π}

/-! ## Assertions -/

section Assertions

variable (init fresh i)

abbrev NonceFact (π : Type) : Type :=
  Assertion (nonceContract (π := π) init fresh i)

abbrev mine (ψ : NonceShare → Prop) : NonceFact init fresh i π :=
  .share ψ

abbrev untaken : NonceFact init fresh i π :=
  mine init fresh i fun share => share.taken = []

def took (nonce : Int) : NonceFact init fresh i π :=
  .share fun share => share.taken = [nonce]

def lockedRow (found : Option Int) : NonceFact init fresh i π :=
  .share fun share => share.taken = [] ∧
    ∀ nonce ∈ found, share.holds = true ∧ share.row = some nonce

/-- The call has written the next nonce in its transaction. -/
def wroteNext (nonce : Int) : NonceFact init fresh i π :=
  .share fun share => share.taken = [] ∧ share.draft = some (nonce + 1)

/-- The nonces with `φ` were handed out. -/
def handedOut (φ : Int → Prop) : NonceFact init fresh i π :=
  .grown (fun w => ∀ nonce, φ nonce → nonce ∈ w.resolved)
    fun _ _ hgrows h nonce hφ => hgrows nonce (h nonce hφ)

end Assertions

/-! ## Operations -/

variable (process) in
abbrev NonceTriple {α : Type} (P : NonceFact init fresh i π)
    (p : Async nonceInterface Failure α) (R : α → NonceFact init fresh i π)
    (E : NonceFact init fresh i π) : Prop :=
  Triple (nonceSemantics process) (freshFills fresh process) i P p R E

theorem triple_nonce_quiet {op : NonceOp} {P E : NonceFact init fresh i π}
    {R : op.Res → NonceFact init fresh i π}
    (hquiet : ∀ w c r w', NonceInv init w ∧ CacheInv fresh w → P w →
      freshFills fresh process i op c w → perform process i op c w = some (r, w') →
      (w'.row = w.row ∧ w'.holder = w.holder ∧ w'.inserter = w.inserter ∧ w'.drafts = w.drafts ∧
        w'.taken = w.taken) ∧ CacheInv fresh w' ∧ Resolves w w' ∧ outcome R E r w') :
    NonceTriple process P (askNonce op) R E := by
  refine triple_call fun w c r w' hinv hP hg hperf => ?_
  obtain ⟨⟨hrow, hholder, hinserter, hdrafts, htaken⟩, hcache, hresolves, hr⟩ :=
    hquiet w c r w' hinv hP hg hperf
  refine ⟨⟨hinv.1.congr hrow hholder hinserter hdrafts htaken, hcache⟩, ⟨fun j _ => ?_, hresolves⟩,
    hr⟩
  unfold nonceShare
  rw [hrow, hholder, hinserter, hdrafts, htaken]

theorem triple_nonce_still {op : NonceOp} {P E : NonceFact init fresh i π}
    {R : op.Res → NonceFact init fresh i π}
    (hstill : ∀ w c r w', perform process i op c w = some (r, w') → w' = w)
    (hR : ∀ w c a, NonceInv init w ∧ CacheInv fresh w → P w →
      perform process i op c w = some (.ok a, w) → R a w) (hE : ∀ w, P w → E w) :
    NonceTriple process P (askNonce op) R E := by
  refine triple_nonce_quiet fun w c r w' hinv hP _ hperf => ?_
  obtain rfl := hstill w c r w' hperf
  refine ⟨⟨rfl, rfl, rfl, rfl, rfl⟩, hinv.2, fun _ h => h, ?_⟩
  cases r with
  | ok a => exact hR w' c a hinv hP hperf
  | error e => exact hE w' hP

/-! ## Reading -/

section Reading

variable {φ : Int → Prop} {ψ : NonceShare → Prop}

/-- A nonce that is current is later than those that were handed out. -/
def laterThan (init : Option Int) (fresh : Prop) (i : ι) (ψ : NonceShare → Prop)
    (φ : Int → Prop) (current : Int) : NonceFact init fresh i π :=
  (mine init fresh i ψ).given (fresh → ∀ nonce, φ nonce → nonce < current)

theorem triple_cached : NonceTriple process ((mine init fresh i ψ).and (handedOut init fresh i φ))
    (askNonce .cached)
    (fun cached : Option Int => ((mine init fresh i ψ).and (handedOut init fresh i φ)).given
      (∀ current ∈ cached, fresh → ∀ nonce, φ nonce → nonce < current))
    (mine init fresh i ψ) := by
  refine triple_nonce_still (fun w c r w' hperf => ?_) (fun w c a hinv hP hperf => ⟨?_, hP⟩)
    fun w hP => hP.1
  · cases c with
    | served time =>
      cases hperf
      rfl
    | rejected e => cases hperf
  · intro current hcurrent hfresh nonce hφ
    cases c with
    | rejected e => cases hperf
    | served time =>
      have ha : ((w.caches (process i)).bind fun entry =>
          if time - entry.2 < cacheTtl then some entry.1 else none) = a := by
        cases hperf
        rfl
      rw [← ha] at hcurrent
      obtain ⟨entry, hentry, hsome⟩ := bind_eq_some_iff.mp hcurrent
      split_ifs at hsome
      cases hsome
      exact hinv.2.cached hfresh (process i) entry hentry nonce (hP.2 nonce hφ)

theorem triple_findOne_nonce :
    NonceTriple process ((mine init fresh i ψ).and (handedOut init fresh i φ)) (askNonce .findOne)
      (fun found : Option Int => (mine init fresh i ψ).given
        (∀ nonce, φ nonce → ∃ current, found = some current ∧ nonce < current))
      (mine init fresh i ψ) := by
  refine triple_nonce_still (fun w c r w' hperf => ?_) (fun w c a hinv hP hperf => ⟨?_, hP.1⟩)
    fun w hP => hP.1
  · cases c <;> cases hperf <;> rfl
  · cases c with
    | rejected e => cases hperf
    | served time =>
      have ha : w.row = a := by
        cases hperf
        rfl
      intro nonce hφ
      rw [← ha]
      exact lt_row hinv (hP.2 nonce hφ)

theorem triple_save_first : NonceTriple process (mine init fresh i ψ)
    (askNonce (.save { nonce := 0, isNew := true }))
    (fun _ => mine init fresh i ψ) (mine init fresh i ψ) := by
  refine triple_call fun w c r w' hinv hmine _ hperf => ?_
  cases c with
  | rejected e =>
    cases hperf
    exact ⟨hinv, ⟨fun _ _ => rfl, fun _ h => h⟩, hmine⟩
  | served time =>
    have hsaved : w.saved { nonce := 0, isNew := true } = some (r, w') := hperf
    simp only [saved, if_true] at hsaved
    split_ifs at hsaved with hinserter hrow
    · cases hsaved
      exact ⟨hinv, ⟨fun _ _ => rfl, fun _ h => h⟩, hmine⟩
    · cases hsaved
      have hfree : w.inserter = none := by simpa using hinserter
      have hnone : w.row = none := by simpa using hrow
      have hunlocked : ∀ j, w.holder ≠ some j := fun j hj => hinv.1.held j hj hnone
      have hshare : ∀ j, nonceShare j { w with row := some 0 } = nonceShare j w := by
        intro j
        simp [nonceShare, hunlocked j]
      refine ⟨⟨hinv.1.create hnone hfree, hinv.2.committed, hinv.2.cached⟩,
        ⟨fun j _ => hshare j, fun _ h => h⟩, ?_⟩
      change ψ (nonceShare i { w with row := some 0 })
      rw [hshare i]
      exact hmine

theorem triple_fetchNonce :
    NonceTriple process ((mine init fresh i ψ).and (handedOut init fresh i φ)) fetchNonce
      (laterThan init fresh i ψ φ) (mine init fresh i ψ) := by
  refine triple_bind triple_findOne_nonce fun found => triple_given fun hfound => ?_
  cases found with
  | some nonce =>
    refine triple_done fun w _ h => ⟨fun _ nonce' hφ => ?_, h⟩
    obtain ⟨current, hcurrent, hlt⟩ := hfound nonce' hφ
    cases hcurrent
    exact hlt
  | none =>
    refine triple_bind (triple_save_first) fun _ => ?_
    refine triple_done fun w _ h => ⟨fun _ nonce' hφ => ?_, h⟩
    obtain ⟨current, hcurrent, -⟩ := hfound nonce' hφ
    cases hcurrent

theorem triple_fill (nonce : Int) :
    NonceTriple process (mine init fresh i ψ) (askNonce (.fill nonce))
      (fun _ => mine init fresh i ψ) (mine init fresh i ψ) := by
  refine triple_nonce_quiet fun w c r w' hinv hmine hg hperf => ?_
  cases c with
  | rejected e => cases hperf
  | served time =>
    cases hperf
    refine ⟨⟨rfl, rfl, rfl, rfl, rfl⟩, ⟨hinv.2.committed, fun hfresh p entry hentry => ?_⟩,
      fun _ h => h, hmine⟩
    intro nonce' hnonce'
    by_cases hp : p = process i
    · subst hp
      have heq : (nonce, time) = entry := by
        simpa [setCache] using hentry
      obtain ⟨stored, hstored, hlt⟩ := lt_row hinv hnonce'
      rw [hg hfresh] at hstored
      cases hstored
      rw [← heq]
      exact hlt
    · have hold : w.caches p = some entry := by
        simpa [setCache, hp] using hentry
      exact hinv.2.cached hfresh p entry hold nonce' hnonce'

theorem triple_getCurrentNonce :
    NonceTriple process ((mine init fresh i ψ).and (handedOut init fresh i φ)) getCurrentNonce
      (laterThan init fresh i ψ φ) (mine init fresh i ψ) := by
  refine triple_bind triple_cached fun cached => triple_given fun hcached => ?_
  cases cached with
  | some nonce => exact triple_done fun w _ h => ⟨hcached nonce rfl, h.1⟩
  | none =>
    refine triple_bind triple_fetchNonce fun nonce => triple_given fun hlater => ?_
    refine triple_bind (triple_fill nonce) fun _ => triple_done fun w _ h => ⟨hlater, h⟩

theorem triple_validateNonce (text : String) :
    NonceTriple process ((mine init fresh i ψ).and (handedOut init fresh i φ)) (validateNonce text)
      (fun isValid => (mine init fresh i ψ).given (fresh → isValid = true →
        ∀ nonce, φ nonce → nonce < numeral text.toList)) (mine init fresh i ψ) := by
  refine triple_bind triple_getCurrentNonce fun current => triple_given fun hlater => ?_
  refine triple_done fun w _ h => ⟨fun hfresh hvalid nonce hφ => ?_, h⟩
  have htext : text = String.ofList (intText current) := by simpa using hvalid
  rw [htext, String.toList_ofList, numeral_intText]
  exact hlater hfresh nonce hφ

end Reading

/-! ## Incrementing -/

theorem triple_startTransaction :
    NonceTriple process (untaken init fresh i) (askNonce .startTransaction)
      (fun _ => untaken init fresh i) (untaken init fresh i) := by
  refine triple_nonce_still (fun w c r w' hperf => ?_) (fun w c a _ h _ => h) fun w h => h
  cases c <;> cases hperf <;> rfl

theorem triple_lockOne : NonceTriple process (untaken init fresh i) (askNonce .lockOne)
    (lockedRow init fresh i) (untaken init fresh i) := by
  refine triple_call fun w c r w' hinv htaken _ hperf => ?_
  cases c with
  | rejected e =>
    cases hperf
    exact ⟨hinv, ⟨fun _ _ => rfl, fun _ h => h⟩, htaken⟩
  | served time =>
    have hlocked : w.locked i = some (r, w') := hperf
    unfold locked at hlocked
    split_ifs at hlocked with hrow hbusy
    · cases hlocked
      refine ⟨hinv, ⟨fun _ _ => rfl, fun _ h => h⟩, htaken, fun nonce hnonce => ?_⟩
      cases hnonce
    · cases hlocked
      have hfree : w.holder = none ∨ w.holder = some i := by
        by_cases hnone : w.holder = none
        · exact Or.inl hnone
        · by_contra hother
          exact hbusy ⟨hnone, fun hi => hother (Or.inr hi)⟩
      refine ⟨⟨hinv.1.lock hrow hfree, hinv.2.committed, hinv.2.cached⟩,
        ⟨fun j hj => ?_, fun _ h => h⟩, htaken, fun nonce hnonce => ?_⟩
      · have hheld : w.holder ≠ some j := by
          rcases hfree with hnone | hi
          · simp [hnone]
          · rw [hi]
            exact fun h => hj (some.inj h).symm
        have hne : ¬ i = j := fun h => hj h.symm
        simp [nonceShare, hheld, hne]
      · have hsome : w.row = some nonce := hnonce
        simp [nonceShare, hsome]

variable {nonce : Int}

omit [DecidableEq π] in
theorem savedLocked_held (hholder : w.holder = some i) (hrow : w.row = some nonce)
    (next : Int) : w.savedLocked i { nonce := next } =
      some (.ok (), { w with drafts := Function.update w.drafts i (some next) }) := by
  unfold savedLocked
  simp [hrow, hholder]

theorem triple_saveLocked (found : Option Int) :
    NonceTriple process (lockedRow init fresh i found) (askNonce
        (.saveLocked { entityOf found with nonce := (entityOf found).nonce + 1 }))
      (fun _ => wroteNext init fresh i (entityOf found).nonce) (untaken init fresh i) := by
  refine triple_call fun w c r w' hinv hshare _ hperf => ?_
  obtain ⟨htaken, hfound⟩ := hshare
  cases c with
  | rejected e =>
    cases hperf
    exact ⟨hinv, ⟨fun _ _ => rfl, fun _ h => h⟩, htaken⟩
  | served time =>
    cases found with
    | some nonce =>
      obtain ⟨hholds, hrow⟩ := hfound nonce rfl
      have hholder : w.holder = some i := by simpa [nonceShare] using hholds
      have hstored : w.row = some nonce := by simpa [nonceShare, hholder] using hrow
      have hsaved : w.savedLocked i { nonce := nonce + 1 } = some (r, w') := hperf
      rw [savedLocked_held hholder hstored] at hsaved
      cases hsaved
      refine ⟨⟨hinv.1.update hholder hstored, hinv.2.committed, hinv.2.cached⟩,
        ⟨fun j hj => ?_, fun _ h => h⟩, htaken, ?_⟩
      · simp [nonceShare, hj]
      · simp [nonceShare, entityOf]
    | none =>
      have hsaved : w.savedLocked i { nonce := 0 + 1, isNew := true } = some (r, w') := hperf
      simp only [savedLocked, if_true] at hsaved
      split_ifs at hsaved with hinserter hrow
      · cases hsaved
        exact ⟨hinv, ⟨fun _ _ => rfl, fun _ h => h⟩, htaken⟩
      · cases hsaved
        have hfree : w.inserter = none := by simpa using hinserter
        have hnone : w.row = none := by simpa using hrow
        refine ⟨⟨hinv.1.insert hnone hfree, hinv.2.committed, hinv.2.cached⟩,
          ⟨fun j hj => ?_, fun _ h => h⟩, htaken, ?_⟩
        · have hne : ¬ i = j := fun h => hj h.symm
          simp [nonceShare, hj, hfree, hne]
        · simp [nonceShare, entityOf]

theorem triple_incrementLocked : NonceTriple process (untaken init fresh i)
    incrementLocked (wroteNext init fresh i) (untaken init fresh i) := by
  refine triple_bind triple_lockOne fun found => ?_
  exact triple_bind (triple_saveLocked found) fun _ => triple_done fun _ _ h => h

omit [DecidableEq π] in
theorem commit_eq (hdraft : w.drafts i = some nonce) : w.commit i = { w.release i with
    row := some nonce, taken := w.taken ++ [(i, nonce - 1)] } := by
  unfold commit
  rw [hdraft]

theorem triple_commitTransaction (nonce : Int) : NonceTriple process (wroteNext init fresh i nonce)
    (askNonce .commitTransaction)
    (fun _ => took init fresh i nonce) (untaken init fresh i) := by
  refine triple_call fun w c r w' hinv hshare _ hperf => ?_
  obtain ⟨htaken, hdraft⟩ := hshare
  cases c with
  | rejected e =>
    cases hperf
    exact ⟨hinv, ⟨fun _ _ => rfl, fun _ h => h⟩, htaken⟩
  | served time =>
    have hcommit : some (Except.ok (), w.commit i) = some (r, w') := hperf
    have hdraft' : w.drafts i = some (nonce + 1) := hdraft
    rw [commit_eq hdraft'] at hcommit
    cases hcommit
    refine ⟨⟨hinv.1.commit hdraft', ?_⟩, ⟨fun j hj => ?_, fun _ h => h⟩, ?_⟩
    · refine ⟨fun nonce' hnonce' => ?_, hinv.2.cached⟩
      rw [map_append]
      exact mem_append_left _ (hinv.2.committed nonce' hnonce')
    · have halone := hinv.1.alone hdraft' hj
      have hholder : (w.release i).holder ≠ some j := fun h =>
        halone.1 ((release_holder_iff hj).mp h)
      have hinserter : (w.release i).inserter = some j ↔ w.inserter = some j :=
        release_inserter_iff hj
      have hdrafts : (w.release i).drafts j = w.drafts j := by simp [release, hj]
      have hne : ¬ i = j := fun h => hj h.symm
      simp [nonceShare, hholder, halone.1, hinserter, hdrafts, filter_append, hne]
    · have hnone : (w.taken.filter (·.1 = i)).map (·.2) = [] := htaken
      change ((w.taken ++ [(i, nonce + 1 - 1)]).filter (·.1 = i)).map (·.2) = [nonce]
      rw [filter_append, map_append, hnone]
      simp

theorem triple_rollbackTransaction : NonceTriple process (untaken init fresh i)
    (askNonce .rollbackTransaction)
    (fun _ => untaken init fresh i) (untaken init fresh i) := by
  refine triple_call fun w c r w' hinv htaken _ hperf => ?_
  cases c <;>
  · cases hperf
    exact ⟨⟨hinv.1.release, hinv.2.committed, hinv.2.cached⟩,
      ⟨fun j hj => share_release hj, fun _ h => h⟩, htaken⟩

theorem triple_transaction : NonceTriple process (untaken init fresh i)
    (inTransaction incrementLocked) (took init fresh i) (untaken init fresh i) := by
  have hbody : NonceTriple process (untaken init fresh i)
      (askNonce .startTransaction >>= fun _ =>
        incrementLocked >>= fun result =>
          askNonce .commitTransaction >>= fun _ => .done result)
      (took init fresh i) (untaken init fresh i) := by
    refine triple_bind triple_startTransaction fun _ => ?_
    refine triple_bind triple_incrementLocked fun nonce => ?_
    exact triple_bind (triple_commitTransaction nonce) fun _ => triple_done fun _ _ h => h
  refine triple_bind (R := fun result : Except Failure Int => match result with
    | .ok nonce => took init fresh i nonce
    | .error _ => untaken init fresh i)
    (triple_attempt hbody (fun _ _ _ h => h) fun _ _ _ h => h) fun result => ?_
  cases result with
  | ok nonce => exact triple_done fun _ _ h => h
  | error e =>
    refine triple_bind (R := fun _ => untaken init fresh i)
      (triple_attempt triple_rollbackTransaction (fun _ _ _ h => h) fun _ _ _ h => h)
      fun _ => ?_
    exact triple_throw fun _ _ h => h

omit [DecidableEq π] in
theorem mem_taken_of_share {nonces : List Int} (h : (nonceShare i w).taken = nonces) :
    nonce ∈ nonces ↔ (i, nonce) ∈ w.taken := by
  rw [← h]
  constructor
  · intro hmem
    obtain ⟨⟨j, nonce'⟩, hentry, rfl⟩ := mem_map.mp hmem
    obtain ⟨hentry, hj⟩ := mem_filter.mp hentry
    have hj' : j = i := by simpa using hj
    rwa [hj'] at hentry
  · exact fun hmem => mem_map.mpr ⟨(i, nonce), mem_filter.mpr ⟨hmem, by simp⟩, rfl⟩

variable (hone : fresh → Subsingleton π)
include hone

theorem triple_invalidate (nonce : Int) :
    NonceTriple process (took init fresh i nonce) (askNonce (.invalidate nonce))
      (fun _ => (took init fresh i nonce).and (handedOut init fresh i (· = nonce)))
      (untaken init fresh i) := by
  refine triple_nonce_quiet fun w c r w' hinv htook _ hperf => ?_
  cases c with
  | rejected e => cases hperf
  | served time =>
    cases hperf
    refine ⟨⟨rfl, rfl, rfl, rfl, rfl⟩, ⟨fun nonce' hnonce' => ?_, fun hfresh p entry hentry => ?_⟩,
      fun nonce' h => mem_cons_of_mem _ h, htook, ?_⟩
    · rcases mem_cons.mp hnonce' with rfl | hold
      · have hmem := (mem_taken_of_share htook).mp mem_cons_self
        exact mem_map.mpr ⟨_, hmem, rfl⟩
      · exact hinv.2.committed nonce' hold
    · have hp : p = process i := (hone hfresh).elim p (process i)
      subst hp
      simp [setCache] at hentry
    · rintro nonce' rfl
      exact mem_cons_self

theorem triple_getAndIncrementNonce :
    NonceTriple process (untaken init fresh i) getAndIncrementNonce
      (fun nonce => (took init fresh i nonce).and (handedOut init fresh i (· = nonce)))
      (untaken init fresh i) := by
  refine triple_bind triple_transaction fun nonce => ?_
  exact triple_bind (triple_invalidate hone nonce) fun _ => triple_done fun _ _ h => h

/-! ## Calls -/

def answered (init : Option Int) (fresh : Prop) (i : ι) : NonceAnswer → NonceFact init fresh i π
  | .incremented nonce => (took init fresh i nonce).and (handedOut init fresh i (· = nonce))
  | .current _ | .validated _ => untaken init fresh i

theorem triple_nonceCall (call : NonceCall) : NonceTriple process (untaken init fresh i)
      call.program (answered init fresh i) (untaken init fresh i) := by
  have hnothing : ∀ w : NonceWorld ι π, NonceInv init w ∧ CacheInv fresh w →
      untaken init fresh i w →
      ((untaken init fresh i).and (handedOut init fresh i fun _ => False)) w :=
    fun w _ h => ⟨h, fun _ hfalse => hfalse.elim⟩
  cases call with
  | getCurrentNonce =>
    refine triple_bind (triple_pre triple_getCurrentNonce hnothing) fun nonce => ?_
    exact triple_done fun _ _ h => h.2
  | getAndIncrementNonce =>
    exact triple_bind (triple_getAndIncrementNonce hone) fun nonce => triple_done fun _ _ h => h
  | validateNonce text =>
    refine triple_bind (triple_pre (triple_validateNonce text) hnothing) fun isValid => ?_
    exact triple_done fun _ _ h => h.2

/-! ## Runs -/

omit hone in
omit [DecidableEq ι] [DecidableEq π] in
theorem nonceInv_start (row : Option Int) : NonceInv row ({ row := row } : NonceWorld ι π) ∧
    CacheInv fresh ({ row := row } : NonceWorld ι π) := by
  refine ⟨⟨rfl, fun nonce hrow => ?_, fun hrow => ⟨hrow, rfl⟩, ?_, ?_, ?_⟩, ?_, ?_⟩
  · have hsome : row = some nonce := hrow
    simp [hsome]
  all_goals simp

variable {c : Pool nonceInterface Failure ι (NonceWorld ι π) NonceAnswer} {calls : ι → NonceCall}
  {row : Option Int}

theorem nonce_allSafe (hreach : Pool.Reach (nonceSemantics process) (freshFills fresh process)
      (noncePool calls row) c) :
    Pool.AllSafe (nonceSemantics process) (freshFills fresh process) (nonceContract row fresh)
      (fun w => NonceInv row w ∧ CacheInv fresh w)
      (fun i => outcome (C := nonceContract row fresh i) (answered row fresh i)
        (untaken row fresh i)) c := by
  exact hreach.keeps (nonce_compatible process row fresh) (nonceInv_start row)
    (fun i => triple_nonceCall hone (calls i)) fun _ => rfl

omit hone

variable (hreach : Pool.Reach (nonceSemantics process) (anyStep _) (noncePool calls row) c)
include hreach

theorem nonce_allSafe_any :
    Pool.AllSafe (nonceSemantics process) (freshFills False process) (nonceContract row False)
      (fun w => NonceInv row w ∧ CacheInv False w)
      (fun i => outcome (C := nonceContract row False i) (answered row False i)
        (untaken row False i)) c := by
  refine nonce_allSafe (fun hfalse => hfalse.elim) (hreach.mono fun i op choice w _ => ?_)
  cases op with
  | fill nonce => exact fun hfalse => hfalse.elim
  | _ => trivial

theorem taken_of_done
    (hdone : c.calls i = .done (.incremented nonce)) : (i, nonce) ∈ c.world.taken := by
  have hanswer := (nonce_allSafe_any hreach).ended (nonce_compatible process row False)
    (r := .ok (.incremented nonce)) hdone
  exact (mem_taken_of_share hanswer.1).mp mem_cons_self

theorem done_of_taken {r : Except Failure NonceAnswer} (hend : c.calls i = ofExcept r)
    (htaken : (i, nonce) ∈ c.world.taken) : r = .ok (.incremented nonce) := by
  have hanswer := (nonce_allSafe_any hreach).ended (nonce_compatible process row False) hend
  cases r with
  | error e => cases (mem_taken_of_share hanswer).mpr htaken
  | ok a =>
    cases a with
    | incremented nonce' =>
      have hmem := (mem_taken_of_share hanswer.1).mpr htaken
      rw [mem_singleton.mp hmem]
    | current nonce' => cases (mem_taken_of_share hanswer).mpr htaken
    | validated isValid => cases (mem_taken_of_share hanswer).mpr htaken

omit hreach

omit [DecidableEq ι] [DecidableEq π] in
theorem NonceInv.mem_iff (h : NonceInv init w) (nonce : Int) :
    nonce ∈ w.taken.map (·.2) ↔ init.getD 0 ≤ nonce ∧ nonce < w.row.getD 0 := by
  have hend : w.row.getD 0 = init.getD 0 + w.taken.length := by
    cases hrow : w.row with
    | some stored => exact h.stored stored hrow
    | none =>
      obtain ⟨rfl, htaken⟩ := h.absent hrow
      simp [htaken]
  rw [h.consecutive, hend]
  constructor
  · intro hmem
    obtain ⟨k, hk, rfl⟩ := mem_map.mp hmem
    rw [mem_range] at hk
    omega
  · intro hrange
    refine mem_map.mpr ⟨(nonce - init.getD 0).toNat, ?_, ?_⟩
    · rw [mem_range]
      omega
    · omega

omit [DecidableEq ι] [DecidableEq π] in
theorem NonceInv.nodup (h : NonceInv init w) : (w.taken.map (·.2)).Nodup := by
  rw [h.consecutive]
  refine List.Nodup.map (fun k k' hk => ?_) nodup_range
  omega

/-- Different calls return different nonces, and once all calls have ended, they have returned the
numbers from the first nonce up to the one that is stored. -/
theorem nonces_consecutive {calls : ι → NonceCall} {row : Option Int}
    {c : Pool nonceInterface Failure ι (NonceWorld ι π) NonceAnswer}
    (hreach : Pool.Reach (nonceSemantics process) (anyStep _) (noncePool calls row) c) :
    (∀ i j nonce, c.calls i = .done (.incremented nonce) →
      c.calls j = .done (.incremented nonce) → i = j) ∧ ((∀ i, ∃ r, c.calls i = Async.ofExcept r) →
      ∀ nonce, (∃ i, c.calls i = .done (.incremented nonce)) ↔
        row.getD 0 ≤ nonce ∧ nonce < c.world.row.getD 0) := by
  have hinv : NonceInv row c.world := (nonce_allSafe_any hreach).world_inv.1
  refine ⟨fun i j nonce hi hj => ?_, fun hended nonce => ?_⟩
  · have hentries := inj_on_of_nodup_map hinv.nodup (taken_of_done hreach hi)
      (taken_of_done hreach hj) rfl
    exact congrArg Prod.fst hentries
  · rw [← hinv.mem_iff nonce]
    constructor
    · rintro ⟨i, hi⟩
      exact mem_map.mpr ⟨_, taken_of_done hreach hi, rfl⟩
    · intro hmem
      obtain ⟨⟨i, nonce'⟩, hentry, rfl⟩ := mem_map.mp hmem
      obtain ⟨r, hr⟩ := hended i
      refine ⟨i, ?_⟩
      rw [hr, done_of_taken hreach hr hentry]
      rfl

/-! ### Consumed nonces -/

/-- The outcome of caller `i` is a refusal. -/
def Refused (i k : ι) (r : Except Failure NonceAnswer) (_ : NonceWorld ι π) : Prop :=
  k = i → ∀ a, r = .ok a → a = .validated false

theorem triple_refused (hfresh : fresh) {n : Int} {text : String}
    (htext : numeral text.toList ≤ n) : NonceTriple process (handedOut init fresh i (· = n))
      (NonceCall.validateNonce text).program (fun a => .pure (a = .validated false)) .top := by
  have hvalidate : NonceTriple process (handedOut init fresh i (· = n)) (validateNonce text)
      (fun isValid => (mine init fresh i fun _ => True).given (fresh → isValid = true →
        ∀ nonce, nonce = n → nonce < numeral text.toList)) .top :=
    triple_pre (triple_forget (triple_validateNonce text)) fun w _ h => ⟨trivial, h⟩
  refine triple_bind hvalidate fun isValid => triple_given fun hvalid => ?_
  refine triple_done fun w _ _ => ?_
  cases isValid with
  | false => rfl
  | true =>
    have hlt := hvalid hfresh rfl n rfl
    omega

/-- Callers of one process whose cache is only filled with what is stored: a nonce that was handed
out before `validateNonce` is called is refused, and so is every earlier one. -/
theorem consumed_nonce_refused {calls : ι → NonceCall} {row : Option Int}
    {c c' : Pool nonceInterface Failure ι (NonceWorld ι Unit) NonceAnswer}
    (hreach : Pool.Reach (nonceSemantics fun _ => ()) (freshFills True fun _ => ())
      (noncePool calls row) c)
    {n : Int} (hresolved : c.calls j = .done (.incremented n))
    {text : String} (hcall : c.calls i = (NonceCall.validateNonce text).program)
    (htext : numeral text.toList ≤ n)
    (hlater : Pool.Reach (nonceSemantics fun _ => ()) (freshFills True fun _ => ()) c c')
    {a : NonceAnswer} (hdone : c'.calls i = .done a) : a = .validated false := by
  have hone : True → Subsingleton Unit := fun _ => inferInstance
  have hcompatible := nonce_compatible (fun _ : ι => ()) row True
  have hsafe := nonce_allSafe hone hreach
  have hout : n ∈ c.world.resolved :=
    (hsafe.ended hcompatible (r := .ok (.incremented n)) hresolved).2 n rfl
  -- from here on the caller of `validateNonce` knows that `n` was handed out
  have hsafe' : Pool.AllSafe (nonceSemantics fun _ => ()) (freshFills True fun _ => ())
      (nonceContract row True) (fun w => NonceInv row w ∧ CacheInv True w) (Refused i) c := by
    refine ⟨hsafe.world_inv, fun k => ?_⟩
    by_cases hk : k = i
    · subst hk
      rw [hcall]
      refine safe_mono ((triple_refused trivial htext).safe hsafe.world_inv ?_) ?_
      · rintro nonce rfl
        exact hout
      · rintro r v - hr - a rfl
        exact hr
    · exact safe_mono (hsafe.calls_safe k) fun r v _ _ heq => (hk heq).elim
  exact hlater.safe hcompatible hsafe' |>.ended hcompatible (r := .ok a) hdone rfl a rfl

/-! ### Two first calls -/

def endOf (c : Pool nonceInterface Failure ι (NonceWorld ι Unit) NonceAnswer) (i : ι) :
    Option (Option NonceAnswer) :=
  match c.calls i with
  | .done a => some (some a)
  | .fail _ => some none
  | .await _ _ => none

variable {c : Pool nonceInterface Failure ι (NonceWorld ι Unit) NonceAnswer}

omit [DecidableEq ι] in
theorem ended_of_endOf
    {x : Option NonceAnswer} (h : endOf c i = some x) : ∃ r, c.calls i = ofExcept r := by
  unfold endOf at h
  split at h
  · rename_i a hcall
    exact ⟨.ok a, hcall⟩
  · rename_i e hcall
    exact ⟨.error e, hcall⟩
  · cases h

omit [DecidableEq ι] in
theorem done_of_endOf {a : NonceAnswer} (h : endOf c i = some (some a)) : c.calls i = .done a := by
  unfold endOf at h
  split at h
  · rename_i a' hcall
    cases h
    exact hcall
  · cases h
  · cases h

/-- Both calls find no row; the second insertion is rejected and its call fails, and the only nonce
that was handed out is the first one. -/
theorem first_nonce_handed_out_once :
    ∃ c, Pool.Reach (nonceSemantics fun _ : Fin 2 => ()) (anyStep _)
        (noncePool (fun _ => .getAndIncrementNonce) none) c ∧ c.world.row = some 1 ∧
      ∀ nonce, (∃ i, c.calls i = .done (.incremented nonce)) ↔ 0 ≤ nonce ∧ nonce < 1 := by
  refine exists_run ([0, 1, 0, 1, 0, 0, 0, 1, 1].map fun i => .call i (.served 0))
    (fun c => (c.world.row, endOf c 0, endOf c 1)) (some 1, some (some (.incremented 0)), some none)
    (by decide +kernel) fun c hreach hobserved => ?_
  have hrow : c.world.row = some 1 := congrArg Prod.fst hobserved
  have hended : ∀ i, ∃ r, c.calls i = ofExcept r := by
    intro i
    match i with
    | 0 => exact ended_of_endOf (congrArg (fun x => x.2.1) hobserved)
    | 1 => exact ended_of_endOf (congrArg (fun x => x.2.2) hobserved)
  have hnonces := (nonces_consecutive hreach).2 hended
  rw [hrow] at hnonces
  exact ⟨hrow, hnonces⟩

/-! ### Reads and caches -/

instance (process : ι → π) [Decidable fresh] :
    ∀ i op c w, Decidable (freshFills fresh process i op c w) := fun _ op _ w =>
  match op with
  | .fill nonce => inferInstanceAs (Decidable (fresh → w.row = some nonce))
  | .cached | .invalidate _ | .findOne | .save _ | .startTransaction | .lockOne | .saveLocked _
  | .commitTransaction | .rollbackTransaction => inferInstanceAs (Decidable True)

def incrementThenValidate (text : String) (i : Fin 2) : NonceCall :=
  if i = 0 then .getAndIncrementNonce else .validateNonce text

theorem first_nonce_refused :
    ∃ c c', Pool.Reach (nonceSemantics fun _ : Fin 2 => ()) (freshFills True fun _ => ())
        (noncePool (incrementThenValidate "0") none) c ∧
      c.calls 0 = .done (.incremented 0) ∧ c.calls 1 = (NonceCall.validateNonce "0").program ∧
      Pool.Reach (nonceSemantics fun _ : Fin 2 => ()) (freshFills True fun _ => ()) c c' ∧
      c'.calls 1 = .done (.validated false) := by
  have hrun : ((run (nonceSemantics fun _ : Fin 2 => ()) (freshFills True fun _ => ())
      (replicate 5 (.call 0 (.served 0)))
      (noncePool (incrementThenValidate "0") none)).bind fun c₁ =>
        (run (nonceSemantics fun _ : Fin 2 => ()) (freshFills True fun _ => ())
          (replicate 3 (.call 1 (.served 0))) c₁).map fun c₂ => (endOf c₁ 0, endOf c₂ 1)) =
      some (some (some (.incremented 0)), some (some (.validated false))) := by
    decide +kernel
  obtain ⟨c, hfirst, hrest⟩ := bind_eq_some_iff.mp hrun
  obtain ⟨c', hsecond, hobserved⟩ := map_eq_some_iff.mp hrest
  have hresolved := done_of_endOf (congrArg Prod.fst hobserved)
  have hdone := done_of_endOf (congrArg Prod.snd hobserved)
  have hcall : c.calls 1 = (NonceCall.validateNonce "0").program :=
    calls_of_run hfirst (by decide)
  have hreach := reach_of_run hfirst
  have hlater := reach_of_run hsecond
  refine ⟨c, c', hreach, hresolved, hcall, hlater, ?_⟩
  rw [hdone, consumed_nonce_refused hreach hresolved hcall (by decide) hlater hdone]

def readIncrementValidate (text : String) (i : Fin 3) : NonceCall :=
  if i = 0 then .getCurrentNonce
  else if i = 1 then .getAndIncrementNonce
  else .validateNonce text

/-- The answer to a read is on its way while the nonce that it has read is incremented and handed
out; it fills the cache afterwards, and the nonce is accepted. -/
theorem overtaken_read_accepts : ∃ c c', Pool.Reach (nonceSemantics fun _ : Fin 3 => ()) (anyStep _)
      (noncePool (readIncrementValidate "5") (some 5)) c ∧
    c.calls 1 = .done (.incremented 5) ∧ c.calls 2 = (NonceCall.validateNonce "5").program ∧
    Pool.Reach (nonceSemantics fun _ : Fin 3 => ()) (anyStep _) c c' ∧
    c'.calls 2 = .done (.validated true) := by
  have hrun : ((run (nonceSemantics fun _ : Fin 3 => ()) (anyStep _)
      ([0, 0, 1, 1, 1, 1, 1, 0].map fun i => .call i (.served 0))
      (noncePool (readIncrementValidate "5") (some 5))).bind fun c₁ =>
        (run (nonceSemantics fun _ : Fin 3 => ()) (anyStep _)
          [.call 2 (.served 0)] c₁).map fun c₂ => (endOf c₁ 1, endOf c₂ 2)) =
      some (some (some (.incremented 5)), some (some (.validated true))) := by
    decide +kernel
  obtain ⟨c, hfirst, hrest⟩ := bind_eq_some_iff.mp hrun
  obtain ⟨c', hsecond, hobserved⟩ := map_eq_some_iff.mp hrest
  exact ⟨c, c', reach_of_run hfirst, done_of_endOf (congrArg Prod.fst hobserved),
    calls_of_run hfirst (by decide), reach_of_run hsecond,
    done_of_endOf (congrArg Prod.snd hobserved)⟩

end Trellis.Oracle
