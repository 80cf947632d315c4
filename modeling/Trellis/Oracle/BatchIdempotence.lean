import Trellis.Oracle.BatchInvariant
import Trellis.Oracle.BatchSelection

/-!
# Batches submit a payload once

`validatePayloadsForBatch` looks at the expiry before it looks at the status, `markAsFailed` does
not look at the status at all, and every save writes what was read earlier.
-/

namespace Trellis.Oracle

open Core List Async BatchKept Evolves

variable {ι : Type} [DecidableEq ι] {i : ι} {A : Set String} {id : String} {w w' : BatchWorld ι}
  {φ : Option SignedPayload → Prop}

/-! ## Operations -/

/-- The operations on the clock, the timer, the map in memory and the turns. -/
def BatchOp.isLocal : BatchOp → Bool
  | .now | .sleep _ | .inFlight | .markInFlight _ | .clearInFlight _ | .turn => true
  | _ => false

variable {op : BatchOp} {c : BatchChoice}

theorem perform_local (hop : op.isLocal = true)
    {r : Except Failure op.Res} (h : w.perform i op c = some (r, w')) :
    (∃ a, r = .ok a) ∧ w'.rows = w.rows ∧ w'.submissions = w.submissions ∧
      w'.versions = w.versions ∧ w'.seen = w.seen := by
  cases op with
  | now | sleep _ | inFlight | markInFlight _ | clearInFlight _ | turn =>
    cases c <;> cases h
    exact ⟨⟨_, rfl⟩, rfl, rfl, rfl, rfl⟩
  | _ => cases hop

/-- A triple of the part of a call of `i` that works on the payloads in `A`. -/
abbrev BatchTriple (i : ι) (A : Set String) {α : Type} (P : Assertion (batchContract i A))
    (p : BatchProgram α) (R : α → Assertion (batchContract i A))
    (E : Assertion (batchContract i A)) : Prop :=
  Triple (batchSemantics ι) (isolated ι) i P p R E

variable {E P : Assertion (batchContract i A)}

theorem triple_local (hop : op.isLocal = true) {R : op.Res → Assertion (batchContract i A)}
    (hR : ∀ w c a w', P w → isolated ι i op c w → w.perform i op c = some (.ok a, w') →
      P w' → R a w') : BatchTriple i A P (askBatch op) R E := by
  refine triple_call fun w c r w' hinv hP hg hperf => ?_
  obtain ⟨⟨a, rfl⟩, hrows, hsubmissions, hversions, hseen⟩ := perform_local hop hperf
  have hrow : ∀ id, w'.row id = w.row id := by
    intro id
    rw [BatchWorld.row, hrows]
    rfl
  have hinv' : BatchInv w' := by
    rw [BatchInv, hrows]
    exact hinv
  have hevolves : Evolves w w' := by
    intro id
    rw [hversions]
    exact ⟨le_rfl, fun _ => hrow id⟩
  have hkept : BatchKept w w' := by
    intro id row hw _
    rw [hrow, hsubmissions]
    exact ⟨⟨row, hw, rfl, rfl⟩, rfl⟩
  have hP' : P w' := P.stable w w' ⟨hinv, hinv', hevolves, fun id _ => by rw [hseen]⟩ hP
  exact ⟨hinv', ⟨hkept, hevolves, fun j id _ => by rw [hseen]⟩, hR w c a w' hP hg hperf hP'⟩

theorem triple_local_keep (hop : op.isLocal = true) :
    BatchTriple i A P (askBatch op) (fun _ => P) E :=
  triple_local hop fun _ _ _ _ _ _ _ h => h

theorem mem_of_mem_singleton (hid : id ∈ A) : ∀ id' ∈ [id], id' ∈ A := by
  intro id' hid'
  rw [mem_singleton.mp hid']
  exact hid

theorem triple_findOne (hid : id ∈ A) : BatchTriple i A .top (askBatch (.findOne id))
    (fun found : Option SignedPayload => (knows i A id (· = found)).given
      (∀ payload ∈ found, payload.id = id))
    (knows i A id Unsettled) := by
  refine triple_call fun w c r w' hinv _ hg hperf => ?_
  have hguar : (batchContract i A).guar w (w.touch i [id]) :=
    guar_touch (refl w) (refl w) rfl (mem_of_mem_singleton hid)
  have hfailed : BatchChoice.fails c = true → Unsettled (w.row id) := by
    intro hfails payload hpayload
    by_contra hsettled
    exact hg.2 hfails ⟨payload, hpayload, by simpa using hsettled⟩
  cases c with
  | served time =>
    cases hperf
    exact ⟨hinv, hguar, fun payload hrow => id_of_row hrow, hid, knows_touch w i mem_cons_self rfl⟩
  | rejected e | lost e =>
    cases hperf
    exact ⟨hinv, hguar, hid, knows_touch w i mem_cons_self (hfailed rfl)⟩
  | transaction _ _ | turn _ => cases hperf

theorem triple_findOne_unsettled : BatchTriple i A (knows i A id Unsettled) (askBatch (.findOne id))
    (fun found : Option SignedPayload => (knows i A id Unsettled).given
      (∀ payload ∈ found, payload.id = id)) .top := by
  refine triple_call fun w c r w' hinv hknows hg hperf => ?_
  have hrow : Unsettled (w.row id) := hknows.2.holds hg.1
  have hguar : (batchContract i A).guar w (w.touch i [id]) :=
    guar_touch (refl w) (refl w) rfl (mem_of_mem_singleton hknows.1)
  cases c with
  | served time =>
    cases hperf
    exact ⟨hinv, hguar, fun payload hrow => id_of_row hrow, hknows.1,
      knows_touch w i mem_cons_self hrow⟩
  | rejected e | lost e =>
    cases hperf
    exact ⟨hinv, hguar, trivial⟩
  | transaction _ _ | turn _ => cases hperf

variable {payload : SignedPayload}

theorem triple_save (hid : payload.id = id) : BatchTriple i A (knows i A id Unsettled)
    (askBatch (.save payload)) (fun _ => .top)
    ((knows i A id Unsettled).when (payload.status = .submitted)) := by
  subst hid
  refine triple_call fun w c r w' hinv hknows hg hperf => ?_
  have hrow : Unsettled (w.row payload.id) := hknows.2.holds hg.1
  have hids := mem_of_mem_singleton hknows.1
  have hstored : ∀ time, BatchInv ((w.stored payload time).touch i [payload.id]) ∧
      (batchContract i A).guar w ((w.stored payload time).touch i [payload.id]) := fun time =>
    ⟨BatchInv.stored hinv payload time,
      guar_touch (kept_stored hrow time) (evolves_stored w payload time) rfl hids⟩
  cases c with
  | served time =>
    cases hperf
    exact ⟨(hstored time).1, (hstored time).2, trivial⟩
  | lost e =>
    cases hperf
    refine ⟨(hstored 0).1, (hstored 0).2, fun hsubmitted => ?_⟩
    have hnot := hg.2 hsubmitted
    cases hnot
  | rejected e =>
    cases hperf
    exact ⟨hinv, guar_touch (refl w) (refl w) rfl hids,
      fun _ => ⟨hknows.1, knows_touch w i mem_cons_self hrow⟩⟩
  | transaction _ _ | turn _ => cases hperf

theorem triple_newTransaction : BatchTriple i A (knows i A id Unsettled)
    (askBatch (.newTransaction id))
    (fun _ => knows i A id Unsettled) E := by
  refine triple_call fun w c r w' hinv hknows hg hperf => ?_
  have hrow : Unsettled (w.row id) := hknows.2.holds hg
  cases c with
  | transaction hash time =>
    cases hperf
    refine ⟨hinv, ⟨fun id' row hw hsettled => ⟨⟨row, hw, rfl, rfl⟩, ?_⟩, fun _ => ⟨le_rfl,
      fun _ => rfl⟩, fun _ _ _ => rfl⟩, hknows.1, hknows.2⟩
    have hne : id' ≠ id := by
      rintro rfl
      rw [hrow row hw] at hsettled
      cases hsettled
    exact Function.update_of_ne hne _ _
  | _ => cases hperf

/-! ## Single payloads -/

theorem triple_markAsFailed (message : String) (attempts : Int) :
    BatchTriple i A (knows i A id Unsettled)
      (markAsFailed id message attempts) (fun _ => .top) E := by
  refine triple_bind (triple_try ?_) fun _ => triple_return
  refine triple_bind triple_findOne_unsettled fun found => triple_given fun hfound => ?_
  cases found with
  | none => exact triple_return
  | some payload =>
    refine triple_forget (triple_save ?_)
    exact hfound payload rfl

theorem triple_submitInBatch (hid : payload.id = id) :
    BatchTriple i A (knows i A id Unsettled) (submitInBatch payload)
      (fun _ => .top) (knows i A id Unsettled) := by
  subst hid
  refine triple_bind triple_newTransaction fun transaction => ?_
  refine triple_bind (R := fun _ => .top) ?_ fun _ => triple_return
  exact triple_error (triple_save rfl) fun _ _ h => h rfl

variable (cfg : BatchServiceConfig)

theorem triple_tryPayload (hid : id ∈ A) (attempt : Nat) :
    BatchTriple i A .top (tryPayload cfg id attempt) (fun _ => .top) (knows i A id Unsettled) := by
  refine triple_bind (triple_findOne hid) fun found => triple_given fun hfound => ?_
  cases found with
  | none => exact triple_return
  | some payload =>
    refine triple_ite (fun _ => triple_return) fun hsettled =>
      triple_ite (fun _ => triple_return) fun _ => ?_
    have hknown : ∀ w, BatchInv w → knows i A id (· = some payload) w →
        knows i A id Unsettled w := by
      intro w _ h
      refine ⟨h.1, h.2.mono fun row hrow payload' hmem => ?_⟩
      rw [hrow] at hmem
      cases hmem
      simpa using hsettled
    refine triple_bind (triple_pre (triple_submitInBatch (hfound payload rfl)) hknown)
      fun hash => ?_
    exact triple_bind (triple_local_keep rfl) fun _ => triple_return

theorem triple_retryAttempts (hid : id ∈ A) (attempts : Int)
    (left attempt : Nat) (lastError : Option Failure) :
    BatchTriple i A .top (retryAttempts cfg id attempts left attempt lastError) (fun _ => .top)
      (knows i A id Unsettled) := by
  induction left generalizing attempt lastError with
  | zero => exact triple_bind (triple_local_keep rfl) fun _ => triple_return
  | succ left ih =>
    refine triple_catch (triple_tryPayload cfg hid attempt) (fun _ => triple_return) fun e => ?_
    cases hmessage : e.message? with
    | none =>
      simp only [hmessage]
      exact triple_throw fun _ _ h => h
    | some message =>
      simp only [hmessage]
      refine triple_ite (fun _ => ?_) fun _ => ?_
      · refine triple_bind (triple_markAsFailed message attempt) fun _ => ?_
        exact triple_bind (triple_local_keep rfl) fun _ => triple_return
      · refine triple_bind (triple_local_keep rfl) fun _ => ?_
        exact triple_pre (ih (attempt + 1) (some e)) fun _ _ _ => trivial

theorem triple_processWithRetry (hid : id ∈ A) (maxRetries : Option Int) : BatchTriple i A .top
    (processWithRetry cfg id maxRetries) (fun _ => .top) (knows i A id Unsettled) :=
  triple_retryAttempts cfg hid _ _ 1 none

/-! ## Several payloads -/

section Several

variable {κ : Type}

theorem turn_still {r : Except Failure (batchInterface.Res batchTurns.op)}
    (h : (batchSemantics ι).perform i batchTurns.op c w = some (r, w')) : w' = w := by
  cases c with
  | turn first =>
    cases h
    rfl
  | _ => cases h

/-- Parts of a call that work on different payloads may run side by side; where `b` holds they
rely on what is known of the payloads. -/
theorem triple_allSettled {α : Type} {key : κ → String} {φ : κ → Option SignedPayload → Prop}
    {b : Prop} {f : κ → BatchProgram α} {items : List κ} (hnodup : (items.map key).Nodup)
    (h : ∀ x ∈ items, BatchTriple i {key x}
      ((knows i {key x} (key x) (φ x)).when b) (f x) (fun _ => .top)
      (knows i {key x} (key x) Unsettled)) : BatchTriple i {id | id ∈ items.map key}
      ((knowsAll i {id | id ∈ items.map key} key φ items).when b)
      (allSettled batchTurns (items.map f))
      (fun results => (knowsFailed i {id | id ∈ items.map key} key items results).given
        (results.length = items.length)) .top := by
  induction items with
  | nil => exact triple_done fun _ _ _ => ⟨rfl, fun x hx => (not_mem_nil hx).elim⟩
  | cons x rest ih =>
    rw [map_cons, nodup_cons] at hnodup
    have hbeside : (batchContract i {key x}).Beside (batchContract i {id | id ∈ rest.map key})
        (batchContract i {id | id ∈ (x :: rest).map key}) := by
      refine batchContract_beside ?_ ?_ ?_
      · rintro id rfl
        exact mem_cons_self
      · exact fun id hid => mem_cons_of_mem _ hid
      · exact Set.disjoint_singleton_left.mpr hnodup.1
    have hboth := triple_both (E := .top) hbeside (t := batchTurns)
      (fun _ _ _ _ hturn => turn_still hturn) (h x mem_cons_self)
      (ih hnodup.2 fun y hy => h y (mem_cons_of_mem x hy))
    refine triple_bind (triple_pre hboth fun w _ hknows => ?_) fun results => ?_
    · refine ⟨fun hb => knows_within (hknows hb x mem_cons_self) rfl, fun hb y hy => ?_⟩
      exact knows_within (hknows hb y (mem_cons_of_mem x hy)) (mem_map_of_mem hy)
    · obtain ⟨first, others⟩ := results
      cases others with
      | error e => exact triple_throw fun _ _ _ => trivial
      | ok others =>
        refine triple_done fun w _ hknows => ?_
        obtain ⟨hfirst, hlength, hothers⟩ := hknows
        refine ⟨by simpa using hlength, fun y hy => ?_⟩
        obtain ⟨hmem, herror⟩ := mem_filter.mp hy
        rcases mem_cons.mp hmem with rfl | hmem
        · cases first with
          | ok a => cases herror
          | error e => exact knows_within hfirst mem_cons_self
        · exact knows_within (hothers y (mem_filter.mpr ⟨hmem, herror⟩))
            (mem_cons_of_mem _ (mem_map_of_mem (of_mem_zip hmem).1))

end Several

/-! ## Queries -/

omit [DecidableEq ι] in
theorem row_of_mem (hinv : BatchInv w) {p : SignedPayload} (hp : p ∈ w.rows) :
    w.row p.id = some p := by
  cases hrow : w.row p.id with
  | none =>
    have hnot := find?_eq_none.mp hrow p hp
    simp at hnot
  | some row =>
    have hmem := mem_of_find?_eq_some hrow
    rw [inj_on_of_nodup_map hinv hmem hp (id_of_row hrow)]

abbrev readAll (i : ι) (payloads : List SignedPayload) : Assertion (batchContract i Set.univ) :=
  knowsAll i Set.univ SignedPayload.id (fun p row => row = some p) payloads

abbrev unsettledAll (i : ι) (payloads : List SignedPayload) :
    Assertion (batchContract i Set.univ) :=
  knowsAll i Set.univ SignedPayload.id (fun _ => Unsettled) payloads

omit [DecidableEq ι] in
theorem unsettledAll_of_read {found payloads : List SignedPayload} (h : readAll i found w)
    (hpayloads : ∀ p ∈ payloads, p ∈ found ∧ p.status.isSettled = false) :
    unsettledAll i payloads w := by
  intro p hp
  obtain ⟨hmem, hsettled⟩ := hpayloads p hp
  refine ⟨trivial, (h p hmem).2.mono fun row hrow payload hpayload => ?_⟩
  rw [hrow] at hpayload
  cases hpayload
  exact hsettled

/-- What a query finds: different rows, and the call knows each of them. -/
def foundRows (i : ι) (query : PayloadQuery) (found : List SignedPayload) :
    Assertion (batchContract i Set.univ) :=
  (readAll i found).given
    ((found.map (·.id)).Nodup ∧ ∃ w : BatchWorld ι, w.answer query = .ok found)

theorem triple_find (query : PayloadQuery) : BatchTriple i Set.univ .top
    (askBatch (.find query)) (foundRows i query) .top := by
  refine triple_call fun w c r w' hinv _ _ hperf => ?_
  rcases perform_find hperf with ⟨found, rfl, hanswer, rfl⟩ | ⟨e, rfl, rfl⟩
  · have hsubperm := subperm_of_answer hanswer
    refine ⟨hinv, guar_touch (refl w) (refl w) rfl fun _ _ => trivial,
      ⟨?_, w, hanswer⟩, fun p hp => ⟨trivial, ?_⟩⟩
    · obtain ⟨rows, hperm, hsublist⟩ := hsubperm
      have hids : (rows.map SignedPayload.id).Nodup := (hsublist.map _).nodup hinv
      exact (hperm.map SignedPayload.id).nodup_iff.mp hids
    · exact knows_touch w i (mem_map_of_mem hp) (row_of_mem hinv (hsubperm.subset hp))
  · exact ⟨hinv, ⟨refl _, refl _, fun _ _ _ => rfl⟩, trivial⟩

/-! ## Parts of a call -/

section Parts

variable {K : Assertion (batchContract i Set.univ)}

/-- A part that works on one payload keeps what is known of the others. -/
def Apart (K : Assertion (batchContract i Set.univ)) (id : String) : Prop :=
  ∀ w w', (batchContract i {id}).guar w w' → K w → K w'

theorem triple_part {α : Type} {p : BatchProgram α} {E : Assertion (batchContract i {id})}
    (hK : Apart K id) (hp : BatchTriple i {id} (knows i {id} id Unsettled) p (fun _ => .top) E) :
    BatchTriple i Set.univ ((knows i Set.univ id Unsettled).and K) p (fun _ => K) .top := by
  have hframed := triple_within (batchContract_within (Set.subset_univ {id})) hK hp
  exact triple_pre (triple_post hframed fun _ _ _ h => h.2) fun w _ h => ⟨knows_within h.1 rfl, h.2⟩

theorem triple_markOne (hK : Apart K id) (message : String) :
    BatchTriple i Set.univ ((knows i Set.univ id Unsettled).and K)
      (markAsFailed id message 1) (fun _ => K) .top :=
  triple_part hK (triple_markAsFailed message 1 (E := .top))

theorem triple_parts {κ α : Type} {key : κ → String} {f : κ → BatchProgram α} {items : List κ}
    (hnodup : (items.map key).Nodup) (h : ∀ x ∈ items, BatchTriple i {key x}
      (knows i {key x} (key x) Unsettled) (f x) (fun _ => .top)
      (knows i {key x} (key x) Unsettled)) :
    BatchTriple i Set.univ (knowsAll i Set.univ key (fun _ => Unsettled) items)
      (allSettled batchTurns (items.map f))
      (fun results => (knowsFailed i Set.univ key items results).given
        (results.length = items.length)) .top := by
  have hall := triple_allSettled (φ := fun _ => Unsettled) (b := True) hnodup
    fun x hx => triple_pre (h x hx) fun _ _ hknows => hknows trivial
  have hframed := triple_within (batchContract_within (Set.subset_univ _))
    (K := .top) (fun _ _ _ _ => trivial) hall
  refine triple_pre (triple_post hframed fun results w _ hfailed => ?_)
    fun w _ hknows => ⟨fun _ x hx => ?_, trivial⟩
  · obtain ⟨⟨hlength, hfailed⟩, -⟩ := hfailed
    exact ⟨hlength, fun x hx => knows_within (hfailed x hx) (Set.mem_univ _)⟩
  · exact knows_within (hknows x hx) (mem_map_of_mem hx)

theorem triple_markAll {failures : List (String × String)} (hnodup : (failures.map (·.1)).Nodup) :
    BatchTriple i Set.univ
      (knowsAll i Set.univ (·.1) (fun _ => Unsettled) failures) (markAll failures)
      (fun _ => .top) .top := by
  have hall := triple_parts (ι := ι) (i := i) hnodup
    (f := fun failure => markAsFailed failure.1 failure.2 1) fun failure _ =>
      triple_markAsFailed failure.2 1
  exact triple_bind hall fun _ => triple_return

end Parts

/-! ## Selection -/

theorem triple_select (limit : Option Int) : BatchTriple i Set.univ .top
    (selectPayloads cfg limit) (fun selection => (unsettledAll i selection.expired).given
      ((selection.expired.map (·.id)).Nodup)) .top := by
  refine triple_bind (triple_local_keep rfl) fun now => ?_
  refine triple_bind (triple_find _) fun found => triple_given fun hfound => ?_
  refine triple_bind (triple_local_keep rfl) fun inFlight => ?_
  have hexpired : ∀ w : BatchWorld ι, BatchInv w → readAll i found w →
      ((unsettledAll i (found.filter fun p => p.expiresAt < now)).given
        (((found.filter fun p => p.expiresAt < now).map (·.id)).Nodup)) w := by
    intro w _ hread
    obtain ⟨hnodup, v, hanswer⟩ := hfound
    refine ⟨(filter_sublist.map _).nodup hnodup, unsettledAll_of_read hread fun p hp => ?_⟩
    have hmem := mem_of_mem_filter hp
    refine ⟨hmem, ?_⟩
    rw [(pending_of_answer hanswer hmem).1]
    rfl
  refine triple_ite (fun _ => ?_) fun _ => triple_done hexpired
  exact triple_bind (triple_local_keep rfl) fun _ => triple_done hexpired

theorem triple_markExpired {selection : Selection} (hnodup : (selection.expired.map (·.id)).Nodup) :
    BatchTriple i Set.univ (unsettledAll i selection.expired)
      (markExpired selection) (fun _ => .top) .top := by
  refine triple_pre (triple_markAll ?_) fun w _ h failure hmem => ?_
  · rw [map_map]
    exact hnodup
  · obtain ⟨p, hp, rfl⟩ := mem_map.mp hmem
    exact h p hp

/-! ## Batches -/

/-- What the validation knows of a payload that it has not looked at yet. -/
abbrev uncheckedAll (i : ι) (now : Int) (payloads : List SignedPayload) :
    Assertion (batchContract i Set.univ) :=
  knowsAll i Set.univ SignedPayload.id (fun p row => row = some p ∧
    (p.expiresAt < now → p.status.isSettled = false)) payloads

variable {payloads : List SignedPayload}

theorem triple_validation_clock : BatchTriple i Set.univ (readAll i payloads) (askBatch .now)
    (fun now : Int => uncheckedAll i now payloads) .top := by
  refine triple_local rfl fun w c now w' hread hg hperf _ => ?_
  cases c with
  | served time =>
    cases hperf
    intro p hp
    obtain ⟨-, version, hversion, hle, hrow⟩ := hread p hp
    refine ⟨trivial, version, hversion, hle, fun heq => ⟨hrow heq, fun hexpired => ?_⟩⟩
    by_contra hsettled
    have hmem := mem_of_find?_eq_some (hrow heq)
    refine hg p hmem ?_ (by simpa using hsettled) hexpired
    rw [hversion]
    rfl
  | _ => cases hperf

variable {now : Int}

theorem unsettled_of_unchecked {row : Option SignedPayload}
    (hrow : row = some payload ∧ (payload.expiresAt < now → payload.status.isSettled = false))
    (h : payload.expiresAt < now ∨ payload.status.isSettled = false) : Unsettled row := by
  intro payload' hmem
  rw [hrow.1] at hmem
  cases hmem
  rcases h with hexpired | hunsettled
  · exact hrow.2 hexpired
  · exact hunsettled

theorem triple_validateLoop {payloads valid : List SignedPayload}
    (hnodup : ((payloads ++ valid).map (·.id)).Nodup) :
    BatchTriple i Set.univ ((uncheckedAll i now payloads).and (unsettledAll i valid))
      (validateLoop now payloads valid)
      (fun found => (unsettledAll i found).given ((found.map (·.id)).Nodup)) .top := by
  induction payloads generalizing valid with
  | nil => exact triple_done fun _ _ h => ⟨hnodup, h.2⟩
  | cons payload rest ih =>
    rw [cons_append, map_cons, nodup_cons] at hnodup
    obtain ⟨hfresh, hrest⟩ := hnodup
    have hother : ∀ p ∈ rest ++ valid, p.id ∉ ({payload.id} : Set String) := by
      intro p hp hid
      exact hfresh (Set.mem_singleton_iff.mp hid ▸ mem_map_of_mem hp)
    have hapart : Apart ((uncheckedAll i now rest).and (unsettledAll i valid)) payload.id :=
      fun w w' hguar h =>
        ⟨knowsAll_guar (fun p hp => hother p (mem_append_left _ hp)) hguar h.1,
          knowsAll_guar (fun p hp => hother p (mem_append_right _ hp)) hguar h.2⟩
    have htail : ∀ w, uncheckedAll i now (payload :: rest) w → uncheckedAll i now rest w :=
      fun w h p hp => h p (mem_cons_of_mem payload hp)
    have hmark : ∀ message : String, (payload.expiresAt < now ∨ payload.status.isSettled = false) →
        BatchTriple i Set.univ ((uncheckedAll i now (payload :: rest)).and (unsettledAll i valid))
          (markAsFailed payload.id message 1 >>= fun _ => validateLoop now rest valid)
          (fun found => (unsettledAll i found).given ((found.map (·.id)).Nodup)) .top := by
      intro message hunsettled
      refine triple_bind (triple_pre (triple_markOne hapart message) fun w _ h => ?_)
        fun _ => ih hrest
      refine ⟨⟨trivial, (h.1 payload mem_cons_self).2.mono fun row hrow => ?_⟩, htail w h.1, h.2⟩
      exact unsettled_of_unchecked hrow hunsettled
    have hskip : BatchTriple i Set.univ
        ((uncheckedAll i now (payload :: rest)).and (unsettledAll i valid))
        (validateLoop now rest valid)
        (fun found => (unsettledAll i found).given ((found.map (·.id)).Nodup)) .top :=
      triple_pre (ih hrest) fun w _ h => ⟨htail w h.1, h.2⟩
    refine triple_ite (fun hexpired => hmark _ (Or.inl hexpired)) fun _ =>
      triple_ite (fun _ => hskip) fun hsettled => ?_
    have hunsettled : payload.status.isSettled = false := by simpa using hsettled
    refine triple_ite (fun _ => hmark _ (Or.inr hunsettled)) fun _ => ?_
    refine triple_bind (triple_local_keep rfl) fun inFlight => ?_
    refine triple_ite (fun _ => hskip) fun _ => triple_bind (triple_local_keep rfl) fun _ => ?_
    refine triple_pre (ih ?_) fun w _ h => ⟨htail w h.1, fun p hp => ?_⟩
    · rw [← append_assoc, map_append, map_singleton]
      exact nodup_append.mpr ⟨hrest, nodup_singleton _, fun a ha b hb => by
        rw [mem_singleton.mp hb]
        rintro rfl
        exact hfresh ha⟩
    · rcases mem_append.mp hp with hp | hp
      · exact h.2 p hp
      · obtain rfl := mem_singleton.mp hp
        refine ⟨trivial, (h.1 p mem_cons_self).2.mono fun row hrow => ?_⟩
        exact unsettled_of_unchecked hrow (Or.inr hunsettled)

theorem triple_validatePayloadsForBatch (ids : List String) :
    BatchTriple i Set.univ .top (validatePayloadsForBatch ids)
      (fun found => (unsettledAll i found).given ((found.map (·.id)).Nodup)) .top := by
  refine triple_ite (fun _ => triple_done fun _ _ _ => ⟨nodup_nil, fun p hp => ?_⟩) fun _ => ?_
  · exact (not_mem_nil hp).elim
  refine triple_bind (triple_find _) fun payloads => triple_given fun hfound => ?_
  refine triple_bind triple_validation_clock fun now => ?_
  refine triple_pre (triple_validateLoop ?_) fun w _ h => ⟨h, fun p hp => ?_⟩
  · rw [append_nil]
    exact hfound.1
  · exact (not_mem_nil hp).elim

theorem triple_processOne (payload : SignedPayload) :
    BatchTriple i A (knows i A payload.id Unsettled)
      (processOne cfg payload) (fun _ => .top) .top := by
  refine triple_catch (triple_submitInBatch rfl) (fun _ => triple_return) fun e => ?_
  cases hmessage : e.message? with
  | none =>
    simp only [hmessage]
    exact triple_fail
  | some message =>
    simp only [hmessage]
    exact triple_bind (triple_markAsFailed message 1) fun _ => triple_return

theorem triple_processSequentially (hnodup : (payloads.map (·.id)).Nodup) :
    BatchTriple i Set.univ (unsettledAll i payloads)
      (processSequentially cfg payloads) (fun _ => .top) .top := by
  induction payloads with
  | nil => exact triple_return
  | cons payload rest ih =>
    rw [map_cons, nodup_cons] at hnodup
    have hother : ∀ p ∈ rest, p.id ∉ ({payload.id} : Set String) := by
      intro p hp hid
      exact hnodup.1 (Set.mem_singleton_iff.mp hid ▸ mem_map_of_mem hp)
    have hapart : Apart (unsettledAll i rest) payload.id := fun w w' hguar h =>
      knowsAll_guar hother hguar h
    refine triple_bind (triple_pre (triple_part hapart (triple_processOne cfg payload))
      fun w _ h => ⟨h payload mem_cons_self, fun p hp =>
        h p (mem_cons_of_mem payload hp)⟩) fun result => ?_
    refine triple_bind (triple_local_keep rfl) fun _ => ?_
    exact triple_bind (ih hnodup.2) fun results => triple_return

/-- The failures of a batch are of different payloads that were not submitted. -/
def failedAll (i : ι) (outcome : BatchOutcome) : Assertion (batchContract i Set.univ) :=
  (knowsAll i Set.univ (·.1) (fun _ => Unsettled) outcome.failures).given
    ((outcome.failures.map (·.1)).Nodup)

theorem failures_settle (outcomes : List (SignedPayload × Except Failure String)) :
    ((settle cfg outcomes).failures.map (·.1)).Sublist (outcomes.map (·.1.id)) ∧
      ∀ failure ∈ (settle cfg outcomes).failures, ∃ x ∈ outcomes.filter hasFailed,
        x.1.id = failure.1 := by
  induction outcomes with
  | nil => exact ⟨List.Sublist.refl _, fun failure h => (not_mem_nil h).elim⟩
  | cons outcome rest ih =>
    obtain ⟨payload, result⟩ := outcome
    cases result with
    | ok hash =>
      refine ⟨ih.1.cons _, fun failure hmem => ?_⟩
      obtain ⟨x, hx, hid⟩ := ih.2 failure hmem
      refine ⟨x, ?_, hid⟩
      exact hx
    | error e =>
      cases hmessage : e.message? with
      | none =>
        simp only [settle, hmessage]
        exact ⟨nil_sublist _, fun failure h => (not_mem_nil h).elim⟩
      | some message =>
        simp only [settle, hmessage]
        refine ⟨ih.1.cons_cons _, fun failure hmem => ?_⟩
        rcases mem_cons.mp hmem with rfl | hmem
        · exact ⟨(payload, .error e), by simp [hasFailed], rfl⟩
        · obtain ⟨x, hx, hid⟩ := ih.2 failure hmem
          refine ⟨x, ?_, hid⟩
          exact mem_cons_of_mem _ hx

theorem triple_processConcurrently (hnodup : (payloads.map (·.id)).Nodup) :
    BatchTriple i Set.univ (unsettledAll i payloads)
      (processConcurrently cfg payloads) (failedAll i) .top := by
  refine triple_bind (triple_parts hnodup fun p _ => triple_submitInBatch rfl)
    fun outcomes => triple_given fun hlength => triple_done fun w _ hknown => ?_
  obtain ⟨hsublist, hfailures⟩ := failures_settle cfg (payloads.zip outcomes)
  have hids : (payloads.zip outcomes).map (·.1.id) = payloads.map (·.id) := by
    calc (payloads.zip outcomes).map (·.1.id)
        = ((payloads.zip outcomes).map Prod.fst).map (·.id) := by rw [map_map]; rfl
      _ = payloads.map (·.id) := by rw [map_fst_zip hlength.ge]
  refine ⟨?_, fun failure hmem => ?_⟩
  · rw [hids] at hsublist
    exact hsublist.nodup hnodup
  · obtain ⟨x, hx, hid⟩ := hfailures failure hmem
    have hfailed : knows i Set.univ x.1.id Unsettled w := hknown x hx
    rwa [hid] at hfailed

theorem triple_processPayloads (hnodup : (payloads.map (·.id)).Nodup) :
    BatchTriple i Set.univ (unsettledAll i payloads)
      (processPayloads cfg payloads) (failedAll i) .top := by
  refine triple_ite (fun _ => ?_) fun _ => triple_processConcurrently cfg hnodup
  refine triple_bind (triple_processSequentially cfg hnodup) fun results => ?_
  exact triple_done fun _ _ _ => ⟨nodup_nil, nofun⟩

theorem triple_processBatch (ids : List String) :
    BatchTriple i Set.univ .top (processBatch cfg ids) (failedAll i) .top := by
  refine triple_bind (triple_validatePayloadsForBatch ids) fun payloads =>
    triple_given fun hnodup => ?_
  refine triple_ite (fun _ => triple_done fun _ _ _ => ⟨nodup_nil, nofun⟩) fun _ => ?_
  refine triple_bind (triple_processPayloads cfg hnodup) fun outcome => ?_
  cases hresults : outcome.results with
  | error e => exact triple_done fun _ _ h => h
  | ok results => exact triple_bind (triple_local_keep rfl) fun _ => triple_done fun _ _ h => h

/-! ## Retries -/

theorem triple_retryChunks {chunks : List (List SignedPayload)}
    (hnodup : ∀ chunk ∈ chunks, (chunk.map (·.id)).Nodup) :
    BatchTriple i Set.univ .top (retryChunks cfg chunks) (fun _ => .top) .top := by
  induction chunks with
  | nil => exact triple_return
  | cons chunk rest ih =>
    have hrest := ih fun c hc => hnodup c (mem_cons_of_mem chunk hc)
    have hall := triple_allSettled (ι := ι) (i := i) (b := False)
      (φ := fun _ _ => False) (hnodup chunk mem_cons_self)
      (f := fun p => processWithRetry cfg p.id none) fun p _ =>
        triple_pre (triple_processWithRetry cfg (Set.mem_singleton p.id) none) fun _ _ _ => trivial
    have hframed := triple_within (batchContract_within (Set.subset_univ _))
      (K := .top) (fun _ _ _ _ => trivial) hall
    have hchunk : BatchTriple i Set.univ .top
        (allSettled batchTurns (chunk.map fun p => processWithRetry cfg p.id none))
        (fun _ => .top) .top := by
      exact triple_pre (triple_post hframed fun _ _ _ _ => trivial)
        fun _ _ _ => ⟨fun h => h.elim, trivial⟩
    refine triple_bind hchunk fun outcomes => triple_ofExcept_bind fun results _ => ?_
    refine triple_ite (fun _ => triple_bind (triple_local_keep rfl) fun _ => ?_) fun _ => ?_
    · exact triple_bind hrest fun more => triple_return
    · exact triple_bind hrest fun more => triple_return

theorem nodup_of_chunk {payloads chunk : List SignedPayload} {size : Nat}
    (hnodup : (payloads.map (·.id)).Nodup) (h : chunk ∈ chunksOf size payloads) :
    (chunk.map (·.id)).Nodup := by
  obtain ⟨k, -, rfl⟩ := mem_map.mp h
  exact (((take_sublist _ _).trans (drop_sublist _ _)).map _).nodup hnodup

theorem triple_getRetryablePayloads : BatchTriple i Set.univ .top (getRetryablePayloads cfg)
    (fun payloads => Assertion.top.given ((payloads.map (·.id)).Nodup)) .top := by
  refine triple_bind (triple_local_keep rfl) fun now => ?_
  refine triple_bind (triple_find _) fun found => triple_given fun hfound => ?_
  exact triple_done fun _ _ _ => ⟨(filter_sublist.map _).nodup hfound.1, trivial⟩

theorem triple_retryFailedPayloads (ids : List String) (maxConcurrent : Nat) :
    BatchTriple i Set.univ .top
      (retryFailedPayloads cfg ids maxConcurrent) (fun _ => .top) .top := by
  refine triple_ite (fun _ => ?_) fun _ => ?_
  · exact triple_bind (triple_find _) fun payloads => triple_given fun hfound =>
      triple_pre (triple_retryChunks cfg fun chunk hchunk => nodup_of_chunk hfound.1 hchunk)
        fun _ _ _ => trivial
  · exact triple_bind (triple_getRetryablePayloads cfg) fun payloads => triple_given fun hnodup =>
      triple_retryChunks cfg fun chunk hchunk => nodup_of_chunk hnodup hchunk

/-! ## Calls -/

theorem triple_program (call : BatchCall) : BatchTriple i Set.univ .top
    (call.program cfg) (fun _ => .top) .top := by
  cases call with
  | getPayloadsForBatching limit =>
    exact triple_bind (triple_select cfg limit) fun selection =>
      triple_given fun hnodup => triple_markExpired hnodup
  | processBatch ids =>
    exact triple_bind (triple_processBatch cfg ids) fun outcome =>
      triple_given fun hnodup => triple_markAll hnodup
  | processWithRetry id maxRetries =>
    exact triple_bind (triple_forget (triple_processWithRetry cfg (Set.mem_univ id) maxRetries))
      fun _ => triple_return
  | retryFailedPayloads ids maxConcurrent =>
    exact triple_bind (triple_retryFailedPayloads cfg ids maxConcurrent) fun _ => triple_return

/-! ## Runs -/

omit [DecidableEq ι] in
theorem BatchKept.trans {w'' : BatchWorld ι} (h : BatchKept w w') (h' : BatchKept w' w'') :
    BatchKept w w'' := by
  intro id row hrow hsettled
  obtain ⟨⟨row', hrow', hstatus, hhash⟩, hsubmissions⟩ := h id row hrow hsettled
  obtain ⟨⟨row'', hrow'', hstatus', hhash'⟩, hsubmissions'⟩ := h' id row' hrow' (hstatus ▸ hsettled)
  exact ⟨⟨row'', hrow'', hstatus'.trans hstatus, hhash'.trans hhash⟩,
    hsubmissions'.trans hsubmissions⟩

/-- In every isolated interleaving, what was submitted at some point keeps its status and its
transaction from there on and is not submitted again. -/
theorem submitted_kept_of_isolated {cfg : BatchServiceConfig} {calls : ι → BatchCall}
    (hnodup : (w.rows.map (·.id)).Nodup) {c c' : Pool batchInterface Failure ι (BatchWorld ι) Unit}
    (hreach : Pool.Reach (batchSemantics ι) (isolated ι) (batchPool cfg calls w) c)
    (hlater : Pool.Reach (batchSemantics ι) (isolated ι) c c') : BatchKept c.world c'.world := by
  have hsafe := hreach.keeps batch_compatible hnodup (fun i => triple_program cfg (calls i))
    fun _ => trivial
  exact hlater.preserves batch_compatible hsafe (fun i v v' hguar hkept => hkept.trans hguar.1)
    (fun e => e.elim) (refl c.world)

/-! ### A payload that is submitted once -/

instance : ∀ (i : ι) op c w, Decidable (isolated ι i op c w) := fun i op c w =>
  match op with
  | .findOne id => inferInstanceAs (Decidable ((∀ version ∈ w.seen i id,
      w.versions id = version) ∧ (BatchChoice.fails c = true →
        ¬ ∃ row ∈ w.row id, row.status.isSettled = true)))
  | .save payload => inferInstanceAs (Decidable ((∀ version ∈ w.seen i payload.id,
      w.versions payload.id = version) ∧
        (payload.status = .submitted → BatchChoice.isLost c = false)))
  | .newTransaction id => inferInstanceAs (Decidable (∀ version ∈ w.seen i id,
      w.versions id = version))
  | .now => match c with
    | .served time => inferInstanceAs (Decidable (∀ row ∈ w.rows,
        (w.seen i row.id).isSome = true → row.status.isSettled = true → ¬ row.expiresAt < time))
    | .transaction _ _ | .turn _ | .rejected _ | .lost _ => inferInstanceAs (Decidable True)
  | .find _ | .sleep _ | .inFlight | .markInFlight _ | .clearInFlight _ | .turn =>
    inferInstanceAs (Decidable True)

def batchObserved (c : Pool batchInterface Failure ι (BatchWorld ι) Unit) :
    Option (PayloadStatus × Option String) × Nat :=
  ((c.world.row "p").map fun row => (row.status, row.transactionHash), c.world.submissions "p")

/-- A call that submits the payload, and a batch with it. -/
def submitThenBatch (i : Fin 2) : BatchCall :=
  if i = 0 then .processWithRetry "p" none else .processBatch ["p"]

/-- A payload is submitted, and a batch that holds it leaves it alone. -/
theorem submitted_payload_kept : ∃ c c', Pool.Reach (batchSemantics (Fin 2)) (isolated (Fin 2))
      (batchPool plainBatches submitThenBatch { rows := [batchPayload "s"] }) c ∧
    Pool.Reach (batchSemantics (Fin 2)) (isolated (Fin 2)) c c' ∧
    batchObserved c = (some (.submitted, some "t"), 1) ∧ BatchKept c.world c'.world := by
  have hrun : ((Pool.run (batchSemantics (Fin 2)) (isolated (Fin 2))
      [.call 0 (.served 0), .call 0 (.transaction "t" 0), .call 0 (.served 0), .call 0 (.served 0)]
      (batchPool plainBatches submitThenBatch { rows := [batchPayload "s"] })).bind fun c₁ =>
        (Pool.run (batchSemantics (Fin 2)) (isolated (Fin 2))
          (replicate 2 (.call 1 (.served 0))) c₁).map fun c₂ =>
            (batchObserved c₁, batchObserved c₂)) =
      some ((some (.submitted, some "t"), 1), (some (.submitted, some "t"), 1)) := by
    decide +kernel
  obtain ⟨c, c', hreach, hsubmitted, hlater, -⟩ := Pool.exists_reach_of_run_run hrun
  exact ⟨c, c', hreach, hlater, hsubmitted, submitted_kept_of_isolated (by decide) hreach hlater⟩

/-! ### A payload that has expired -/

def confirmedPayload : SignedPayload :=
  { batchPayload "s" with
    status := .confirmed
    transactionHash := some "t" }

/-- A batch with a confirmed payload whose time has passed marks it as failed. -/
theorem expired_payload_overwritten : ∃ c, Pool.Reach (batchSemantics Unit) (anyStep _)
      (batchPool plainBatches (fun _ => .processBatch ["p"]) { rows := [confirmedPayload] }) c ∧
    ¬ BatchKept (ι := Unit) { rows := [confirmedPayload] } c.world := by
  refine Pool.exists_run
    [.call () (.served 0), .call () (.served 2000), .call () (.served 2000), .call () (.served
      2000)] batchObserved (some (.failed, some "t"), 0) (by decide +kernel)
    fun c hreach hobserved => ?_
  intro hkept
  obtain ⟨⟨row, hrow, hstatus, -⟩, -⟩ := hkept "p" confirmedPayload rfl rfl
  have hfailed : (c.world.row "p").map (fun row => (row.status, row.transactionHash)) =
      some (.failed, some "t") := congrArg Prod.fst hobserved
  rw [hrow] at hfailed
  cases hstatus.symm.trans (congrArg Prod.fst (Option.some.inj hfailed))

end Trellis.Oracle
