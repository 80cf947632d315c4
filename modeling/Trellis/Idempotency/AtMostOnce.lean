import Trellis.Idempotency.Service

/-!
# At most one successful run of the handler

A call runs its handler only after it has inserted the row of its slot. The row stays while it is
fresh, unless a `FAILED` record is saved over it, also when the handler has resolved and only the
save of its response is rejected; then a retry may run the handler again.
-/

namespace Trellis.Idempotency

open Core Function List World

variable {ι : Type}

/-! ## The property -/

/-- Once a call's handler has resolved, no other call for the slot starts its handler
before the record expires. -/
def Event.Respects (earlier later : Event ι) : Prop :=
  match earlier, later with
  | .resolved i slot expiresAt, .started j slot' time => slot = slot' → i ≠ j → expiresAt ≤ time
  | _, _ => True

/-- Every start of a handler respects what was resolved before it. -/
def HandlerOnce (trace : List (Event ι)) : Prop :=
  trace.Pairwise Event.Respects

/-- No call saves a `FAILED` record over its fresh row after its handler has resolved, and
none starts its handler with an expired claim. -/
def noReopening (ι : Type) : Guard (idempotencySemantics ι) :=
  fun i op c w => match op with
    | .save record => record.status = .failed → Choice.applies c = true →
        .resolved i record.slot record.expiresAt ∈ w.trace → record.expiresAt ≤ w.clock
    | .startHandler record => w.clock < record.expiresAt
    | _ => True

/-! ## The invariant -/

/-- The record was inserted, and `P` holds of its insertion. -/
def World.Inserted (w : World ι) (record : IdempotencyRecord) (P : Claim ι → Prop) : Prop :=
  ∃ id claim, record.id = some id ∧ w.claims.get id = some claim ∧ claim.slot = record.slot ∧
    claim.expiresAt = record.expiresAt ∧ P claim

structure ClaimsInv (w : World ι) : Prop where
  row : ∀ slot row, w.rows slot = some row → row.slot = slot ∧
    w.Inserted row fun claim => row.status = .failed → claim.failed = true
  held : ∀ id claim, w.claims.get id = some claim → claim.failed = false →
    w.clock < claim.expiresAt → ∃ row, w.rows claim.slot = some row ∧ row.id = some id
  resolved : ∀ i slot expiresAt, .resolved i slot expiresAt ∈ w.trace →
    expiresAt ≤ w.clock ∨ ∃ id claim, w.claims.get id = some claim ∧ claim.owner = i ∧
      claim.slot = slot ∧ claim.expiresAt = expiresAt ∧ claim.failed = false
  once : HandlerOnce w.trace

/-- Insertions are remembered, and failures are not taken back. -/
structure Claim.Grows (claim claim' : Claim ι) : Prop where
  owner : claim'.owner = claim.owner
  slot : claim'.slot = claim.slot
  expiresAt : claim'.expiresAt = claim.expiresAt
  failed : claim.failed = true → claim'.failed = true

structure World.Grows (w w' : World ι) : Prop where
  clock : w.clock ≤ w'.clock
  claims : ∀ id claim, w.claims.get id = some claim →
    ∃ claim', w'.claims.get id = some claim' ∧ claim.Grows claim'

def claimContract (i : ι) : Contract (World ι) where
  inv := ClaimsInv
  rely w w' := w.Grows w' ∧
    ∀ id claim, w.claims.get id = some claim → claim.owner = i → w'.claims.get id = some claim
  guar w w' := w.Grows w' ∧
    ∀ id claim, w.claims.get id = some claim → claim.owner ≠ i → w'.claims.get id = some claim

abbrev ClaimFact (i : ι) : Type :=
  Assertion (claimContract i)

theorem Claim.Grows.refl (claim : Claim ι) : claim.Grows claim :=
  ⟨rfl, rfl, rfl, fun h => h⟩

variable {w w' : World ι} {i : ι}

theorem guar_of_claims_eq (hclock : w.clock ≤ w'.clock)
    (hclaims : w'.claims = w.claims) : (claimContract i).guar w w' := by
  refine ⟨⟨hclock, fun id claim h => ⟨claim, ?_, .refl claim⟩⟩, fun id claim h _ => ?_⟩
  · rw [hclaims]
    exact h
  · rw [hclaims]
    exact h

variable {record : IdempotencyRecord}

theorem World.Inserted.grows (h : w.Grows w') {P P' : Claim ι → Prop}
    (hP : ∀ claim claim' : Claim ι, claim.Grows claim' → P claim → P' claim')
    (hinserted : w.Inserted record P) : w'.Inserted record P' := by
  rcases hinserted with ⟨id, claim, hid, hget, hslot, hexpires, hclaim⟩
  rcases h.claims id claim hget with ⟨claim', hget', hgrows⟩
  exact ⟨id, claim', hid, hget', hgrows.slot.trans hslot, hgrows.expiresAt.trans hexpires,
    hP claim claim' hgrows hclaim⟩

section Moves

variable {w : World ι}

theorem ClaimsInv.start (now : Nat) : ClaimsInv (start now : World ι) := by
  constructor
  · intro slot row h
    cases h
  · intro id claim h
    cases h
  · intro i slot expiresAt h
    cases h
  · exact List.Pairwise.nil

variable (hw : ClaimsInv w)
include hw

theorem ClaimsInv.tick (ms : Nat) : ClaimsInv { w with clock := w.clock + ms } :=
  { hw with
    held id claim hget hfailed hfresh := hw.held id claim hget hfailed (by
      simp only at hfresh
      omega)
    resolved i slot expiresAt hmem := by
      rcases hw.resolved i slot expiresAt hmem with hexpired | hclaim
      · left
        simp only
        omega
      · exact Or.inr hclaim }

/-! ## Handlers -/

theorem ClaimsInv.owner_unique {id id' : Nat} {claim claim' : Claim ι}
    (hget : w.claims.get id = some claim) (hget' : w.claims.get id' = some claim')
    (hfailed : claim.failed = false) (hfailed' : claim'.failed = false)
    (hfresh : w.clock < claim.expiresAt) (hfresh' : w.clock < claim'.expiresAt)
    (hslot : claim.slot = claim'.slot) : claim.owner = claim'.owner := by
  rcases hw.held id claim hget hfailed hfresh with ⟨row, hrow, hid⟩
  rcases hw.held id' claim' hget' hfailed' hfresh' with ⟨row', hrow', hid'⟩
  rw [hslot, hrow'] at hrow
  cases hrow
  rw [hid] at hid'
  cases hid'
  rw [hget] at hget'
  cases hget'
  rfl

variable (howned : w.Inserted record fun claim => claim.owner = i ∧ claim.failed = false)
include howned

theorem ClaimsInv.startHandler (hfresh : w.clock < record.expiresAt) :
    ClaimsInv { w with trace := w.trace ++ [.started i record.slot w.clock] } :=
  { hw with
    resolved j slot expiresAt hmem := by
      rcases mem_append.mp hmem with hold | hnew
      · exact hw.resolved j slot expiresAt hold
      · cases mem_singleton.mp hnew
    once := by
      refine pairwise_append.mpr ⟨hw.once, pairwise_singleton _ _, ?_⟩
      intro earlier hearlier later hlater
      rw [mem_singleton.mp hlater]
      cases earlier with
      | started j slot time => trivial
      | resolved j slot expiresAt =>
        intro hslot hne
        rcases hw.resolved j slot expiresAt hearlier with hexpired | hclaim
        · exact hexpired
        · -- the other call's record is fresh, so the row would be its and ours
          by_contra hother
          rcases hclaim with ⟨id', claim', hget', howner', hslot', rfl, hfailed'⟩
          rcases howned with ⟨id, claim, _, hget, hcslot, hexpires, rfl, hfailed⟩
          have hsame := hw.owner_unique hget' hget hfailed' hfailed (not_le.mp hother)
            (by omega) (by rw [hslot', hcslot, hslot])
          exact hne (howner'.symm.trans hsame) }

theorem ClaimsInv.awaitHandler :
    ClaimsInv { w with trace := w.trace ++ [.resolved i record.slot record.expiresAt] } :=
  { hw with
    resolved j slot expiresAt hmem := by
      rcases mem_append.mp hmem with hold | hnew
      · exact hw.resolved j slot expiresAt hold
      · cases mem_singleton.mp hnew
        rcases howned with ⟨id, claim, _, hget, hslot, hexpires, howner, hfailed⟩
        exact Or.inr ⟨id, claim, hget, howner, hslot, hexpires, hfailed⟩
    once := by
      refine pairwise_append.mpr ⟨hw.once, pairwise_singleton _ _, ?_⟩
      intro earlier _ later hlater
      rw [mem_singleton.mp hlater]
      cases earlier <;> trivial }

omit howned

omit hw

/-! ## Saves and removals -/

theorem save_cases {record stored : IdempotencyRecord} {w' : World ι}
    (h : w.save i record = .ok (stored, w')) : (record.id = none ∧ w.rows record.slot = none ∧
        stored = { record with id := some w.claims.next } ∧ w' = w.insert i record) ∨
      ∃ id, record.id = some id ∧ (∀ row, w.rows record.slot = some row → row.id = some id) ∧
        stored = record ∧ w' = w.update id record := by
  cases hid : record.id with
  | none =>
    cases hrow : w.rows record.slot with
    | none =>
      simp only [World.save, hid, hrow] at h
      cases h
      exact Or.inl ⟨rfl, rfl, rfl, rfl⟩
    | some row =>
      simp only [World.save, hid, hrow] at h
      cases h
  | some id =>
    cases hrow : w.rows record.slot with
    | none =>
      simp only [World.save, hid, hrow] at h
      cases h
      exact Or.inr ⟨id, rfl, fun row h => (by cases h), rfl, rfl⟩
    | some row =>
      simp only [World.save, hid, hrow] at h
      split at h
      · rename_i hsame
        cases h
        refine Or.inr ⟨id, rfl, fun row' hrow' => ?_, rfl, rfl⟩
        cases hrow'
        exact hsame
      · cases h

theorem rows_write_self (w : World ι) (record : IdempotencyRecord) :
    (w.write record).rows record.slot = some record :=
  update_self _ _ _

theorem rows_write_of_ne (w : World ι) {slot : Slot}
    (h : slot ≠ record.slot) : (w.write record).rows slot = w.rows slot :=
  update_of_ne h _ _

theorem guar_insert (w : World ι) (i : ι) (record : IdempotencyRecord) :
    (claimContract i).guar w (w.insert i record) := by
  refine ⟨⟨le_refl _, fun id claim h => ⟨claim, ?_, .refl claim⟩⟩, fun id claim h _ => ?_⟩
  · exact w.claims.get_push_of_some _ h
  · exact w.claims.get_push_of_some _ h

theorem ClaimsInv.insert (hw : ClaimsInv w) (i : ι)
    (hempty : w.rows record.slot = none) : ClaimsInv (w.insert i record) where
  row slot row hrow := by
    by_cases hslot : slot = record.slot
    · subst hslot
      have hwritten : (w.insert i record).rows record.slot =
          some { record with id := some w.claims.next } := update_self _ _ _
      rw [hwritten] at hrow
      cases hrow
      refine ⟨rfl, w.claims.next, _, rfl, w.claims.get_push_self _, rfl, rfl, ?_⟩
      intro hfailed
      exact decide_eq_true hfailed
    · have hbefore : w.rows slot = some row := by
        rw [← hrow]
        exact (update_of_ne hslot _ _).symm
      rcases hw.row slot row hbefore with ⟨hrslot, hinserted⟩
      exact ⟨hrslot, hinserted.grows (guar_insert w i record).1
        fun claim claim' hgrows h hfailed => hgrows.failed (h hfailed)⟩
  held id claim hget hfailed hfresh := by
    rcases w.claims.get_push_cases hget with ⟨rfl, rfl⟩ | hold
    · exact ⟨_, update_self _ _ _, rfl⟩
    · rcases hw.held id claim hold hfailed hfresh with ⟨row, hrow, hid⟩
      have hne : claim.slot ≠ record.slot := by
        intro heq
        rw [heq, hempty] at hrow
        cases hrow
      exact ⟨row, (update_of_ne hne _ _).trans hrow, hid⟩
  resolved j slot expiresAt hmem := by
    rcases hw.resolved j slot expiresAt hmem with hexpired | hclaim
    · exact Or.inl hexpired
    · rcases hclaim with ⟨id, claim, hget, hrest⟩
      exact Or.inr ⟨id, claim, w.claims.get_push_of_some _ hget, hrest⟩
  once := hw.once

theorem Claim.Grows.noted (claim : Claim ι) (status : RecordStatus) :
    claim.Grows (claim.noted status) :=
  ⟨rfl, rfl, rfl, fun h => by simp [h]⟩

theorem grows_update (w : World ι) (record : IdempotencyRecord) (id : Nat) :
    w.Grows (w.update id record) := by
  refine ⟨le_refl _, fun n claim h => ?_⟩
  by_cases hn : n = id
  · subst hn
    exact ⟨_, w.claims.get_modify_self _ h, .noted claim record.status⟩
  · exact ⟨claim, (w.claims.get_modify_of_ne _ hn).trans h, .refl claim⟩

theorem ClaimsInv.update (hw : ClaimsInv w) {id : Nat} (hid : record.id = some id)
    (hrow : ∀ row, w.rows record.slot = some row → row.id = some id)
    (howned : w.Inserted record fun claim => claim.owner = i ∧ claim.failed = false)
    (hguard : record.status = .failed → .resolved i record.slot record.expiresAt ∈ w.trace →
      record.expiresAt ≤ w.clock) : ClaimsInv (w.update id record) where
  row slot row hrow' := by
    by_cases hslot : slot = record.slot
    · subst hslot
      have hwritten : (w.update id record).rows record.slot = some record :=
        rows_write_self w record
      rw [hwritten] at hrow'
      cases hrow'
      rcases howned with ⟨id', claim, hid', hget, hcslot, hexpires, _⟩
      rw [hid] at hid'
      cases hid'
      refine ⟨rfl, id, _, hid, w.claims.get_modify_self _ hget, hcslot, hexpires, ?_⟩
      intro hfailed
      simp [hfailed]
    · have hbefore : w.rows slot = some row := by
        rw [← hrow']
        exact (rows_write_of_ne w hslot).symm
      rcases hw.row slot row hbefore with ⟨hrslot, hinserted⟩
      exact ⟨hrslot, hinserted.grows (grows_update w record id)
        fun claim claim' hgrows h hfailed => hgrows.failed (h hfailed)⟩
  held n claim hget hfailed hfresh := by
    rcases w.claims.get_modify_cases hget with ⟨rfl, old, hold, rfl⟩ | ⟨hne, hold⟩
    · rcases howned with ⟨id', claim, hid', hget', hcslot, _⟩
      rw [hid] at hid'
      cases hid'
      rw [hold] at hget'
      cases hget'
      refine ⟨record, ?_, hid⟩
      rw [Claim.noted_slot, hcslot]
      exact rows_write_self w record
    · rcases hw.held n claim hold hfailed hfresh with ⟨row, hrow', hrid⟩
      have hslot : claim.slot ≠ record.slot := by
        intro heq
        rw [heq] at hrow'
        have hsame := hrow row hrow'
        rw [hrid] at hsame
        cases hsame
        exact hne rfl
      exact ⟨row, (rows_write_of_ne w hslot).trans hrow', hrid⟩
  resolved j slot expiresAt hmem := by
    rcases hw.resolved j slot expiresAt hmem with hexpired | hclaim
    · exact Or.inl hexpired
    · rcases hclaim with ⟨n, claim, hget, howner, hslot, hexpires, hfailed⟩
      by_cases hn : n = id
      · subst hn
        rcases howned with ⟨id', claim', hid', hget', hcslot, hcexpires, hcowner, _⟩
        rw [hid] at hid'
        cases hid'
        rw [hget] at hget'
        cases hget'
        by_cases hstatus : record.status = .failed
        · left
          have hmem' : Event.resolved i record.slot record.expiresAt ∈ w.trace := by
            rw [← hcowner, ← hcslot, ← hcexpires, howner, hslot, hexpires]
            exact hmem
          rw [← hexpires, hcexpires]
          exact hguard hstatus hmem'
        · right
          refine ⟨n, _, w.claims.get_modify_self _ hget, howner, hslot, hexpires, ?_⟩
          simp [hfailed, hstatus]
      · exact Or.inr ⟨n, claim, (w.claims.get_modify_of_ne _ hn).trans hget, howner, hslot,
          hexpires, hfailed⟩
  once := hw.once

theorem ClaimsInv.remove (hw : ClaimsInv w) (hremovable : w.Inserted record fun claim =>
    claim.failed = true ∨ claim.expiresAt ≤ w.clock) : ClaimsInv (w.remove record) := by
  unfold World.remove
  split
  · rename_i row hrow
    split
    · rename_i hsame
      rcases hremovable with ⟨id, claim, hid, hget, _, _, hdead⟩
      refine ⟨?_, ?_, hw.resolved, hw.once⟩
      · intro slot row' hrow'
        by_cases hslot : slot = record.slot
        · subst hslot
          simp only [update_self] at hrow'
          cases hrow'
        · simp only [update_of_ne hslot] at hrow'
          exact hw.row slot row' hrow'
      · intro n claim' hget' hfailed hfresh
        rcases hw.held n claim' hget' hfailed hfresh with ⟨row', hrow', hrid⟩
        have hslot : claim'.slot ≠ record.slot := by
          intro heq
          rw [heq, hrow] at hrow'
          cases hrow'
          rw [hsame, hid] at hrid
          cases hrid
          rw [hget] at hget'
          cases hget'
          rcases hdead with hfail | hexpired
          · rw [hfailed] at hfail
            cases hfail
          · exact absurd hfresh (not_lt.mpr hexpired)
        exact ⟨row', (update_of_ne hslot _ _).trans hrow', hrid⟩
    · exact hw
  · exact hw

end Moves

/-! ## What a call knows -/

/-- The program keeps the contract of call `i`. -/
abbrev Keeps (i : ι) {α : Type} (P : ClaimFact i) (p : Program α)
    (R : α → ClaimFact i) (E : ClaimFact i) : Prop :=
  Triple (idempotencySemantics ι) (noReopening ι) i P p R E

section Assertions

variable (i : ι)

/-- The call has inserted the record, and it has not failed. -/
def owned (record : IdempotencyRecord) : ClaimFact i where
  holds w := w.Inserted record fun claim => claim.owner = i ∧ claim.failed = false
  stable w w' hmove h := by
    rcases h with ⟨id, claim, hid, hget, hslot, hexpires, howner, hfailed⟩
    exact ⟨id, claim, hid, hmove.2.2.2 id claim hget howner, hslot, hexpires, howner, hfailed⟩

def seen (records : Option IdempotencyRecord) : ClaimFact i where
  holds w := ∀ record ∈ records, w.Inserted record fun claim =>
    record.status = .failed → claim.failed = true
  stable _ _ hmove h record hrecord :=
    (h record hrecord).grows hmove.2.2.1 fun _ _ hgrows hstatus hfailed =>
      hgrows.failed (hstatus hfailed)

def dead (record : IdempotencyRecord) : ClaimFact i where
  holds w := w.Inserted record fun claim => claim.failed = true ∨ claim.expiresAt ≤ w.clock
  stable w w' hmove h :=
    h.grows hmove.2.2.1 fun claim claim' hgrows hdead => by
      rcases hdead with hfailed | hexpired
      · exact Or.inl (hgrows.failed hfailed)
      · right
        rw [hgrows.expiresAt]
        exact hexpired.trans hmove.2.2.1.clock

/-- It is `time` or later. -/
def since (time : Nat) : ClaimFact i where
  holds w := time ≤ w.clock
  stable _ _ hmove h := le_trans h hmove.2.2.1.clock

end Assertions

section Operations

variable {i : ι} {P : ClaimFact i}

theorem guar_refl (w : World ι) : (claimContract i).guar w w :=
  guar_of_claims_eq (le_refl _) rfl

theorem keeps_now : Keeps i P now (fun time => P.and (since i time)) .top := by
  refine triple_call fun w c r w' hinv hP _ hperf => ?_
  cases hperf
  exact ⟨hinv, guar_refl w, hP, le_refl _⟩

theorem keeps_findOne (slot : Slot) :
    Keeps i P (findOne slot) (fun found => seen i found) .top := by
  refine triple_call fun w c r w' hinv _ _ hperf => ?_
  cases c with
  | served =>
    cases hperf
    refine ⟨hinv, guar_refl w, ?_⟩
    intro record hrecord
    exact (hinv.row slot record hrecord).2
  | rejected e =>
    cases hperf
    exact ⟨hinv, guar_refl w, trivial⟩
  | lost e => cases hperf
  | handled result => cases hperf

theorem guar_remove (w : World ι) (record : IdempotencyRecord) :
    (claimContract i).guar w (w.remove record) := by
  unfold World.remove
  split
  · split
    · exact guar_of_claims_eq (le_refl _) rfl
    · exact guar_refl w
  · exact guar_refl w

theorem keeps_remove (record : IdempotencyRecord) :
    Keeps i (dead i record) (remove record) (fun _ => .top) .top := by
  refine triple_call fun w c r w' hinv hdead _ hperf => ?_
  cases c with
  | served =>
    cases hperf
    exact ⟨hinv.remove hdead, guar_remove w record, trivial⟩
  | rejected e =>
    cases hperf
    exact ⟨hinv, guar_refl w, trivial⟩
  | lost e =>
    cases hperf
    exact ⟨hinv.remove hdead, guar_remove w record, trivial⟩
  | handled result => cases hperf

variable {r : Except Failure IdempotencyRecord}

theorem perform_save {c : Choice}
    (h : perform i c (.save record) w = some (r, w')) : (w' = w ∧ ∃ e, r = .error e) ∨
      (c.applies = true ∧ ∃ stored, w.save i record = .ok (stored, w') ∧
        ∀ a, r = .ok a → a = stored) := by
  cases c with
  | served =>
    cases hsave : w.save i record with
    | ok result =>
      simp only [perform, hsave] at h
      cases h
      exact Or.inr ⟨rfl, _, rfl, fun a ha => by cases ha; rfl⟩
    | error e =>
      simp only [perform, hsave] at h
      cases h
      exact Or.inl ⟨rfl, e, rfl⟩
  | rejected e =>
    cases h
    exact Or.inl ⟨rfl, e, rfl⟩
  | lost e =>
    cases hsave : w.save i record with
    | ok result =>
      simp only [perform, hsave] at h
      cases h
      exact Or.inr ⟨rfl, _, rfl, fun a ha => by cases ha⟩
    | error e' =>
      simp only [perform, hsave] at h
      cases h
      exact Or.inl ⟨rfl, e, rfl⟩
  | handled result => cases h

theorem keeps_insert (hid : record.id = none) (hstatus : record.status ≠ .failed) :
    Keeps i P (save record) (fun stored => owned i stored) .top := by
  refine triple_call fun w c r w' hinv _ _ hperf => ?_
  rcases perform_save (i := i) hperf with ⟨rfl, e, rfl⟩ | ⟨_, stored, hsave, hr⟩
  · exact ⟨hinv, guar_refl w', trivial⟩
  · rcases save_cases hsave with ⟨_, hempty, rfl, rfl⟩ | ⟨id, hsome, _⟩
    · refine ⟨hinv.insert i hempty, guar_insert w i record, ?_⟩
      cases r with
      | error e => trivial
      | ok a =>
        rw [hr a rfl]
        refine ⟨w.claims.next, _, rfl, w.claims.get_push_self _, rfl, rfl, rfl, ?_⟩
        exact decide_eq_false hstatus
    · rw [hid] at hsome
      cases hsome

theorem guar_update {w : World ι} {id : Nat} {claim : Claim ι} (hget : w.claims.get id = some claim)
    (howner : claim.owner = i) : (claimContract i).guar w (w.update id record) := by
  refine ⟨grows_update w record id, fun n other hother hne => ?_⟩
  have hn : n ≠ id := by
    rintro rfl
    rw [hget] at hother
    cases hother
    exact hne howner
  exact (w.claims.get_modify_of_ne _ hn).trans hother

theorem save_owned {c : Choice} (hinv : ClaimsInv w) (howned : (owned i record).holds w)
    (hguard : noReopening ι i (.save record) c w)
    (hperf : perform i c (.save record) w = some (r, w')) :
    ClaimsInv w' ∧ (claimContract i).guar w w' ∧
      (record.status ≠ .failed → (owned i record).holds w') := by
  rcases perform_save hperf with ⟨rfl, _⟩ | ⟨happlies, stored, hsave, _⟩
  · exact ⟨hinv, guar_refl w', fun _ => howned⟩
  · rcases howned with ⟨id, claim, hid, hget, hslot, hexpires, howner, hfailed⟩
    rcases save_cases hsave with ⟨hnone, _⟩ | ⟨id', hid', hrow, _, rfl⟩
    · rw [hid] at hnone
      cases hnone
    · rw [hid] at hid'
      cases hid'
      refine ⟨hinv.update hid hrow ⟨id, claim, hid, hget, hslot, hexpires, howner, hfailed⟩
        fun hstatus => hguard hstatus happlies, guar_update hget howner, fun hstatus => ?_⟩
      refine ⟨id, _, hid, w.claims.get_modify_self _ hget, hslot, hexpires, howner, ?_⟩
      simp [hfailed, hstatus]

theorem keeps_save (record : IdempotencyRecord) :
    Keeps i (owned i record) (save record) (fun _ => .top) .top := by
  refine triple_call fun w c r w' hinv howned hguard hperf => ?_
  rcases save_owned hinv howned hguard hperf with ⟨hinv', hguar, _⟩
  refine ⟨hinv', hguar, ?_⟩
  cases r with
  | ok a => trivial
  | error e => trivial

theorem keeps_saveCompleted (hstatus : record.status ≠ .failed) :
    Keeps i (owned i record) (save record) (fun _ => owned i record) (owned i record) := by
  refine triple_call fun w c r w' hinv howned hguard hperf => ?_
  rcases save_owned hinv howned hguard hperf with ⟨hinv', hguar, hkept⟩
  refine ⟨hinv', hguar, ?_⟩
  cases r with
  | ok a => exact hkept hstatus
  | error e => exact hkept hstatus

theorem keeps_startHandler (record : IdempotencyRecord) :
    Keeps i (owned i record) (startHandler record) (fun _ => owned i record) .top := by
  refine triple_call fun w c r w' hinv howned hguard hperf => ?_
  cases hperf
  exact ⟨hinv.startHandler howned hguard, guar_of_claims_eq (le_refl _) rfl, howned⟩

theorem keeps_awaitHandler (record : IdempotencyRecord) :
    Keeps i (owned i record) (awaitHandler record) (fun _ => owned i record) (owned i record) := by
  refine triple_call fun w c r w' hinv howned _ hperf => ?_
  cases c with
  | handled result =>
    cases result with
    | ok response =>
      cases hperf
      exact ⟨hinv.awaitHandler howned, guar_of_claims_eq (le_refl _) rfl, howned⟩
    | error e =>
      cases hperf
      exact ⟨hinv, guar_refl w, howned⟩
  | served => cases hperf
  | rejected e => cases hperf
  | lost e => cases hperf

end Operations

/-! ## The service -/

section Service

variable {i : ι} {P : ClaimFact i}

theorem keeps_resolveExisting (existing : IdempotencyRecord) (requestHash key : String) :
    Keeps i (seen i (some existing)) (resolveExisting existing requestHash key)
      (fun _ => .top) .top := by
  unfold resolveExisting
  split
  · exact triple_fail
  · refine triple_bind keeps_now fun current => ?_
    split
    · rename_i hexpired
      refine triple_bind (triple_pre (keeps_remove existing) fun w _ hP => ?_)
        fun _ => triple_return
      rcases hP.1 existing rfl with ⟨id, claim, hid, hget, hslot, hexpires, _⟩
      have htime : current ≤ w.clock := hP.2
      exact ⟨id, claim, hid, hget, hslot, hexpires, Or.inr (by omega)⟩
    · split
      · exact triple_return
      · exact triple_fail
      · rename_i hstatus
        refine triple_bind (triple_pre (keeps_remove existing) fun w _ hP => ?_)
          fun _ => triple_return
        rcases hP.1 existing rfl with ⟨id, claim, hid, hget, hslot, hexpires, hfailed⟩
        exact ⟨id, claim, hid, hget, hslot, hexpires, Or.inl (hfailed hstatus)⟩

variable (params : ExecuteParams)

theorem keeps_lookup (key : String) : Keeps i P (lookup params key) (fun _ => .top) .top := by
  refine triple_bind (keeps_findOne _) fun existing => ?_
  cases existing with
  | some existing => exact keeps_resolveExisting existing params.requestHash key
  | none => exact triple_return

def ClaimResult.known (i : ι) : ClaimResult → ClaimFact i
  | .claimed record => owned i record
  | _ => .top

theorem keeps_claimLoop (key : String) (turns : Nat) :
    Keeps i .top (claimLoop params key turns) (ClaimResult.known i) .top := by
  induction turns with
  | zero => exact triple_done fun _ _ _ => trivial
  | succ turns ih =>
    refine triple_bind (keeps_lookup params key) fun outcome => ?_
    cases outcome with
    | some outcome => exact triple_done fun _ _ _ => trivial
    | none =>
      refine triple_bind keeps_now fun current => ?_
      refine triple_bind (R := fun saved => saved.toOption.elim .top (owned i))
        (triple_attempt (keeps_insert rfl (by simp [newClaim])) (fun _ _ _ h => h)
          fun _ _ _ _ => trivial) fun saved => ?_
      cases saved with
      | ok record => exact triple_done fun _ _ h => h
      | error e =>
        simp only
        split
        · exact ih
        · exact triple_fail

theorem keeps_recordFailure (record : IdempotencyRecord) (e : Failure) :
    Keeps i (owned i record) (recordFailure record e) (fun _ => .top) .top :=
  triple_bind (triple_pre (keeps_save _) fun _ _ h => h) fun _ => triple_fail

theorem keeps_runHandler (key : String) (record : IdempotencyRecord) :
    Keeps i (owned i record) (runHandler key record) (fun _ => .top) .top := by
  have hawait : Keeps i (owned i record) (awaitHandler record).attempt
      (fun _ => owned i record) .top :=
    triple_attempt (keeps_awaitHandler record) (fun _ _ _ h => h) fun _ _ _ h => h
  refine triple_bind (keeps_startHandler record) fun _ => ?_
  refine triple_bind hawait fun result => ?_
  cases result with
  | error e => exact keeps_recordFailure record e
  | ok response =>
    have hstatus : (record.complete response).status ≠ .failed := by
      simp [IdempotencyRecord.complete]
    have hsave : Keeps i (owned i record) (save (record.complete response)).attempt
        (fun _ => owned i record) .top :=
      triple_attempt (triple_pre (keeps_saveCompleted hstatus) fun _ _ h => h)
        (fun _ _ _ h => h) fun _ _ _ h => h
    refine triple_bind hsave fun saved => ?_
    cases saved with
    | error e => exact triple_pre (keeps_recordFailure (record.complete response) e) fun _ _ h => h
    | ok _ => exact triple_return

theorem keeps_execute : Keeps i .top (execute params) (fun _ => .top) .top := by
  refine triple_ofExcept_bind fun key _ => ?_
  refine triple_bind (keeps_claimLoop params key 2) fun result => ?_
  cases result with
  | answered outcome => exact triple_return
  | lost => exact triple_fail
  | claimed record => exact keeps_runHandler key record

end Service

/-! ## Runs -/

theorem compatible_claimContract :
    Pool.Compatible (idempotencySemantics ι) claimContract ClaimsInv where
  inv_eq _ := rfl
  guar_rely i j w w' hne hguar := by
    refine ⟨hguar.1, fun id claim hget howner => hguar.2 id claim hget ?_⟩
    rw [howner]
    exact hne
  happen_inv ms w hinv := hinv.tick ms
  happen_rely i ms w _ := by
    refine ⟨⟨?_, fun id claim h => ⟨claim, h, .refl claim⟩⟩, fun _ _ h _ => h⟩
    exact Nat.le_add_right w.clock ms

/-- In every run in which no call saves a `FAILED` record over its fresh row after its
handler has resolved, and none starts its handler with an expired claim, no handler starts
while the record of another call for the slot whose handler has resolved is fresh. -/
theorem handler_runs_once [DecidableEq ι] (now : Nat) (requests : ι → ExecuteParams)
    {c : IdempotencyPool ι}
    (hreach : Pool.Reach (idempotencySemantics ι) (noReopening ι) (startPool now requests) c) :
    HandlerOnce c.world.trace := by
  have hkept := hreach.keeps compatible_claimContract (ClaimsInv.start now)
    (fun i => keeps_execute (requests i)) fun _ => trivial
  exact hkept.world_inv.once

/-! ## Two calls with one key -/

instance : ∀ i op c w, Decidable (noReopening (Fin 2) i op c w) :=
  fun i (op : Op) c w => match op with
    | .save record => inferInstanceAs (Decidable (record.status = .failed →
        Choice.applies c = true → .resolved i record.slot record.expiresAt ∈ w.trace →
          record.expiresAt ≤ w.clock))
    | .startHandler record => inferInstanceAs (Decidable (w.clock < record.expiresAt))
    | .findOne _ | .remove _ | .now | .awaitHandler _ => isTrue trivial

/-- A payment request and its retry, with a record that lives for a minute. -/
def payTwice (_ : Fin 2) : ExecuteParams where
  key := "order-1234"
  scope := "POST:/payments:u1"
  requestHash := "h"
  ttlSeconds := some 60

abbrev Turn : Type :=
  Pool.Pick (idempotencySemantics (Fin 2))

def turn (i : Fin 2) (c : Choice) : Turn :=
  .call i c

def created : Choice :=
  .handled (.ok { statusCode := 201, body := some "p1" })

def paymentSlot : Slot :=
  ("POST:/payments:u1", "order-1234")

/-- The first call claims the slot and its handler resolves. -/
def firstHandler : List Turn :=
  [turn 0 .served, turn 0 .served, turn 0 .served, turn 0 .served, turn 0 created]

/-- A second call finds the stored response. -/
theorem retry_is_replayed : ∃ c, Pool.Reach (idempotencySemantics (Fin 2)) (noReopening (Fin 2))
      (startPool 0 payTwice) c ∧
    c.world.trace = [.started 0 paymentSlot 0, .resolved 0 paymentSlot 60000] ∧
      HandlerOnce c.world.trace := by
  refine Pool.exists_run (firstHandler ++ [turn 0 .served, turn 1 .served, turn 1 .served])
    (fun c => c.world.trace) [.started 0 paymentSlot 0, .resolved 0 paymentSlot 60000]
    (by decide +kernel) fun c hreach htrace => ?_
  exact ⟨htrace, handler_runs_once 0 payTwice hreach⟩

/-- The save of the response is rejected, the record is saved as `FAILED`, and the retry
removes it and starts the handler again. -/
theorem lost_response_runs_handler_again : ∃ c, Pool.Reach (idempotencySemantics (Fin 2))
      (anyStep _) (startPool 0 payTwice) c ∧
    c.world.trace = [.started 0 paymentSlot 0, .resolved 0 paymentSlot 60000,
      .started 1 paymentSlot 0] ∧ ¬HandlerOnce c.world.trace := by
  refine Pool.exists_run (firstHandler ++ [turn 0 (.rejected (.error "connection lost")),
      turn 0 .served] ++ replicate 6 (turn 1 .served)) (·.world.trace) [.started 0 paymentSlot 0,
      .resolved 0 paymentSlot 60000, .started 1 paymentSlot 0] (by decide +kernel)
    fun c hreach htrace => ⟨htrace, ?_⟩
  rw [htrace]
  intro honce
  have hsecond := (pairwise_cons.mp honce).2
  have hlate := (pairwise_cons.mp hsecond).1 _ (mem_singleton.mpr rfl) rfl (by decide)
  exact absurd hlate (by decide)

end Trellis.Idempotency
