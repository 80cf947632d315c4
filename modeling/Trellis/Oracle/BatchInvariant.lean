import Mathlib.Order.CompletePartialOrder
import Trellis.Oracle.SubmissionBatch

/-!
# What the callers of the batch service know

A call reads a payload, decides, and writes it without looking again. This is harmless under
isolation: between two accesses of a call to a payload nobody else writes it.
-/

namespace Trellis.Oracle

open Core

variable {ι : Type}

/-! ## The property -/

/-- What was submitted keeps its status and its transaction, and is not submitted again. -/
def BatchKept (w w' : BatchWorld ι) : Prop :=
  ∀ id row, w.row id = some row → row.status.isSettled = true →
    (∃ row', w'.row id = some row' ∧ row'.status = row.status ∧
      row'.transactionHash = row.transactionHash) ∧ w'.submissions id = w.submissions id

/-! ## The condition -/

def BatchWorld.IsSettled (w : BatchWorld ι) (id : String) : Prop :=
  ∃ row ∈ w.row id, row.status.isSettled = true

/-- Nobody has written the row since the caller has last accessed it. -/
def BatchWorld.Unwritten (w : BatchWorld ι) (i : ι) (id : String) : Prop :=
  ∀ version ∈ w.seen i id, w.versions id = version

/-- No payload that the caller has read was submitted and has expired. -/
def BatchWorld.NoneExpired (w : BatchWorld ι) (i : ι) (time : Int) : Prop :=
  ∀ row ∈ w.rows, (w.seen i row.id).isSome = true → row.status.isSettled = true →
    ¬ row.expiresAt < time

def BatchChoice.fails : BatchChoice → Bool
  | .rejected _ | .lost _ => true
  | .served _ | .transaction _ _ | .turn _ => false

def BatchChoice.isLost : BatchChoice → Bool
  | .lost _ => true
  | _ => false

/-- Between two accesses of a call to a payload nobody else writes it; the read of a submitted
payload does not fail, the answer to the save of a submission is not lost, and no payload that was
submitted has expired when a call that has read it looks at the clock. -/
def isolated (ι : Type) [DecidableEq ι] : Guard (batchSemantics ι) :=
  fun i op c w => match op with
    | .findOne id => w.Unwritten i id ∧ (BatchChoice.fails c = true → ¬ w.IsSettled id)
    | .save payload => w.Unwritten i payload.id ∧
        (payload.status = .submitted → BatchChoice.isLost c = false)
    | .newTransaction id => w.Unwritten i id
    | .now => match (c : BatchChoice) with
        | .served time => w.NoneExpired i time
        | _ => True
    | _ => True

/-! ## Contracts -/

/-- A row that nobody has written is the row that it was. -/
def Evolves (w w' : BatchWorld ι) : Prop :=
  ∀ id, w.versions id ≤ w'.versions id ∧ (w'.versions id = w.versions id → w'.row id = w.row id)

def BatchInv (w : BatchWorld ι) : Prop :=
  (w.rows.map (·.id)).Nodup

/-- The contract of a part of a call of `i` that works on the payloads in `A`. -/
def batchContract (i : ι) (A : Set String) : Contract (BatchWorld ι) where
  inv := BatchInv
  rely w w' := Evolves w w' ∧ ∀ id ∈ A, w'.seen i id = w.seen i id
  guar w w' := BatchKept w w' ∧ Evolves w w' ∧
    ∀ j id, ¬ (j = i ∧ id ∈ A) → w'.seen j id = w.seen j id

variable {i : ι} {A B D : Set String} {id : String} {w w' : BatchWorld ι}

theorem BatchKept.refl (w : BatchWorld ι) : BatchKept w w :=
  fun _ row hrow _ => ⟨⟨row, hrow, rfl, rfl⟩, rfl⟩

theorem Evolves.refl (w : BatchWorld ι) : Evolves w w :=
  fun _ => ⟨le_rfl, fun _ => rfl⟩

theorem batchContract_within (h : A ⊆ B) : (batchContract i A).Within (batchContract i B) where
  inv_eq := rfl
  rely _ _ hrely := ⟨hrely.1, fun id hid => hrely.2 id (h hid)⟩
  guar _ _ hguar := ⟨hguar.1, hguar.2.1, fun j id hnot => hguar.2.2 j id fun hmem =>
    hnot ⟨hmem.1, h hmem.2⟩⟩

theorem batchContract_beside (hA : A ⊆ D) (hB : B ⊆ D) (hAB : Disjoint A B) :
    (batchContract i A).Beside (batchContract i B) (batchContract i D) where
  left := batchContract_within hA
  right := batchContract_within hB
  left_rely _ _ hguar := ⟨hguar.2.1, fun id hid => hguar.2.2 i id fun hmem =>
    Set.disjoint_left.mp hAB hmem.2 hid⟩
  right_rely _ _ hguar := ⟨hguar.2.1, fun id hid => hguar.2.2 i id fun hmem =>
    Set.disjoint_left.mp hAB hid hmem.2⟩
  guar_refl w := ⟨BatchKept.refl w, Evolves.refl w, fun _ _ _ => rfl⟩

theorem batch_compatible [DecidableEq ι] :
    Pool.Compatible (batchSemantics ι) (fun i => batchContract i Set.univ) BatchInv where
  inv_eq _ := rfl
  guar_rely i _ _ _ hij hguar := ⟨hguar.2.1, fun id _ => hguar.2.2 i id fun h => hij h.1⟩
  happen_inv e := e.elim
  happen_rely _ e := e.elim

/-! ## Knowledge -/

/-- The call has read the row, and `φ` holds of it unless somebody has written it since. -/
def Knows (i : ι) (id : String) (φ : Option SignedPayload → Prop) (w : BatchWorld ι) : Prop :=
  ∃ version, w.seen i id = some version ∧ version ≤ w.versions id ∧
    (w.versions id = version → φ (w.row id))

variable {φ ψ : Option SignedPayload → Prop}

theorem Knows.evolve (h : Knows i id φ w) (hevolves : Evolves w w')
    (hseen : w'.seen i id = w.seen i id) : Knows i id φ w' := by
  obtain ⟨version, hversion, hle, hφ⟩ := h
  obtain ⟨hmono, hrow⟩ := hevolves id
  refine ⟨version, hseen.trans hversion, hle.trans hmono, fun heq => ?_⟩
  have hsame : w.versions id = version := le_antisymm (heq ▸ hmono) hle
  rw [hrow (heq.trans hsame.symm)]
  exact hφ hsame

theorem Knows.mono (h : Knows i id φ w) (hφ : ∀ row, φ row → ψ row) : Knows i id ψ w := by
  obtain ⟨version, hversion, hle, hrow⟩ := h
  exact ⟨version, hversion, hle, fun heq => hφ _ (hrow heq)⟩

theorem Knows.holds (h : Knows i id φ w) (hunwritten : w.Unwritten i id) : φ (w.row id) := by
  obtain ⟨version, hversion, -, hrow⟩ := h
  exact hrow (hunwritten version hversion)

def knows (i : ι) (A : Set String) (id : String) (φ : Option SignedPayload → Prop) :
    Assertion (batchContract i A) where
  holds w := id ∈ A ∧ Knows i id φ w
  stable _ _ hmove h := ⟨h.1, h.2.evolve hmove.2.2.1 (hmove.2.2.2 id h.1)⟩

def Unsettled (row : Option SignedPayload) : Prop :=
  ∀ payload ∈ row, payload.status.isSettled = false

section Several

variable {κ : Type}

def knowsAll (i : ι) (A : Set String) (key : κ → String)
    (φ : κ → Option SignedPayload → Prop) (items : List κ) : Assertion (batchContract i A) where
  holds w := ∀ x ∈ items, knows i A (key x) (φ x) w
  stable w w' hmove h x hx := (knows i A (key x) (φ x)).stable w w' hmove (h x hx)

def hasFailed {α : Type} (x : κ × Except Failure α) : Bool :=
  match x.2 with
  | .ok _ => false
  | .error _ => true

def knowsFailed {α : Type} (i : ι) (A : Set String) (key : κ → String) (items : List κ)
    (results : List (Except Failure α)) : Assertion (batchContract i A) :=
  knowsAll i A (fun x : κ × Except Failure α => key x.1) (fun _ => Unsettled)
    ((items.zip results).filter hasFailed)

theorem knows_within {B : Set String} (h : knows i A id φ w) (hid : id ∈ B) : knows i B id φ w :=
  ⟨hid, h.2⟩

theorem knowsAll_guar {B : Set String} {key : κ → String} {φ : κ → Option SignedPayload → Prop}
    {items : List κ} (hB : ∀ x ∈ items, key x ∉ B) (hguar : (batchContract i B).guar w w')
    (h : knowsAll i A key φ items w) : knowsAll i A key φ items w' := by
  intro x hx
  obtain ⟨hmem, hknows⟩ := h x hx
  exact ⟨hmem, hknows.evolve hguar.2.1 (hguar.2.2 i (key x) fun hin => hB x hx hin.2)⟩

end Several

/-! ## Steps -/

theorem row_stored (w : BatchWorld ι) (payload : SignedPayload) (time : Int) (id : String) :
    (w.stored payload time).row id = (w.row id).map fun row =>
      if row.id = payload.id then { payload with updatedAt := time } else row := by
  unfold BatchWorld.row BatchWorld.stored
  rw [List.find?_map]
  congr 2
  funext row
  by_cases hid : row.id = payload.id
  · simp [hid]
  · simp [hid]

theorem id_of_row {row : SignedPayload} (h : w.row id = some row) : row.id = id := by
  simpa using List.find?_some h

variable {payload : SignedPayload}

theorem row_stored_of_ne (hne : id ≠ payload.id) (time : Int) :
    (w.stored payload time).row id = w.row id := by
  rw [row_stored]
  cases hrow : w.row id with
  | none => rfl
  | some row =>
    have hid : row.id ≠ payload.id := by
      rw [id_of_row hrow]
      exact hne
    simp [hid]

theorem BatchInv.stored (hinv : BatchInv w) (payload : SignedPayload) (time : Int) :
    BatchInv (w.stored payload time) := by
  unfold BatchInv BatchWorld.stored
  rw [List.map_map]
  have hids : ((·.id) ∘ fun row : SignedPayload =>
      if row.id = payload.id then { payload with updatedAt := time } else row) =
        fun row : SignedPayload => row.id := by
    funext row
    by_cases hid : row.id = payload.id
    · simp [hid]
    · simp [hid]
  rw [hids]
  exact hinv

theorem evolves_stored (w : BatchWorld ι) (payload : SignedPayload) (time : Int) :
    Evolves w (w.stored payload time) := by
  intro id
  by_cases hid : id = payload.id
  · subst hid
    have hversions : (w.stored payload time).versions payload.id = w.versions payload.id + 1 :=
      Function.update_self _ _ _
    rw [hversions]
    exact ⟨Nat.le_succ _, fun h => absurd h (Nat.succ_ne_self _)⟩
  · have hversions : (w.stored payload time).versions id = w.versions id :=
      Function.update_of_ne hid _ _
    rw [hversions]
    exact ⟨le_rfl, fun _ => row_stored_of_ne hid time⟩

theorem kept_stored (h : Unsettled (w.row payload.id)) (time : Int) :
    BatchKept w (w.stored payload time) := by
  intro id row hrow hsettled
  have hne : id ≠ payload.id := by
    rintro rfl
    rw [h row hrow] at hsettled
    cases hsettled
  exact ⟨⟨row, (row_stored_of_ne hne time).trans hrow, rfl, rfl⟩, rfl⟩

section Touch

variable [DecidableEq ι] {ids : List String}

theorem seen_touch_self (w : BatchWorld ι) (i : ι) (hid : id ∈ ids) :
    (w.touch i ids).seen i id = some (w.versions id) :=
  if_pos ⟨rfl, hid⟩

theorem seen_touch_of_not {j : ι} (h : ¬ (j = i ∧ id ∈ ids)) :
    (w.touch i ids).seen j id = w.seen j id :=
  if_neg h

theorem knows_touch (w : BatchWorld ι) (i : ι) (hid : id ∈ ids)
    (h : φ (w.row id)) : Knows i id φ (w.touch i ids) :=
  ⟨w.versions id, seen_touch_self w i hid, le_rfl, fun _ => h⟩

theorem guar_touch {v : BatchWorld ι} (hkept : BatchKept w v)
    (hevolves : Evolves w v) (hseen : v.seen = w.seen) (hids : ∀ id ∈ ids, id ∈ A) :
    (batchContract i A).guar w (v.touch i ids) := by
  refine ⟨hkept, hevolves, fun j id hnot => ?_⟩
  rw [seen_touch_of_not fun h => hnot ⟨h.1, hids id h.2⟩, hseen]

end Touch

end Trellis.Oracle
