import Trellis.Core.RelyGuarantee

/-!
# Interleaved calls over a shared world

A pool is a shared world with one program per caller. A step performs the next operation of one
caller, in any order, or lets the world move by itself. A pool over an arbitrary index type covers
any number of calls starting at any time.
-/

namespace Trellis.Core

open Option

/-- A shared world and the remaining program of every caller. -/
structure Pool (I : Interface) (ε ι W α : Type) where
  world : W
  calls : ι → Async I ε α

-- the numbers of the calls of a small pool
instance neZero_one : NeZero 1 := ⟨nofun⟩

instance neZero_two : NeZero 2 := ⟨nofun⟩

instance neZero_three : NeZero 3 := ⟨nofun⟩

instance neZero_four : NeZero 4 := ⟨nofun⟩

namespace Pool

variable {I : Interface} {ε ι W α : Type} [DecidableEq ι] (S : Semantics I ε ι W) (g : Guard S)

/-- Caller `i` has performed an operation: the world is `w` and its program
continues as `p`. -/
def resume (c : Pool I ε ι W α) (i : ι) (p : Async I ε α) (w : W) : Pool I ε ι W α where
  world := w
  calls := Function.update c.calls i p

inductive Step : Pool I ε ι W α → Pool I ε ι W α → Prop where
  | perform (c : Pool I ε ι W α) (i : ι) (op : I.Op)
      (k : Except ε (I.Res op) → Async I ε α) (choice : S.Choice)
      (r : Except ε (I.Res op)) (w : W) (hcall : c.calls i = .await op k)
      (hguard : g i op choice c.world)
      (hperf : S.perform i op choice c.world = some (r, w)) : Step c (c.resume i (k r) w)
  | happen (c : Pool I ε ι W α) (e : S.Event) : Step c { c with world := S.happen e c.world }

def Reach : Pool I ε ι W α → Pool I ε ι W α → Prop :=
  Relation.ReflTransGen (Step S g)

variable {S g}

/-! ## Soundness of contracts -/

/-- Contracts of different callers that fit together: one invariant, every
guarantee is in everybody else's rely, and so is every move of the world. -/
structure Compatible (S : Semantics I ε ι W) (C : ι → Contract W)
    (inv : W → Prop) : Prop where
  inv_eq : ∀ i, (C i).inv = inv
  guar_rely : ∀ i j w w', i ≠ j → (C j).guar w w' → (C i).rely w w'
  happen_inv : ∀ e w, inv w → inv (S.happen e w)
  happen_rely : ∀ i e w, inv w → (C i).rely w (S.happen e w)

/-- The state of a run of callers that keep their contracts. -/
structure AllSafe (S : Semantics I ε ι W) (g : Guard S) (C : ι → Contract W)
    (inv : W → Prop) (Q : ι → Except ε α → W → Prop) (c : Pool I ε ι W α) : Prop where
  world_inv : inv c.world
  calls_safe : ∀ i, Safe S g i (C i) (Q i) (c.calls i) c.world

variable {C : ι → Contract W} {inv : W → Prop} {Q : ι → Except ε α → W → Prop}
  {c c' : Pool I ε ι W α}

variable (hC : Compatible S C inv)
include hC

theorem Step.allSafe (hstep : Step S g c c') (h : AllSafe S g C inv Q c) :
    AllSafe S g C inv Q c' := by
  cases hstep with
  | perform i op k choice r w hcall hguard hperf =>
    have hi := h.calls_safe i
    rw [hcall] at hi
    obtain ⟨hinv, hguar, hsafe⟩ :=
      hi c.world .refl (by rw [hC.inv_eq]; exact h.world_inv) choice r w hguard hperf
    rw [hC.inv_eq] at hinv
    refine ⟨hinv, fun j => ?_⟩
    by_cases hj : j = i
    · subst hj
      simpa [resume] using hsafe
    · have hmove : (C j).Moves c.world w := by
        refine .single ⟨?_, ?_, hC.guar_rely j i _ _ hj hguar⟩
        · rw [hC.inv_eq]
          exact h.world_inv
        · rw [hC.inv_eq]
          exact hinv
      simpa [resume, hj] using (h.calls_safe j).of_rely hmove
  | happen e =>
    refine ⟨hC.happen_inv e _ h.world_inv, fun j => ?_⟩
    refine (h.calls_safe j).of_rely (.single ⟨?_, ?_, hC.happen_rely j e _ h.world_inv⟩)
    · rw [hC.inv_eq]
      exact h.world_inv
    · rw [hC.inv_eq]
      exact hC.happen_inv e _ h.world_inv

/-- Callers that keep compatible contracts keep them along every run. -/
theorem Reach.safe (hreach : Reach S g c c') (h : AllSafe S g C inv Q c) :
    AllSafe S g C inv Q c' := by
  induction hreach with
  | refl => exact h
  | tail _ hstep ih => exact hstep.allSafe hC ih

/-- Callers whose programs have triples keep their contracts along every run. -/
theorem Reach.keeps {P E : ∀ i, Assertion (C i)} {R : ∀ i, α → Assertion (C i)}
    (hreach : Reach S g c c') (hinv : inv c.world)
    (h : ∀ i, Triple S g i (P i) (c.calls i) (R i) (E i)) (hP : ∀ i, P i c.world) :
    AllSafe S g C inv (fun i => outcome (R i) (E i)) c' := by
  refine hreach.safe hC ⟨hinv, fun i => (h i).safe ?_ (hP i)⟩
  rw [hC.inv_eq]
  exact hinv

omit hC

variable {i : ι} {c : Pool I ε ι W α}

omit [DecidableEq ι] in
theorem AllSafe.ended (hC : Compatible S C inv) (h : AllSafe S g C inv Q c) {r : Except ε α}
    (hend : c.calls i = Async.ofExcept r) : Q i r c.world := by
  have hi := h.calls_safe i
  rw [hend] at hi
  have hinv : (C i).inv c.world := by
    rw [hC.inv_eq]
    exact h.world_inv
  cases r with
  | ok a => exact hi c.world .refl hinv
  | error e => exact hi c.world .refl hinv

theorem Reach.mono {g' : Guard S} (hreach : Reach S g c c')
    (hg : ∀ i op choice w, g i op choice w → g' i op choice w) : Reach S g' c c' := by
  induction hreach with
  | refl => exact .refl
  | tail _ hstep ih =>
    refine ih.tail ?_
    cases hstep with
    | perform i op k choice r w hcall hguard hperf =>
      exact .perform _ i op k choice r w hcall (hg i op choice _ hguard) hperf
    | happen e => exact .happen _ e

/-- What every guarantee and every move of the world preserves, a run preserves. -/
theorem Reach.preserves {P : W → Prop} (hC : Compatible S C inv) (hreach : Reach S g c c')
    (h : AllSafe S g C inv Q c) (hguar : ∀ i w w', (C i).guar w w' → P w → P w')
    (hhappen : ∀ e w, P w → P (S.happen e w)) (hP : P c.world) : P c'.world := by
  induction hreach with
  | refl => exact hP
  | tail hpre hstep ih =>
    cases hstep with
    | perform i op k choice r w hcall hguard hperf =>
      have hall := Reach.safe hC hpre h
      have hi := hall.calls_safe i
      rw [hcall] at hi
      have hinv := hall.world_inv
      rw [← hC.inv_eq i] at hinv
      exact hguar i _ _ (hi _ .refl hinv choice r w hguard hperf).2.1 ih
    | happen e => exact hhappen e _ ih

/-! ## Computed schedules -/

variable (S g)

/-- What the scheduler picks next: an operation of one caller with the outside's
choice, or a move of the world. -/
inductive Pick (S : Semantics I ε ι W) : Type where
  | call (i : ι) (choice : S.Choice)
  | event (e : S.Event)

def Pick.caller {S : Semantics I ε ι W} : Pick S → Option ι
  | .call i _ => some i
  | .event _ => none

def advance [∀ i op c w, Decidable (g i op c w)] (c : Pool I ε ι W α) :
    Pick S → Option (Pool I ε ι W α)
  | .call i choice =>
    match c.calls i with
    | .await op k =>
      if g i op choice c.world then
        (S.perform i op choice c.world).map fun x => c.resume i (k x.1) x.2
      else none
    | _ => none
  | .event e => some { c with world := S.happen e c.world }

def run [∀ i op c w, Decidable (g i op c w)] :
    List (Pick S) → Pool I ε ι W α → Option (Pool I ε ι W α)
  | [], c => some c
  | x :: xs, c => (advance S g c x).bind (run xs)

variable {S g}

theorem advance_of_await [∀ i op c w, Decidable (g i op c w)]
    {op : I.Op} {k : Except ε (I.Res op) → Async I ε α} {choice : S.Choice}
    {r : Except ε (I.Res op)} {w : W} (hcall : c.calls i = .await op k)
    (hguard : g i op choice c.world) (hperf : S.perform i op choice c.world = some (r, w)) :
    advance S g c (.call i choice) = some (c.resume i (k r) w) := by
  simp [advance, hcall, hguard, hperf]

theorem advance_call [∀ i op c w, Decidable (g i op c w)]
    {choice : S.Choice} (h : advance S g c (.call i choice) = some c') :
    ∃ op k r w, c.calls i = .await op k ∧ g i op choice c.world ∧
      S.perform i op choice c.world = some (r, w) ∧ c' = c.resume i (k r) w := by
  simp only [advance] at h
  split at h
  · rename_i op k hcall
    split at h
    · rename_i hguard
      obtain ⟨⟨r, w⟩, hperf, rfl⟩ := map_eq_some_iff.mp h
      exact ⟨op, k, r, w, hcall, hguard, hperf, rfl⟩
    · contradiction
  · contradiction

theorem step_of_advance [∀ i op c w, Decidable (g i op c w)] {x : Pick S}
    (h : advance S g c x = some c') : Step S g c c' := by
  cases x with
  | event e =>
    cases h
    exact .happen c e
  | call i choice =>
    obtain ⟨op, k, r, w, hcall, hguard, hperf, rfl⟩ := advance_call h
    exact .perform c i op k choice r w hcall hguard hperf

variable {xs : List (Pick S)}

theorem reach_of_run [∀ i op c w, Decidable (g i op c w)] (h : run S g xs c = some c') :
    Reach S g c c' := by
  induction xs generalizing c with
  | nil =>
    cases h
    exact .refl
  | cons x xs ih =>
    obtain ⟨c₁, hx, hxs⟩ := bind_eq_some_iff.mp h
    exact .head (step_of_advance hx) (ih hxs)

theorem calls_of_run [∀ i op c w, Decidable (g i op c w)] (h : run S g xs c = some c')
    (hi : some i ∉ xs.map Pick.caller) : c'.calls i = c.calls i := by
  induction xs generalizing c with
  | nil =>
    cases h
    rfl
  | cons x xs ih =>
    obtain ⟨c₁, hx, hxs⟩ := bind_eq_some_iff.mp h
    rw [ih hxs fun hmem => hi (List.mem_cons_of_mem _ hmem)]
    cases x with
    | event e =>
      cases hx
      rfl
    | call j choice =>
      obtain ⟨op, k, r, w, -, -, -, rfl⟩ := advance_call hx
      have hne : i ≠ j := fun heq => hi (heq ▸ List.mem_cons_self)
      exact Function.update_of_ne hne _ _

/-- What is observed after a schedule is observed at the end of a run. -/
theorem exists_reach_of_run [∀ i op c w, Decidable (g i op c w)] {γ : Type}
    {observe : Pool I ε ι W α → γ} {v : γ} (h : (run S g xs c).map observe = some v) :
    ∃ c', Reach S g c c' ∧ observe c' = v := by
  rcases map_eq_some_iff.mp h with ⟨c', hrun, hv⟩
  exact ⟨c', reach_of_run hrun, hv⟩

/-- A run to a pool with a property that what was computed of it gives. -/
theorem exists_run [∀ i op c w, Decidable (g i op c w)] {γ : Type}
    {Q : Pool I ε ι W α → Prop} (xs : List (Pick S)) (observe : Pool I ε ι W α → γ) (v : γ)
    (h : (run S g xs c).map observe = some v)
    (hQ : ∀ c', Reach S g c c' → observe c' = v → Q c') : ∃ c', Reach S g c c' ∧ Q c' := by
  obtain ⟨c', hreach, hv⟩ := exists_reach_of_run h
  exact ⟨c', hreach, hQ c' hreach hv⟩

theorem exists_reach_of_run_run [∀ i op c w, Decidable (g i op c w)] {γ : Type}
    {observe : Pool I ε ι W α → γ} {xs ys : List (Pick S)} {v v' : γ}
    (h : ((run S g xs c).bind fun c₁ => (run S g ys c₁).map fun c₂ =>
      (observe c₁, observe c₂)) = some (v, v')) :
    ∃ c₁ c₂, Reach S g c c₁ ∧ observe c₁ = v ∧ Reach S g c₁ c₂ ∧ observe c₂ = v' := by
  rcases bind_eq_some_iff.mp h with ⟨c₁, hxs, hrest⟩
  rcases map_eq_some_iff.mp hrest with ⟨c₂, hys, hv⟩
  cases hv
  exact ⟨c₁, c₂, reach_of_run hxs, rfl, reach_of_run hys, rfl⟩

end Pool

end Trellis.Core
