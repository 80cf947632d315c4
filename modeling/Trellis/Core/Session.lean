import Trellis.Core.RelyGuarantee

/-!
# One process that crashes and starts again

A session has a durable world and the program of the attempt that is running. A step performs the
attempt's next operation, lets the world move by itself, or drops the attempt, as a crash between
two operations does, and starts another one.
-/

namespace Trellis.Core

structure Session (I : Interface) (ε W α : Type) where
  world : W
  current : Async I ε α

namespace Session

variable {I : Interface} {ε W α : Type} (S : Semantics I ε Unit W) (g : Guard S)
  (Starts : Async I ε α → Prop)

inductive Step : Session I ε W α → Session I ε W α → Prop where
  | perform (s : Session I ε W α) (op : I.Op)
      (k : Except ε (I.Res op) → Async I ε α) (choice : S.Choice)
      (r : Except ε (I.Res op)) (w : W) (hcurrent : s.current = .await op k)
      (hguard : g () op choice s.world)
      (hperf : S.perform () op choice s.world = some (r, w)) : Step s ⟨w, k r⟩
  | happen (s : Session I ε W α) (e : S.Event) : Step s ⟨S.happen e s.world, s.current⟩
  | restart (s : Session I ε W α) (p : Async I ε α) (hp : Starts p) : Step s ⟨s.world, p⟩

/-- A history of operations, events, crashes and new attempts. -/
def Reach : Session I ε W α → Session I ε W α → Prop :=
  Relation.ReflTransGen (Step S g Starts)

variable {S g Starts} {C : Contract W} {Q : Except ε α → W → Prop}

/-- The contract kept by the session in its current state. -/
structure IsSafe (S : Semantics I ε Unit W) (g : Guard S) (C : Contract W)
    (Q : Except ε α → W → Prop) (s : Session I ε W α) : Prop where
  world_inv : C.inv s.world
  current_safe : Safe S g () C Q s.current s.world

variable {s s' : Session I ε W α}

variable (hhappen : ∀ e w, C.inv w → C.inv (S.happen e w) ∧ C.rely w (S.happen e w))
include hhappen

variable (hstart : ∀ p w, Starts p → C.inv w → Safe S g () C Q p w)
include hstart

theorem Step.isSafe (hstep : Step S g Starts s s') (h : IsSafe S g C Q s) : IsSafe S g C Q s' := by
  cases hstep with
  | perform op k choice r w hcurrent hguard hperf =>
    have hsafe := h.current_safe
    rw [hcurrent] at hsafe
    obtain ⟨hinv, -, hnext⟩ := hsafe _ .refl h.world_inv choice r w hguard hperf
    exact ⟨hinv, hnext⟩
  | happen e =>
    obtain ⟨hinv, hrely⟩ := hhappen e _ h.world_inv
    exact ⟨hinv, h.current_safe.of_rely (.single ⟨h.world_inv, hinv, hrely⟩)⟩
  | restart p hp => exact ⟨h.world_inv, hstart p _ hp h.world_inv⟩

/-- A session whose attempts keep the contract keeps it along every history. -/
theorem Reach.safe (hreach : Reach S g Starts s s') (h : IsSafe S g C Q s) : IsSafe S g C Q s' := by
  induction hreach with
  | refl => exact h
  | tail _ hstep ih => exact hstep.isSafe hhappen hstart ih

omit hstart

omit hhappen

/-! ## Computed histories -/

/-- What happens next: the attempt's operation with the outside's choice, a move of the
world, or a new attempt. -/
inductive Pick (S : Semantics I ε Unit W) (Starts : Async I ε α → Prop) : Type where
  | perform (choice : S.Choice)
  | event (e : S.Event)
  | restart (p : Async I ε α) (hp : Starts p)

def advance [∀ i op c w, Decidable (g i op c w)] (s : Session I ε W α) :
    Pick S Starts → Option (Session I ε W α)
  | .perform choice =>
    match s.current with
    | .await op k =>
      if g () op choice s.world then
        (S.perform () op choice s.world).map fun x => ⟨x.2, k x.1⟩
      else none
    | _ => none
  | .event e => some ⟨S.happen e s.world, s.current⟩
  | .restart p _ => some ⟨s.world, p⟩

variable (g) in
def run [∀ i op c w, Decidable (g i op c w)] :
    List (Pick S Starts) → Session I ε W α → Option (Session I ε W α)
  | [], s => some s
  | x :: xs, s => (advance (g := g) s x).bind (run xs)

theorem step_of_advance [∀ i op c w, Decidable (g i op c w)]
    {x : Pick S Starts} (h : advance (g := g) s x = some s') : Step S g Starts s s' := by
  cases x with
  | event e =>
    cases h
    exact .happen s e
  | restart p hp =>
    cases h
    exact .restart s p hp
  | perform choice =>
    simp only [advance] at h
    split at h
    · rename_i op k hcurrent
      split at h
      · rename_i hguard
        rcases Option.map_eq_some_iff.mp h with ⟨⟨r, w⟩, hperf, rfl⟩
        exact .perform s op k choice r w hcurrent hguard hperf
      · contradiction
    · contradiction

/-- What is observed after a computed history is observed at the end of one. -/
theorem exists_reach_of_run [∀ i op c w, Decidable (g i op c w)] {γ : Type}
    {observe : Session I ε W α → γ} {xs : List (Pick S Starts)} {s : Session I ε W α} {v : γ}
    (h : (run g xs s).map observe = some v) : ∃ s', Reach S g Starts s s' ∧ observe s' = v := by
  induction xs generalizing s with
  | nil =>
    cases h
    exact ⟨s, .refl, rfl⟩
  | cons x xs ih =>
    cases hx : advance (g := g) s x with
    | none => simp [run, hx] at h
    | some s₁ =>
      simp only [run, hx, Option.bind_some] at h
      rcases ih h with ⟨s', hreach, hv⟩
      exact ⟨s', .head (step_of_advance hx) hreach, hv⟩

theorem exists_run [∀ i op c w, Decidable (g i op c w)] {γ : Type} {s : Session I ε W α}
    {Q : Session I ε W α → Prop} (xs : List (Pick S Starts)) (observe : Session I ε W α → γ) (v : γ)
    (h : (run g xs s).map observe = some v)
    (hQ : ∀ s', Reach S g Starts s s' → observe s' = v → Q s') :
    ∃ s', Reach S g Starts s s' ∧ Q s' := by
  obtain ⟨s', hreach, hv⟩ := exists_reach_of_run h
  exact ⟨s', hreach, hQ s' hreach hv⟩

end Session

end Trellis.Core
