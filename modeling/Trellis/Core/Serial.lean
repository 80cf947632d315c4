import Trellis.Core.RelyGuarantee

/-!
# Calls one after another

A serial run makes all steps of a call before the next call starts. Serial runs are those runs of
a pool in which no two calls overlap.
-/

namespace Trellis.Core

variable {I : Interface} {ε ι W α : Type}

/-- The value of a program that has returned. -/
def Async.returned : Async I ε α → Option α
  | .done a => some a
  | _ => none

variable (S : Semantics I ε ι W) (g : Guard S)

/-- The program of caller `i`, run alone from one world, ends with an outcome in another. -/
inductive Runs (i : ι) : Async I ε α → W → Except ε α → W → Prop where
  | ended (r : Except ε α) (w : W) : Runs i (.ofExcept r) w r w
  | await {op : I.Op} {k : Except ε (I.Res op) → Async I ε α} (choice : S.Choice)
      {a : Except ε (I.Res op)} {r : Except ε α} {w w₁ w' : W} (hguard : g i op choice w)
      (hperf : S.perform i op choice w = some (a, w₁)) (hrest : Runs i (k a) w₁ r w') :
      Runs i (.await op k) w r w'
  | event {p : Async I ε α} {r : Except ε α} {w w' : W} (e : S.Event)
      (hrest : Runs i p (S.happen e w) r w') : Runs i p w r w'

/-- The callers that have made their call, in this order, with the outcomes, and the world after
them. -/
inductive Serial (start : ι → Async I ε α) (initial : W) : List (ι × Except ε α) → W → Prop where
  | nil : Serial start initial [] initial
  | call {history : List (ι × Except ε α)} {i : ι} {r : Except ε α} {w w' : W}
      (hbefore : Serial start initial history w) (hnew : i ∉ history.map (·.1))
      (hrun : Runs S g i (start i) w r w') : Serial start initial (history ++ [(i, r)]) w'

variable {S g} {i : ι} {p : Async I ε α} {r : Except ε α} {w w' : W}

/-- A call that keeps a contract under the moves of the world ends as the contract says. -/
theorem Safe.runs {C : Contract W} {Q : Except ε α → W → Prop}
    (hevent : ∀ e w, C.inv w → C.Move w (S.happen e w)) (hw : C.inv w)
    (h : Safe S g i C Q p w) (hrun : Runs S g i p w r w') : Q r w' := by
  induction hrun with
  | ended r w =>
    cases r with
    | ok a => exact h w .refl hw
    | error e => exact h w .refl hw
  | await choice hguard hperf _ ih =>
    obtain ⟨hinv, -, hsafe⟩ := h _ .refl hw choice _ _ hguard hperf
    exact ih hinv hsafe
  | event e _ ih => exact ih (hevent e _ hw).2.1 (h.of_rely (.single (hevent e _ hw)))

variable {start : ι → Async I ε α} {initial : W} {history : List (ι × Except ε α)}

/-- If some outcomes shut the world, and no call that starts in a shut world has an outcome that
is barred, then no barred outcome follows one that shuts. -/
theorem Serial.pairwise (Inv Shut : W → Prop) (shuts barred : ι → Except ε α → Prop)
    (hinitial : Inv initial)
    (hcall : ∀ i w r w', Inv w → Runs S g i (start i) w r w' →
      Inv w' ∧ (shuts i r → Shut w') ∧ (Shut w → Shut w' ∧ ¬ barred i r))
    (h : Serial S g start initial history w) :
    history.Pairwise fun x y => shuts x.1 x.2 → ¬ barred y.1 y.2 := by
  suffices Inv w ∧ (∀ x ∈ history, shuts x.1 x.2 → Shut w) ∧
      history.Pairwise fun x y => shuts x.1 x.2 → ¬ barred y.1 y.2 from this.2.2
  induction h with
  | nil => simp [hinitial]
  | call _ _ hrun ih =>
    obtain ⟨hinv, hshut, hpairs⟩ := ih
    obtain ⟨hinv', hshuts, hkeeps⟩ := hcall _ _ _ _ hinv hrun
    simp only [List.mem_append, List.mem_singleton, List.pairwise_append, List.pairwise_singleton]
    refine ⟨hinv', ?_, hpairs, trivial, ?_⟩
    · rintro x (hx | rfl) hx'
      · exact (hkeeps (hshut x hx hx')).1
      · exact hshuts hx'
    · rintro x hx y rfl hx'
      exact (hkeeps (hshut x hx hx')).2

end Trellis.Core
