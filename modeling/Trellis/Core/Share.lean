import Trellis.Core.Pool

/-!
# Callers that own a part of the world

Many services give a caller something that nobody else touches until it is given back: a locked
row, an open transaction, a log of its own. Every caller owns the part `own i` of the world, which
the others leave alone, and everybody moves the world forward.
-/

namespace Trellis.Core

variable {I : Interface} {ε ι W V : Type}

/-- The others leave the part of caller `i` alone, it leaves theirs alone, and everybody moves the
world along `grows`. -/
def shareContract (inv : W → Prop) (own : ι → W → V) (grows : W → W → Prop) (i : ι) :
    Contract W where
  inv := inv
  rely w w' := own i w' = own i w ∧ grows w w'
  guar w w' := (∀ j, j ≠ i → own j w' = own j w) ∧ grows w w'

variable {inv : W → Prop} {own : ι → W → V} {grows : W → W → Prop} {i : ι}

def Assertion.share (φ : V → Prop) : Assertion (shareContract inv own grows i) where
  holds w := φ (own i w)
  stable w w' hmove h := by
    have hsame : own i w' = own i w := hmove.2.2.1
    change φ (own i w')
    rw [hsame]
    exact h

def Assertion.grown (ψ : W → Prop) (hψ : ∀ w w', grows w w' → ψ w → ψ w') :
    Assertion (shareContract inv own grows i) where
  holds := ψ
  stable w w' hmove h := hψ w w' hmove.2.2.2 h

theorem shareContract_compatible {S : Semantics I ε ι W} (hinv : ∀ e w, inv w → inv (S.happen e w))
    (hhappen : ∀ e w, inv w → (∀ i, own i (S.happen e w) = own i w) ∧ grows w (S.happen e w)) :
    Pool.Compatible S (shareContract inv own grows) inv where
  inv_eq _ := rfl
  guar_rely i _ _ _ hij hguar := ⟨hguar.1 i hij, hguar.2⟩
  happen_inv := hinv
  happen_rely i e w hw := ⟨(hhappen e w hw).1 i, (hhappen e w hw).2⟩

end Trellis.Core
