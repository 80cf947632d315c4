import Trellis.Core.RelyGuarantee

/-!
# Programs that run side by side

`Promise.allSettled`, and what a call starts without awaiting it: several programs of one caller
take turns, and the answers to one operation decide whose answer comes next.
-/

namespace Trellis.Core

/-- The operation whose answer says whether the first of two programs goes on. -/
structure Turns (I : Interface) (ε : Type) where
  op : I.Op
  first : Except ε (I.Res op) → Bool

namespace Async

variable {I : Interface} {ε α β : Type}

/-- The first program awaits `op`; `next` is what follows its answer, for every rest of the second
program. -/
def bothAwait (t : Turns I ε) (op : I.Op)
    (next : Except ε (I.Res op) → Async I ε β → Async I ε (Except ε α × Except ε β))
    (p : Async I ε α) : Async I ε β → Async I ε (Except ε α × Except ε β)
  | done b => p.attempt >>= fun r => done (r, .ok b)
  | fail e => p.attempt >>= fun r => done (r, .error e)
  | await op' k => await t.op fun turn =>
    if t.first turn then await op fun r => next r (await op' k)
    else await op' fun r => bothAwait t op next p (k r)

def both (t : Turns I ε) : Async I ε α → Async I ε β → Async I ε (Except ε α × Except ε β)
  | done a, q => q.attempt >>= fun r => done (.ok a, r)
  | fail e, q => q.attempt >>= fun r => done (.error e, r)
  | await op k, q => bothAwait t op (fun r q' => both t (k r) q') (await op k) q

def allSettled (t : Turns I ε) : List (Async I ε α) → Async I ε (List (Except ε α))
  | [] => done []
  | p :: ps => both t p (allSettled t ps) >>= fun results =>
    ofExcept (results.2.map (results.1 :: ·))

end Async

/-! ## Contracts -/

section Safety

variable {I : Interface} {ε ι W α β : Type} {S : Semantics I ε ι W} {g : Guard S} {i : ι}

/-- One contract promises and relies on less than another. -/
structure Contract.Within (C₁ C : Contract W) : Prop where
  inv_eq : C₁.inv = C.inv
  rely : ∀ w w', C.rely w w' → C₁.rely w w'
  guar : ∀ w w', C₁.guar w w' → C.guar w w'

variable {C C₁ C₂ : Contract W}

theorem Contract.Within.move (h : C₁.Within C) {w w' : W} (hmove : C.Move w w') : C₁.Move w w' := by
  obtain ⟨hw, hw', hrely⟩ := hmove
  rw [← h.inv_eq] at hw hw'
  exact ⟨hw, hw', h.rely w w' hrely⟩

theorem Contract.Within.moves (h : C₁.Within C) {w w' : W} (hmoves : C.Moves w w') :
    C₁.Moves w w' := by
  induction hmoves with
  | refl => exact .refl
  | tail _ hmove ih => exact ih.tail (h.move hmove)

def Assertion.within (h : C₁.Within C) (P : Assertion C₁) : Assertion C where
  holds := P
  stable w w' hmove := P.stable w w' (h.move hmove)

variable {p : Async I ε α}

theorem safe_within (h : C₁.Within C) {Q : Except ε α → W → Prop} {K : Assertion C}
    (hK : ∀ w w', C₁.guar w w' → K w → K w') {w : W}
    (hp : Safe S g i C₁ Q p w) (hw : K w) : Safe S g i C (fun r w' => Q r w' ∧ K w') p w := by
  induction p generalizing w with
  | done a =>
    exact fun w' hm hinv => ⟨hp w' (h.moves hm) (h.inv_eq ▸ hinv), K.stable.moves hm hw⟩
  | fail e =>
    exact fun w' hm hinv => ⟨hp w' (h.moves hm) (h.inv_eq ▸ hinv), K.stable.moves hm hw⟩
  | await op k ih =>
    intro w' hm hinv c r w'' hg hperf
    rw [← h.inv_eq] at hinv
    obtain ⟨hinv', hguar, hsafe⟩ := hp w' (h.moves hm) hinv c r w'' hg hperf
    rw [h.inv_eq] at hinv'
    exact ⟨hinv', h.guar w' w'' hguar, ih r hsafe (hK w' w'' hguar (K.stable.moves hm hw))⟩

/-- A program may be used where more is promised and relied on; what it leaves alone is kept. -/
theorem triple_within (h : C₁.Within C) {P : Assertion C₁} {R : α → Assertion C₁} {E : Assertion C₁}
    {K : Assertion C} (hK : ∀ w w', C₁.guar w w' → K w → K w') (hp : Triple S g i P p R E) :
    Triple S g i ((P.within h).and K) p (fun a => ((R a).within h).and K) ((E.within h).and K) := by
  unfold Triple
  intro w hw hP
  rw [← h.inv_eq] at hw
  refine safe_mono (safe_within h hK (hp.safe hw hP.1) hP.2) fun r w' _ hr => ?_
  cases r <;> exact hr

/-! ## Side by side -/

/-- Two contracts under which programs of one caller may run side by side. -/
structure Contract.Beside (C₁ C₂ C : Contract W) : Prop where
  left : C₁.Within C
  right : C₂.Within C
  left_rely : ∀ w w', C₁.guar w w' → C₂.rely w w'
  right_rely : ∀ w w', C₂.guar w w' → C₁.rely w w'
  guar_refl : ∀ w, C.guar w w

def bothOutcomes (Q₁ : Except ε α → W → Prop) (Q₂ : Except ε β → W → Prop) :
    Except ε (Except ε α × Except ε β) → W → Prop
  | .ok results, w => Q₁ results.1 w ∧ Q₂ results.2 w
  | .error _, _ => False

section Beside

variable {Q₁ : Except ε α → W → Prop} {Q₂ : Except ε β → W → Prop}

theorem Contract.Beside.symm (h : C₁.Beside C₂ C) : C₂.Beside C₁ C :=
  ⟨h.right, h.left, h.right_rely, h.left_rely, h.guar_refl⟩

theorem Contract.Beside.moves_left (h : C₁.Beside C₂ C) {w w' w'' : W} (hmoves : C.Moves w w')
    (hw' : C.inv w') (hw'' : C.inv w'') (hguar : C₂.guar w' w'') : C₁.Moves w w'' := by
  rw [← h.left.inv_eq] at hw' hw''
  exact (h.left.moves hmoves).tail ⟨hw', hw'', h.right_rely w' w'' hguar⟩

variable {q : Async I ε β}

variable (h : C₁.Beside C₂ C)
include h

theorem safe_rest {γ : Type} {x : Except ε α} {w : W}
    {f : Except ε β → γ} {Q : Except ε γ → W → Prop} (hQ : ∀ r w, Q₁ x w → Q₂ r w → Q (.ok (f r)) w)
    (hx : Safe S g i C₁ Q₁ (.ofExcept x) w) (hq : Safe S g i C₂ Q₂ q w) :
    Safe S g i C Q (q.attempt >>= fun r => .done (f r)) w := by
  have hend : ∀ (w w' : W), Safe S g i C₁ Q₁ (.ofExcept x) w → C.Moves w w' → C.inv w' →
      Q₁ x w' := by
    intro w w' hx hm hinv
    rw [← h.left.inv_eq] at hinv
    cases x with
    | ok a => exact hx w' (h.left.moves hm) hinv
    | error e => exact hx w' (h.left.moves hm) hinv
  induction q generalizing w with
  | done b =>
    exact fun w' hm hinv => hQ _ w' (hend w w' hx hm hinv)
      (hq w' (h.right.moves hm) (h.right.inv_eq ▸ hinv))
  | fail e =>
    exact fun w' hm hinv => hQ _ w' (hend w w' hx hm hinv)
      (hq w' (h.right.moves hm) (h.right.inv_eq ▸ hinv))
  | await op k ih =>
    intro w' hm hinv c r w'' hg hperf
    obtain ⟨hinv', hguar, hsafe⟩ :=
      hq w' (h.right.moves hm) (h.right.inv_eq ▸ hinv) c r w'' hg hperf
    rw [h.right.inv_eq] at hinv'
    exact ⟨hinv', h.right.guar w' w'' hguar,
      ih r (hx.of_rely (h.moves_left hm hinv hinv' hguar)) hsafe⟩

/-- One program takes its turn: it keeps its contract and the other stays safe. -/
theorem Safe.turn {op : I.Op} {k : Except ε (I.Res op) → Async I ε α}
    {w w₁ : W} (hp : Safe S g i C₁ Q₁ (.await op k) w) (hq : Safe S g i C₂ Q₂ q w)
    (hm : C.Moves w w₁) (hinv : C.inv w₁) {c : S.Choice} {r : Except ε (I.Res op)} {w₂ : W}
    (hg : g i op c w₁) (hperf : S.perform i op c w₁ = some (r, w₂)) :
    C.inv w₂ ∧ C.guar w₁ w₂ ∧ Safe S g i C₁ Q₁ (k r) w₂ ∧ Safe S g i C₂ Q₂ q w₂ := by
  obtain ⟨hinv', hguar, hsafe⟩ := hp w₁ (h.left.moves hm) (h.left.inv_eq ▸ hinv) c r w₂ hg hperf
  rw [h.left.inv_eq] at hinv'
  exact ⟨hinv', h.left.guar w₁ w₂ hguar, hsafe, hq.of_rely (h.symm.moves_left hm hinv hinv' hguar)⟩

theorem safe_both {t : Turns I ε} (hturn : ∀ c w r w', S.perform i t.op c w = some (r, w') → w' = w)
    {w : W} (hp : Safe S g i C₁ Q₁ p w) (hq : Safe S g i C₂ Q₂ q w) :
    Safe S g i C (bothOutcomes Q₁ Q₂) (Async.both t p q) w := by
  induction p generalizing q w with
  | done a => exact safe_rest h (fun _ _ h₁ h₂ => ⟨h₁, h₂⟩) hp hq
  | fail e => exact safe_rest h (fun _ _ h₁ h₂ => ⟨h₁, h₂⟩) hp hq
  | await op k ih =>
    -- the first program stays where it is while the second one steps
    have hinner : ∀ (q : Async I ε β) (w : W), Safe S g i C₁ Q₁ (.await op k) w →
        Safe S g i C₂ Q₂ q w → Safe S g i C (bothOutcomes Q₁ Q₂)
          (Async.bothAwait t op (fun r q' => Async.both t (k r) q') (.await op k) q) w := by
      intro q
      induction q with
      | done b => exact fun w hp hq => safe_rest h.symm (fun _ _ h₂ h₁ => ⟨h₁, h₂⟩) hq hp
      | fail e => exact fun w hp hq => safe_rest h.symm (fun _ _ h₂ h₁ => ⟨h₁, h₂⟩) hq hp
      | await op' k' ihq =>
        intro w hp hq w' hm hinv c r w'' _ hperf
        obtain rfl := hturn c w' r w'' hperf
        refine ⟨hinv, h.guar_refl w'', ?_⟩
        by_cases hfirst : t.first r = true
        · simp only [hfirst, if_true]
          intro w₁ hm₁ hinv₁ c₁ r₁ w₂ hg₁ hperf₁
          obtain ⟨hinv₂, hguar, hp', hq'⟩ :=
            hp.turn h hq (hm.trans hm₁) hinv₁ hg₁ hperf₁
          exact ⟨hinv₂, hguar, ih r₁ hp' hq'⟩
        · simp only [hfirst]
          intro w₁ hm₁ hinv₁ c₁ r₁ w₂ hg₁ hperf₁
          obtain ⟨hinv₂, hguar, hq', hp'⟩ :=
            hq.turn h.symm hp (hm.trans hm₁) hinv₁ hg₁ hperf₁
          exact ⟨hinv₂, hguar, ihq r₁ w₂ hp' hq'⟩
    exact hinner q w hp hq

omit h

/-- What holds of the outcomes of two programs that ran side by side. -/
def Assertion.outcome {C : Contract W} (R : α → Assertion C) (E : Assertion C) :
    Except ε α → Assertion C
  | .ok a => R a
  | .error _ => E

/-- Programs whose contracts tolerate each other may run side by side. -/
theorem triple_both (h : C₁.Beside C₂ C) {t : Turns I ε}
    (hturn : ∀ c w r w', S.perform i t.op c w = some (r, w') → w' = w)
    {P₁ : Assertion C₁} {R₁ : α → Assertion C₁} {E₁ : Assertion C₁}
    {P₂ : Assertion C₂} {R₂ : β → Assertion C₂} {E₂ : Assertion C₂} {E : Assertion C}
    (hp : Triple S g i P₁ p R₁ E₁) (hq : Triple S g i P₂ q R₂ E₂) :
    Triple S g i ((P₁.within h.left).and (P₂.within h.right)) (Async.both t p q)
      (fun results => ((Assertion.outcome R₁ E₁ results.1).within h.left).and
        ((Assertion.outcome R₂ E₂ results.2).within h.right)) E := by
  unfold Triple
  intro w hw hP
  have hp' := hp.safe (h.left.inv_eq ▸ hw) hP.1
  have hq' := hq.safe (h.right.inv_eq ▸ hw) hP.2
  refine safe_mono (safe_both h hturn hp' hq') fun r w' _ hr => ?_
  cases r with
  | error e => exact hr.elim
  | ok results =>
    obtain ⟨r₁, r₂⟩ := results
    refine ⟨?_, ?_⟩
    · cases r₁ <;> exact hr.1
    · cases r₂ <;> exact hr.2

end Beside

end Safety

end Trellis.Core
