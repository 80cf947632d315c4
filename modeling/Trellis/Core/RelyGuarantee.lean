import Trellis.Core.Async

/-!
# Rely/guarantee contracts for asynchronous programs

Between two awaits of a program the rest of the system may move the shared world. A contract names
an invariant of the world, the moves the program must tolerate (its rely) and the moves it
promises to make (its guarantee). {lit}`Safe` says that a program keeps its contract from a given
world on, whatever the answers and whatever the others do.
-/

namespace Trellis.Core

/-- How a shared world of type `W` answers the operations of callers named by
`ι`.  A `Choice` resolves what the outside decides (an external answer, a
failure); `perform` is `none` when that choice is not available.  An `Event` is a
move of the world that no caller makes. -/
structure Semantics (I : Interface) (ε ι W : Type) where
  Choice : Type
  perform : ι → (op : I.Op) → Choice → W → Option (Except ε (I.Res op) × W)
  Event : Type
  happen : Event → W → W

/-- A condition on one performed operation: the caller, the operation, the
outside's choice and the world before the step. -/
abbrev Guard {I : Interface} {ε ι W : Type} (S : Semantics I ε ι W) : Type :=
  ι → I.Op → S.Choice → W → Prop

def anyStep {I : Interface} {ε ι W : Type} (S : Semantics I ε ι W) : Guard S :=
  fun _ _ _ _ => True

instance {I : Interface} {ε ι W : Type} {S : Semantics I ε ι W} :
    ∀ i op c w, Decidable (anyStep S i op c w) :=
  fun _ _ _ _ => isTrue trivial

/-- What a program assumes and promises about the shared world. -/
structure Contract (W : Type) where
  inv : W → Prop
  rely : W → W → Prop
  guar : W → W → Prop

namespace Contract

variable {W : Type} (C : Contract W)

/-- One tolerated move between two worlds that satisfy the invariant. -/
def Move (w w' : W) : Prop :=
  C.inv w ∧ C.inv w' ∧ C.rely w w'

def Moves : W → W → Prop :=
  Relation.ReflTransGen C.Move

def Stable (P : W → Prop) : Prop :=
  ∀ w w', C.Move w w' → P w → P w'

variable {C}

theorem Stable.moves {P : W → Prop} (hP : C.Stable P) {w w' : W}
    (h : C.Moves w w') (hw : P w) : P w' := by
  induction h with
  | refl => exact hw
  | tail _ hstep ih => exact hP _ _ hstep ih

end Contract

/-- A property of the world that no tolerated move breaks. -/
structure Assertion {W : Type} (C : Contract W) where
  holds : W → Prop
  stable : C.Stable holds

namespace Assertion

variable {W : Type} {C : Contract W}

instance : CoeFun (Assertion C) fun _ => W → Prop :=
  ⟨Assertion.holds⟩

def top : Assertion C where
  holds _ := True
  stable _ _ _ _ := trivial

/-- The assertion together with a fact that does not mention the world. -/
def given (P : Assertion C) (φ : Prop) : Assertion C where
  holds w := φ ∧ P w
  stable w w' hmove h := ⟨h.1, P.stable w w' hmove h.2⟩

def and (P P' : Assertion C) : Assertion C where
  holds w := P w ∧ P' w
  stable w w' hmove h := ⟨P.stable w w' hmove h.1, P'.stable w w' hmove h.2⟩

def pure (φ : Prop) : Assertion C where
  holds _ := φ
  stable _ _ _ h := h

/-- The assertion holds where `φ` does. -/
def when (P : Assertion C) (φ : Prop) : Assertion C where
  holds w := φ → P w
  stable w w' hmove h hφ := P.stable w w' hmove (h hφ)

end Assertion

section Safety

variable {I : Interface} {ε ι W α β : Type} (S : Semantics I ε ι W) (g : Guard S) (i : ι)
  (C : Contract W)

/-- From world `w` on, every operation of the program that `g` admits keeps the
invariant and the guarantee, and the outcome satisfies `Q`. -/
def Safe (Q : Except ε α → W → Prop) : Async I ε α → W → Prop
  | .done a, w => ∀ w', C.Moves w w' → C.inv w' → Q (.ok a) w'
  | .fail e, w => ∀ w', C.Moves w w' → C.inv w' → Q (.error e) w'
  | .await op k, w => ∀ w', C.Moves w w' → C.inv w' →
      ∀ c r w'', g i op c w' → S.perform i op c w' = some (r, w'') →
        C.inv w'' ∧ C.guar w' w'' ∧ Safe Q (k r) w''

variable {S g i C} {Q Q' : Except ε α → W → Prop}

/-! ## Rules -/

variable {p : Async I ε α}

theorem Safe.of_rely {w w' : W} (h : Safe S g i C Q p w)
    (hmoves : C.Moves w w') : Safe S g i C Q p w' := by
  cases p with
  | done a => exact fun w'' hm => h w'' (hmoves.trans hm)
  | fail e => exact fun w'' hm => h w'' (hmoves.trans hm)
  | await op k => exact fun w'' hm => h w'' (hmoves.trans hm)

variable {w : W}

theorem safe_mono (h : Safe S g i C Q p w)
    (hQ : ∀ r w', C.inv w' → Q r w' → Q' r w') : Safe S g i C Q' p w := by
  induction p generalizing w with
  | done a => exact fun w' hm hinv => hQ _ _ hinv (h w' hm hinv)
  | fail e => exact fun w' hm hinv => hQ _ _ hinv (h w' hm hinv)
  | await op k ih =>
    intro w' hm hinv c r w'' hg hperf
    rcases h w' hm hinv c r w'' hg hperf with ⟨hinv', hguar, hsafe⟩
    exact ⟨hinv', hguar, ih r hsafe⟩

variable {f : α → Async I ε β}

theorem safe_bind {Q : Except ε β → W → Prop} (hw : C.inv w)
    (h : Safe S g i C (fun r w' => match r with
      | .ok a => Safe S g i C Q (f a) w'
      | .error e => Safe S g i C Q (.fail e) w') p w) : Safe S g i C Q (p >>= f) w := by
  induction p generalizing w with
  | done a => exact h w .refl hw
  | fail e => exact h w .refl hw
  | await op k ih =>
    intro w' hm hinv c r w'' hg hperf
    rcases h w' hm hinv c r w'' hg hperf with ⟨hinv', hguar, hsafe⟩
    exact ⟨hinv', hguar, ih r hinv' hsafe⟩

/-- A `try` head turns each outcome of its body into a value. -/
theorem safe_attempt {Q : Except ε (Except ε α) → W → Prop}
    (h : Safe S g i C (fun r => Q (.ok r)) p w) : Safe S g i C Q p.attempt w := by
  induction p generalizing w with
  | done a => exact h
  | fail e => exact h
  | await op k ih =>
    intro w' hm hinv c r w'' hg hperf
    rcases h w' hm hinv c r w'' hg hperf with ⟨hinv', hguar, hsafe⟩
    exact ⟨hinv', hguar, ih r hsafe⟩

/-- A safe program that is run alone to its end has an outcome that satisfies `Q`.  `answer`
is what the outside chooses for each operation. -/
theorem Safe.eval {answer : I.Op → W → S.Choice}
    {perform : (op : I.Op) → W → Except ε (I.Res op) × W}
    (hperform : ∀ op w, S.perform i op (answer op w) w = some (perform op w))
    (hguard : ∀ op w, g i op (answer op w) w) (hw : C.inv w) (h : Safe S g i C Q p w) :
    Q (p.eval perform w).1 (p.eval perform w).2 := by
  induction p generalizing w with
  | done a => exact h w .refl hw
  | fail e => exact h w .refl hw
  | await op k ih =>
    obtain ⟨hinv, -, hnext⟩ := h w .refl hw (answer op w) _ _ (hguard op w) (hperform op w)
    exact ih _ hinv hnext

/-- A safe program stays safe as a part of a program over a larger interface, if the operations
of the part are performed there as they are alone. -/
theorem safe_lift {J : Interface} {T : Semantics J ε ι W} {f : I.Op → J.Op}
    {back : ∀ op, J.Res (f op) → I.Res op}
    (hperform : ∀ op c r w w', T.perform i (f op) c w = some (r, w') →
      ∃ c', g i op c' w ∧ S.perform i op c' w = some (r.map (back op), w'))
    (h : Safe S g i C Q p w) : Safe T (anyStep T) i C Q (p.lift f back) w := by
  induction p generalizing w with
  | done a => exact h
  | fail e => exact h
  | await op k ih =>
    intro w' hm hinv c r w'' _ hperf
    obtain ⟨c', hg, hperf'⟩ := hperform op c r w' w'' hperf
    obtain ⟨hinv', hguar, hsafe⟩ := h w' hm hinv c' _ w'' hg hperf'
    exact ⟨hinv', hguar, ih _ hsafe⟩

/-! ## A program that nobody disturbs -/

/-- The contract of a program whose world nobody else moves. -/
def Contract.solo (inv : W → Prop) : Contract W where
  inv := inv
  rely _ _ := False
  guar _ _ := True

/-- Every property of the world is an assertion if nobody else moves it. -/
def Assertion.solo {inv : W → Prop} (P : W → Prop) : Assertion (Contract.solo inv) where
  holds := P
  stable _ _ hmove := hmove.2.2.elim

variable {inv : W → Prop}

theorem eq_of_moves_solo {w w' : W} (h : (Contract.solo inv).Moves w w') : w' = w := by
  induction h with
  | refl => rfl
  | tail _ hmove _ => exact hmove.2.2.elim

variable {a : α}

theorem safe_solo_done (hQ : Q (.ok a) w) : Safe S g i (Contract.solo inv) Q (.done a) w := by
  intro w' hmoves _
  rw [eq_of_moves_solo hmoves]
  exact hQ

variable {e : ε}

theorem safe_solo_fail (hQ : Q (.error e) w) : Safe S g i (Contract.solo inv) Q (.fail e) w := by
  intro w' hmoves _
  rw [eq_of_moves_solo hmoves]
  exact hQ

variable {op : I.Op}

theorem safe_solo_call_bind {f : I.Res op → Async I ε α}
    (h : inv w → ∀ c r w', g i op c w → S.perform i op c w = some (r, w') → inv w' ∧ match r with
        | .ok a => Safe S g i (Contract.solo inv) Q (f a) w'
        | .error e => Q (.error e) w') :
    Safe S g i (Contract.solo inv) Q (Async.call op >>= f) w := by
  intro w₁ hmoves hinv c r w' hg hperf
  obtain rfl := eq_of_moves_solo hmoves
  obtain ⟨hinv', hr⟩ := h hinv c r w' hg hperf
  refine ⟨hinv', trivial, ?_⟩
  cases r with
  | ok a => exact hr
  | error e => exact safe_solo_fail hr

/-- Sequencing, with one condition on the outcomes of the first part. -/
theorem safe_solo_bind {p : Async I ε β} {f : β → Async I ε α}
    {R : Except ε β → W → Prop} (hw : inv w) (hp : Safe S g i (Contract.solo inv) R p w)
    (hok : ∀ b w', inv w' → R (.ok b) w' → Safe S g i (Contract.solo inv) Q (f b) w')
    (herror : ∀ e w', inv w' → R (.error e) w' → Q (.error e) w') :
    Safe S g i (Contract.solo inv) Q (p >>= f) w := by
  refine safe_bind hw (safe_mono hp fun r w' hinv hr => ?_)
  cases r with
  | ok b => exact hok b w' hinv hr
  | error e => exact safe_solo_fail (herror e w' hinv hr)

/-! ## Pre- and postconditions -/

/-- The condition on an outcome given by one for values and one for errors. -/
def outcome (R : α → Assertion C) (E : Assertion C) : Except ε α → W → Prop
  | .ok a => R a
  | .error _ => E

variable (S g i) in
/-- From every world of the invariant that satisfies `P` the program keeps its
contract; where it resolves with `a`, `R a` holds, and where it rejects, `E`. -/
def Triple (P : Assertion C) (p : Async I ε α) (R : α → Assertion C) (E : Assertion C) : Prop :=
  ∀ w, C.inv w → P w → Safe S g i C (outcome R E) p w

variable {P : Assertion C} {R : α → Assertion C} {R' : β → Assertion C}
  {E : Assertion C}

theorem triple_done (hR : ∀ w, C.inv w → P w → R a w) : Triple S g i P (.done a) R E :=
  fun _ _ hP w' hm hinv => hR w' hinv (P.stable.moves hm hP)

theorem triple_return : Triple S g i P (.done a) (fun _ => .top) E :=
  triple_done fun _ _ _ => trivial

theorem triple_throw (hE : ∀ w, C.inv w → P w → E w) : Triple S g i P (.fail e : Async I ε α) R E :=
  fun _ _ hP w' hm hinv => hE w' hinv (P.stable.moves hm hP)

theorem triple_fail : Triple S g i P (.fail e : Async I ε α) R .top :=
  triple_throw fun _ _ _ => trivial

/-- The rule for one awaited operation: `P` survives the others, so it holds in the
world the operation is performed in. -/
theorem triple_await {k : Except ε (I.Res op) → Async I ε α}
    (hstep : ∀ w c r w', C.inv w → P w → g i op c w → S.perform i op c w = some (r, w') →
        C.inv w' ∧ C.guar w w' ∧ Safe S g i C (outcome R E) (k r) w') :
    Triple S g i P (.await op k) R E :=
  fun _ _ hP w' hm hinv c r w'' hg hperf =>
    hstep w' c r w'' hinv (P.stable.moves hm hP) hg hperf

theorem triple_call {R : I.Res op → Assertion C} (hstep : ∀ w c r w', C.inv w → P w → g i op c w →
      S.perform i op c w = some (r, w') → C.inv w' ∧ C.guar w w' ∧ outcome R E r w') :
    Triple S g i P (Async.call op) R E := by
  refine triple_await fun w c r w' hinv hP hg hperf => ?_
  rcases hstep w c r w' hinv hP hg hperf with ⟨hinv', hguar, hr⟩
  refine ⟨hinv', hguar, ?_⟩
  cases r with
  | ok a => exact fun w'' hm _ => (R a).stable.moves hm hr
  | error e => exact fun w'' hm _ => E.stable.moves hm hr

theorem triple_bind (h : Triple S g i P p R E) (hf : ∀ a, Triple S g i (R a) (f a) R' E) :
    Triple S g i P (p >>= f) R' E := by
  intro w hw hP
  refine safe_bind hw (safe_mono (h w hw hP) fun r w' hinv hr => ?_)
  cases r with
  | ok a => exact hf a w' hinv hr
  | error e => exact fun w'' hm _ => E.stable.moves hm hr

theorem triple_ite {c : Prop} [Decidable c] {q : Async I ε α} (hpos : c → Triple S g i P p R E)
    (hneg : ¬ c → Triple S g i P q R E) : Triple S g i P (if c then p else q) R E := by
  by_cases hc : c
  · rw [if_pos hc]
    exact hpos hc
  · rw [if_neg hc]
    exact hneg hc

theorem triple_ofExcept {x : Except ε α}
    (hE : ∀ w, C.inv w → P w → E w) (hf : ∀ a, x = .ok a → Triple S g i P (f a) R' E) :
    Triple S g i P (Async.ofExcept x >>= f) R' E := by
  cases x with
  | ok a => exact hf a rfl
  | error e => exact triple_throw hE

theorem triple_ofExcept_bind {x : Except ε α} (hf : ∀ a, x = .ok a → Triple S g i P (f a) R' .top) :
    Triple S g i P (Async.ofExcept x >>= f) R' .top :=
  triple_ofExcept (fun _ _ _ => trivial) hf

variable {E' : Assertion C}

theorem triple_attempt {R' : Except ε α → Assertion C} (h : Triple S g i P p R E)
    (hok : ∀ a w, C.inv w → R a w → R' (.ok a) w)
    (herror : ∀ e w, C.inv w → E w → R' (.error e) w) : Triple S g i P p.attempt R' E' := by
  intro w hw hP
  refine safe_attempt (safe_mono (h w hw hP) fun r w' hinv hr => ?_)
  cases r with
  | ok a => exact hok a w' hinv hr
  | error e => exact herror e w' hinv hr

/-- The rule for `try` and `catch`: each outcome of the body has its own continuation. -/
theorem triple_catch {f : Except ε α → Async I ε β} (h : Triple S g i P p R E)
    (hok : ∀ a, Triple S g i (R a) (f (.ok a)) R' E')
    (herror : ∀ e, Triple S g i E (f (.error e)) R' E') :
    Triple S g i P (p.attempt >>= f) R' E' := by
  intro w hw hP
  refine safe_bind hw (safe_attempt (safe_mono (h w hw hP) fun r w' hinv hr => ?_))
  cases r with
  | ok a => exact hok a w' hinv hr
  | error e => exact herror e w' hinv hr

theorem triple_try (h : Triple S g i P p (fun _ => .top) .top) :
    Triple S g i P p.attempt (fun _ => .top) E' :=
  triple_attempt h (fun _ _ _ _ => trivial) fun _ _ _ _ => trivial

theorem triple_weaken {R'' : α → Assertion C}
    (h : Triple S g i P p R E) (hR : ∀ a w, C.inv w → R a w → R'' a w)
    (hE : ∀ w, C.inv w → E w → E' w) : Triple S g i P p R'' E' := by
  intro w hw hP
  refine safe_mono (h w hw hP) fun r w' hinv hr => ?_
  cases r with
  | ok a => exact hR a w' hinv hr
  | error e => exact hE w' hinv hr

theorem triple_error (h : Triple S g i P p R E) (hE : ∀ w, C.inv w → E w → E' w) :
    Triple S g i P p R E' :=
  triple_weaken h (fun _ _ _ h => h) hE

theorem triple_forget (h : Triple S g i P p R E) : Triple S g i P p R .top :=
  triple_error h fun _ _ _ => trivial

theorem triple_post {R'' : α → Assertion C} (h : Triple S g i P p R E)
    (hR : ∀ a w, C.inv w → R a w → R'' a w) : Triple S g i P p R'' .top :=
  triple_weaken h hR fun _ _ _ => trivial

theorem triple_pre {A : Assertion C} (h : Triple S g i A p R E)
    (hP : ∀ w, C.inv w → P w → A w) : Triple S g i P p R E :=
  fun w hw hPw => h w hw (hP w hw hPw)

theorem safe_frame {K : Assertion C} (hguar : ∀ w w', C.guar w w' → K w → K w')
    (h : Safe S g i C Q p w) (hK : K w) : Safe S g i C (fun r w' => Q r w' ∧ K w') p w := by
  induction p generalizing w with
  | done a => exact fun w' hm hinv => ⟨h w' hm hinv, K.stable.moves hm hK⟩
  | fail e => exact fun w' hm hinv => ⟨h w' hm hinv, K.stable.moves hm hK⟩
  | await op k ih =>
    intro w' hm hinv c r w'' hg hperf
    obtain ⟨hinv', hstep, hsafe⟩ := h w' hm hinv c r w'' hg hperf
    exact ⟨hinv', hstep, ih r hsafe (hguar w' w'' hstep (K.stable.moves hm hK))⟩

/-- An assertion that the guarantee keeps as well is kept by the whole program. -/
theorem triple_frame {K : Assertion C} (hguar : ∀ w w', C.guar w w' → K w → K w')
    (h : Triple S g i P p R E) : Triple S g i (P.and K) p (fun a => (R a).and K) (E.and K) := by
  intro w hw hP
  refine safe_mono (safe_frame hguar (h w hw hP.1) hP.2) fun r w' _ hr => ?_
  cases r with
  | ok a => exact hr
  | error e => exact hr

theorem triple_given {φ : Prop} (h : φ → Triple S g i P p R E) : Triple S g i (P.given φ) p R E :=
  fun w hw hP => h hP.1 w hw hP.2

theorem triple_pure {φ : Prop} (h : φ → Triple S g i Assertion.top p R E) :
    Triple S g i (Assertion.pure φ) p R E :=
  fun w hw hφ => h hφ w hw trivial

/-- What holds of the world at the start may be used to choose the precondition. -/
theorem triple_choose (h : ∀ w, C.inv w → P w → ∃ A : Assertion C, A w ∧ Triple S g i A p R E) :
    Triple S g i P p R E := by
  intro w hw hP
  obtain ⟨A, hA, hp⟩ := h w hw hP
  exact hp w hw hA

theorem triple_lift {J : Interface} {T : Semantics J ε ι W} {f : I.Op → J.Op}
    {back : ∀ op, J.Res (f op) → I.Res op}
    (hperform : ∀ op c r w w', T.perform i (f op) c w = some (r, w') →
      ∃ c', g i op c' w ∧ S.perform i op c' w = some (r.map (back op), w'))
    (h : Triple S g i P p R E) : Triple T (anyStep T) i P (p.lift f back) R E :=
  fun w hw hP => safe_lift hperform (h w hw hP)

theorem Triple.safe (h : Triple S g i P p R E) (hw : C.inv w)
    (hP : P w) : Safe S g i C (outcome R E) p w :=
  h w hw hP

-- the rules above are all that a proof about a program needs
attribute [irreducible] Triple

end Safety

end Trellis.Core
