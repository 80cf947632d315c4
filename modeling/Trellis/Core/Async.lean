import Mathlib.Tactic.Positivity

/-!
# Asynchronous programs

An asynchronous function runs without interruption up to its next `await`; there it hands one
operation to the outside and continues with the answer, a value or a rejection. A program is
therefore a tree: a returned value, a thrown error, or an operation with one continuation per
answer.
-/

namespace Trellis.Core

/-- The operations a program may await, with the type each one resolves to. -/
structure Interface where
  Op : Type
  Res : Op → Type

/-- A program over `I` that rejects with `ε` and resolves with `α`. -/
inductive Async (I : Interface) (ε α : Type) : Type where
  | done (a : α)
  | fail (e : ε)
  | await (op : I.Op) (k : Except ε (I.Res op) → Async I ε α)

namespace Async

variable {I : Interface} {ε α β W : Type}

/-! ## Sequencing and recovery -/

/-- Run `p`, then continue with its value; a rejection skips the continuation. -/
def bind : Async I ε α → (α → Async I ε β) → Async I ε β
  | done a, f => f a
  | fail e, _ => fail e
  | await op k, f => await op fun r => (k r).bind f

/-- Run `p` and return its outcome as a value, as the head of a `try` does. -/
def attempt : Async I ε α → Async I ε (Except ε α)
  | done a => done (.ok a)
  | fail e => done (.error e)
  | await op k => await op fun r => (k r).attempt

def ofExcept : Except ε α → Async I ε α
  | .ok a => done a
  | .error e => fail e

/-- Await one operation; a rejected operation rejects the caller. -/
def call (op : I.Op) : Async I ε (I.Res op) :=
  await op ofExcept

instance : Monad (Async I ε) where
  pure := done
  bind := bind

@[simp]
theorem pure_eq (a : α) : (pure a : Async I ε α) = done a :=
  rfl

@[simp]
theorem bind_eq (p : Async I ε α) (f : α → Async I ε β) : p.bind f = (p >>= f) :=
  rfl

@[simp]
theorem done_bind (a : α) (f : α → Async I ε β) : (done a >>= f) = f a :=
  rfl

@[simp]
theorem fail_bind (e : ε) (f : α → Async I ε β) : ((fail e : Async I ε α) >>= f) = fail e :=
  rfl

@[simp]
theorem await_bind (op : I.Op) (k : Except ε (I.Res op) → Async I ε α) (f : α → Async I ε β) :
    (await op k >>= f) = await op fun r => k r >>= f :=
  rfl

@[simp]
theorem ofExcept_ok (a : α) : (ofExcept (.ok a) : Async I ε α) = done a :=
  rfl

@[simp]
theorem ofExcept_error (e : ε) : (ofExcept (.error e) : Async I ε α) = fail e :=
  rfl

/-! ## Running a program alone -/

/-- Run a program to its end against a world that answers each operation by
`perform`. -/
def eval (perform : (op : I.Op) → W → Except ε (I.Res op) × W) : Async I ε α → W → Except ε α × W
  | done a, w => (.ok a, w)
  | fail e, w => (.error e, w)
  | await op k, w => eval perform (k (perform op w).1) (perform op w).2

variable {perform : (op : I.Op) → W → Except ε (I.Res op) × W}

@[simp]
theorem eval_done (a : α) (w : W) : eval perform (done a : Async I ε α) w = (.ok a, w) :=
  rfl

@[simp]
theorem eval_fail (e : ε) (w : W) : eval perform (fail e : Async I ε α) w = (.error e, w) :=
  rfl

@[simp]
theorem eval_ofExcept (x : Except ε α) (w : W) :
    eval perform (ofExcept x : Async I ε α) w = (x, w) := by
  cases x <;> rfl

@[simp]
theorem eval_call (op : I.Op) (w : W) :
    eval perform (call op : Async I ε (I.Res op)) w = perform op w := by
  simp [call, eval]

@[simp]
theorem eval_bind (p : Async I ε α) (f : α → Async I ε β) (w : W) : eval perform (p >>= f) w =
    match eval perform p w with
    | (.ok a, w') => eval perform (f a) w'
    | (.error e, w') => (.error e, w') := by
  induction p generalizing w with
  | done a => rfl
  | fail e => rfl
  | await op k ih => exact ih (perform op w).1 (perform op w).2

@[simp]
theorem eval_attempt (p : Async I ε α) (w : W) :
    eval perform (attempt p) w = (.ok (eval perform p w).1, (eval perform p w).2) := by
  induction p generalizing w with
  | done a => rfl
  | fail e => rfl
  | await op k ih => exact ih (perform op w).1 (perform op w).2

variable {p : Async I ε α} {f : α → Async I ε β}

theorem eval_bind_of_ok {a : α} {w w₁ : W} (h : eval perform p w = (.ok a, w₁)) :
    eval perform (p >>= f) w = eval perform (f a) w₁ := by
  rw [eval_bind, h]

theorem eval_bind_of_error {e : ε} {w w₁ : W} (h : eval perform p w = (.error e, w₁)) :
    eval perform (p >>= f) w = (.error e, w₁) := by
  rw [eval_bind, h]

variable {w w' : W}

theorem eval_bind_ok {b : β} (h : eval perform (p >>= f) w = (.ok b, w')) :
    ∃ a w₁, eval perform p w = (.ok a, w₁) ∧ eval perform (f a) w₁ = (.ok b, w') := by
  rw [eval_bind] at h
  rcases hp : eval perform p w with ⟨r, w₁⟩
  rw [hp] at h
  cases r with
  | ok a => exact ⟨a, w₁, rfl, h⟩
  | error e => cases h

/-! ## The operations of a program -/

/-- Every operation that the program can await satisfies `φ`. -/
def Awaits (φ : I.Op → Prop) : Async I ε α → Prop
  | done _ => True
  | fail _ => True
  | await op k => φ op ∧ ∀ r, Awaits φ (k r)

variable {φ : I.Op → Prop}

theorem awaits_call {op : I.Op} (hop : φ op) : Awaits φ (call op : Async I ε (I.Res op)) := by
  refine ⟨hop, fun r => ?_⟩
  cases r <;> trivial

theorem awaits_bind (hp : Awaits φ p) (hf : ∀ a, Awaits φ (f a)) : Awaits φ (p >>= f) := by
  induction p with
  | done a => exact hf a
  | fail e => trivial
  | await op k ih => exact ⟨hp.1, fun r => ih r (hp.2 r)⟩

/-- What the operations of a program do to the world, the program does. -/
theorem eval_rel_of_awaits {R : W → W → Prop} (hrefl : ∀ w, R w w)
    (htrans : ∀ {w₁ w₂ w₃}, R w₁ w₂ → R w₂ w₃ → R w₁ w₃)
    (hperform : ∀ op w, φ op → R w (perform op w).2) (hp : Awaits φ p)
    (w : W) : R w (eval perform p w).2 := by
  induction p generalizing w with
  | done a => exact hrefl w
  | fail e => exact hrefl w
  | await op k ih => exact htrans (hperform op w hp.1) (ih _ (hp.2 _) _)

theorem awaits_true (p : Async I ε α) : Awaits (fun _ => True) p := by
  induction p with
  | done a => trivial
  | fail e => trivial
  | await op k ih => exact ⟨trivial, ih⟩

/-- What every operation does to the world, a program does. -/
theorem eval_rel {R : W → W → Prop} (hrefl : ∀ w, R w w)
    (htrans : ∀ {w₁ w₂ w₃}, R w₁ w₂ → R w₂ w₃ → R w₁ w₃) (hperform : ∀ op w, R w (perform op w).2)
    (p : Async I ε α) (w : W) : R w (eval perform p w).2 :=
  eval_rel_of_awaits hrefl htrans (fun op w _ => hperform op w) (awaits_true p) w

/-! ## Transactions -/

/-- Run a program to its end and keep what it did only if it resolves. -/
def transact (perform : (op : I.Op) → W → Except ε (I.Res op) × W) (p : Async I ε α) (w : W) :
    Except ε α × W :=
  match eval perform p w with
  | (.ok a, w') => (.ok a, w')
  | (.error e, _) => (.error e, w)

theorem eval_of_transact_ok {a : α}
    (h : transact perform p w = (.ok a, w')) : eval perform p w = (.ok a, w') := by
  unfold transact at h
  split at h
  · rename_i heval
    rw [heval, h]
  · cases h

theorem transact_error {e : ε} (h : transact perform p w = (.error e, w')) : w' = w := by
  unfold transact at h
  split at h
  · cases h
  · cases h
    rfl

/-! ## A part of a larger program -/

variable {J : Interface} {V : Type}

/-- A program over `I` where the operations of `I` are among those of `J`. -/
def lift (f : I.Op → J.Op) (back : ∀ op, J.Res (f op) → I.Res op) : Async I ε α → Async J ε α
  | done a => done a
  | fail e => fail e
  | await op k => await (f op) fun r => (k (r.map (back op))).lift f back

structure Part (W V : Type) where
  get : W → V
  put : W → V → W
  get_put : ∀ w v, get (put w v) = v
  put_put : ∀ w v v', put (put w v) v' = put w v'
  put_get : ∀ w, put w (get w) = w

theorem eval_lift {f : I.Op → J.Op} {back : ∀ op, J.Res (f op) → I.Res op}
    {perform : (op : I.Op) → V → Except ε (I.Res op) × V}
    {perform' : (op : J.Op) → W → Except ε (J.Res op) × W} (part : Part W V)
    (hperform : ∀ op w, (perform' (f op) w).1.map (back op) = (perform op (part.get w)).1 ∧
      (perform' (f op) w).2 = part.put w (perform op (part.get w)).2) (p : Async I ε α) (w : W) :
    eval perform' (p.lift f back) w =
      ((eval perform p (part.get w)).1, part.put w (eval perform p (part.get w)).2) := by
  induction p generalizing w with
  | done a => exact Prod.ext rfl (part.put_get w).symm
  | fail e => exact Prod.ext rfl (part.put_get w).symm
  | await op k ih =>
    obtain ⟨hresult, hworld⟩ := hperform op w
    simp only [lift, eval]
    rw [ih, hresult, hworld, part.get_put, part.put_put]

end Async

end Trellis.Core
