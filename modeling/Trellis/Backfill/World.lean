import Trellis.Backfill.Job

/-!
# A backfill job in its surroundings

The job awaits a checkpoint store, which may reject an operation or lose its answer, and an
adapter, which is a parameter. Attempts crash between any two operations and start again.
-/

namespace Trellis.Backfill

open Core

variable {R V X : Type}

/-! ## The store and the adapter -/

/-- How an adapter over data `X` answers, whatever the outside chooses; the data may also be
edited by others. -/
structure AdapterModel (R V X : Type) where
  Choice : Type
  scan : Choice → X → Option (Except Failure (Page R))
  apply : R → Change V → Choice → X → Option (Except Failure ApplyAnswer × X)
  restore : String → Undo V → Choice → X → Option (Except Failure Unit × X)
  Event : Type
  happen : Event → X → X

/-- The stored checkpoint of the job, and the data of the adapter. -/
structure JobWorld (V X : Type) where
  stored : Option (Checkpoint V)
  data : X

/-- What is chosen for an operation: the store serves it, rejects it, or performs it and
loses the answer; the adapter has choices of its own. -/
inductive JobChoice (A : AdapterModel R V X) where
  | served
  | rejected (e : Failure)
  | lost (e : Failure)
  | adapter (c : A.Choice)

def performOp (A : AdapterModel R V X) : (op : Op R V) → JobChoice A → JobWorld V X →
    Option (Except Failure op.Res × JobWorld V X)
  | .load, .served, w => some (.ok w.stored, w)
  | .load, .rejected e, w => some (.error e, w)
  | .save checkpoint, .served, w => some (.ok (), { w with stored := some checkpoint })
  | .save _, .rejected e, w => some (.error e, w)
  | .save checkpoint, .lost e, w => some (.error e, { w with stored := some checkpoint })
  | .scan _ _, .adapter c, w => (A.scan c w.data).map fun r => (r, w)
  | .apply record change, .adapter c, w =>
    (A.apply record change c w.data).map fun x => (x.1, { w with data := x.2 })
  | .restore recordId undo, .adapter c, w =>
    (A.restore recordId undo c w.data).map fun x => (x.1, { w with data := x.2 })
  | _, _, _ => none

/-- The job's operations; others may edit the adapter's data between them. -/
def jobSemantics (A : AdapterModel R V X) :
    Semantics (backfillInterface R V) Failure Unit (JobWorld V X) where
  Choice := JobChoice A
  perform _ op c w := performOp A op c w
  Event := A.Event
  happen e w := { w with data := A.happen e w.data }

/-! ## What an operation can do -/

section Inversion

variable {A : AdapterModel R V X} {c : JobChoice A} {w w' : JobWorld V X}

theorem load_cases {r : Except Failure (Option (Checkpoint V))}
    (h : performOp A .load c w = some (r, w')) :
    w' = w ∧ ∀ found, r = .ok found → found = w.stored := by
  cases c with
  | served =>
    cases h
    exact ⟨rfl, fun found hfound => by cases hfound; rfl⟩
  | rejected e =>
    cases h
    exact ⟨rfl, nofun⟩
  | lost e => cases h
  | adapter c => cases h

theorem save_cases {checkpoint : Checkpoint V} {r : Except Failure Unit}
    (h : performOp A (.save checkpoint) c w = some (r, w')) :
    w' = { w with stored := some checkpoint } ∨ w' = w ∧ ∃ e, r = .error e := by
  cases c with
  | served =>
    cases h
    exact .inl rfl
  | rejected e =>
    cases h
    exact .inr ⟨rfl, e, rfl⟩
  | lost e =>
    cases h
    exact .inl rfl
  | adapter c => cases h

theorem scan_cases {cursor : Option String} {limit : Nat} {r : Except Failure (Page R)}
    (h : performOp A (.scan cursor limit) c w = some (r, w')) :
    ∃ c', A.scan c' w.data = some r ∧ w' = w := by
  cases c with
  | adapter c =>
    rcases Option.map_eq_some_iff.mp h with ⟨r', hscan, heq⟩
    cases heq
    exact ⟨c, hscan, rfl⟩
  | served => cases h
  | rejected e => cases h
  | lost e => cases h

theorem apply_cases {record : R} {change : Change V} {r : Except Failure ApplyAnswer}
    (h : performOp A (.apply record change) c w = some (r, w')) :
    ∃ c' x, c = .adapter c' ∧ A.apply record change c' w.data = some (r, x) ∧
      w' = { w with data := x } := by
  cases c with
  | adapter c =>
    rcases Option.map_eq_some_iff.mp h with ⟨⟨r', x⟩, happly, heq⟩
    cases heq
    exact ⟨c, x, rfl, happly, rfl⟩
  | served => cases h
  | rejected e => cases h
  | lost e => cases h

theorem restore_cases {recordId : String} {undo : Undo V} {r : Except Failure Unit}
    (h : performOp A (.restore recordId undo) c w = some (r, w')) :
    ∃ c' x, A.restore recordId undo c' w.data = some (r, x) ∧ w' = { w with data := x } := by
  cases c with
  | adapter c =>
    rcases Option.map_eq_some_iff.mp h with ⟨⟨r', x⟩, hrestore, heq⟩
    cases heq
    exact ⟨c, x, hrestore, rfl⟩
  | served => cases h
  | rejected e => cases h
  | lost e => cases h

end Inversion

/-! ## Histories -/

abbrev ApplyGuard (A : AdapterModel R V X) : Type :=
  Change V → A.Choice → JobWorld V X → Prop

/-- A condition on the calls of `apply`, as one on every step. -/
def onApply {A : AdapterModel R V X} (G : ApplyGuard A) : Guard (jobSemantics A)
  | _, .apply _ change, .adapter c, w => G change c w
  | _, _, _, _ => True

/-- The attempts of one job: runs with any options and rollbacks. -/
inductive Starts (adapter : Adapter R V) (jobId : String) : Program R V (Checkpoint V) → Prop
  | run (authorized : Bool) (options : RunOptions) (pages : Nat) :
      Starts adapter jobId (run adapter authorized jobId options pages)
  | rollback (authorized : Bool) : Starts adapter jobId (rollback authorized jobId)

abbrev JobSession (R V X : Type) : Type :=
  Session (backfillInterface R V) Failure (JobWorld V X) (Checkpoint V)

def newJob (adapter : Adapter R V) (authorized : Bool) (jobId : String) (options : RunOptions)
    (pages : Nat) (x : X) : JobSession R V X :=
  ⟨⟨none, x⟩, run adapter authorized jobId options pages⟩

end Trellis.Backfill
