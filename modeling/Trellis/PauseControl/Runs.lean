import Trellis.PauseControl.Service
import Trellis.Core.Store
import Mathlib.Data.List.Permutation

/-!
# Interleaved calls of the pause service

Any number of `activatePause`, `resumePause`, `isOperationPaused` and `getActivePauses` calls over
one table, interleaved at every await, with operations that fail with or without their effect.
`save` writes back every column of the row; `findOne` returns any matching row and `find` returns
the rows in any order. The world keeps a history, newest first, of where calls start and what they
end with.
-/

namespace Trellis.PauseControl

open Core
open Trellis.Audit (EventRow)

/-! ## Calls -/

inductive PauseRequest where
  | activate (opts : ActivatePauseOpts)
  | resume (args : ResumePauseArgs)
  | check (scope : String)
  | list

namespace PauseRequest

def administered : PauseRequest → Option String
  | .activate opts => some opts.scope.value
  | .resume args => some args.scope.value
  | .check _ | .list => none

def resumed : PauseRequest → Option String
  | .resume args => some args.scope.value
  | .activate _ | .check _ | .list => none

def checks : PauseRequest → Option String
  | .check scope => some scope
  | .activate _ | .resume _ | .list => none

def program (service : PauseControlService) : PauseRequest → PauseProgram PauseResponse
  | .activate opts => do
      let pause ← activatePause service opts
      .done (.activated pause)
  | .resume args => do
      let pause ← resumePause service args
      .done (.resumed pause)
  | .check scope => do
      let status ← isOperationPaused scope
      .done (.checked status)
  | .list => do
      let pauses ← getActivePauses
      .done (.listed pauses)

/-- A call between the marks of its start and of its end. -/
def observed (service : PauseControlService) (request : PauseRequest) :
    PauseProgram PauseResponse := do
  ask .started
  let outcome ← (request.program service).attempt
  ask (.settled outcome)
  Async.ofExcept outcome

end PauseRequest

/-! ## Histories -/

/-- What a run shows of a call: it starts at a time, an operation of it is rejected, it ends. -/
inductive PauseEvent (ι : Type) where
  | started (i : ι) (time : Int)
  | rejected (i : ι)
  | settled (i : ι) (outcome : Except Failure PauseResponse)
deriving DecidableEq

def PauseEvent.caller {ι : Type} : PauseEvent ι → ι
  | .started i _ | .rejected i | .settled i _ => i

-- the computable order of the ends of pauses
instance expiryOrder : Preorder (WithTop Int) :=
  @WithTop.instPreorder Int Int.instLinearOrder.toPreorder

def expiry : Option Int → WithTop Int
  | none => ⊤
  | some time => (time : WithTop Int)

def isPaused : Except Failure PauseResponse → Bool
  | .ok (.checked status) => status.paused
  | _ => false

section Histories

variable {ι : Type} (requests : ι → PauseRequest)

/-- A check that starts after an activation of its scope has resolved and before the expiry of
that activation returns `paused = true`, if no resume of the scope starts between the end of
the activation and the end of the check; a check can only fail if an operation of it was
rejected.  The history is newest first. -/
def NeverLost (history : List (PauseEvent ι)) : Prop :=
  ∀ later during between earlier i opts pause k (time : Int) outcome,
    history = later ++ .settled k outcome :: (during ++ .started k time ::
      (between ++ .settled i (.ok pause) :: earlier)) → requests i = .activate opts →
    requests k = .check opts.scope.value → (time : WithTop Int) < expiry opts.expiresAt →
    (∀ j start, .started j start ∈ during ++ between →
      (requests j).resumed ≠ some opts.scope.value) →
    isPaused outcome = true ∨ .rejected k ∈ history

variable (scope : String)

/-- The ends of the activations of a scope that have resolved and after which no resume of the
scope has started. -/
def standing : List (PauseEvent ι) → List (WithTop Int)
  | [] => []
  | .started i _ :: rest => if (requests i).resumed = some scope then [] else standing rest
  | .rejected _ :: rest => standing rest
  | .settled i outcome :: rest =>
    match requests i, outcome with
    | .activate opts, .ok _ =>
      if opts.scope.value = scope then expiry opts.expiresAt :: standing rest
      else standing rest
    | _, _ => standing rest

variable [DecidableEq ι]

/-- The ends of the activations that call `k` has to respect: they stood and were not over when
`k` started, and no resume of the scope has started since. -/
def expected (k : ι) : List (PauseEvent ι) → List (WithTop Int)
  | [] => []
  | .started i time :: rest =>
    if (requests i).resumed = some scope then []
    else if i = k then
      (standing requests scope rest).filter (fun e => (time : WithTop Int) < e) ++ expected k rest
    else expected k rest
  | .rejected _ :: rest => expected k rest
  | .settled _ _ :: rest => expected k rest

def openCalls : List (PauseEvent ι) → List ι
  | [] => []
  | .started i _ :: rest => i :: openCalls rest
  | .rejected _ :: rest => openCalls rest
  | .settled i _ :: rest => (openCalls rest).filter (· ≠ i)

end Histories

/-! ## The table -/

structure PauseWorld (ι : Type) where
  pauses : Slots PauseScope := .empty
  clock : Int := 0
  history : List (PauseEvent ι) := []

/-- How an operation ends: it is served with one of the possible answers, the evidence is
written, it is rejected without effect, or it is performed and its answer is lost. -/
inductive PauseChoice where
  | served (pick : Nat)
  | recorded (event : EventRow)
  | rejected (e : Failure)
  | lost (e : Failure)

def isActiveIn (scope : String) (pause : PauseScope) : Bool :=
  pause.scope = scope && pause.active

def PauseOp.isMark : PauseOp → Bool
  | .started | .settled _ => true
  | _ => false

namespace PauseWorld

variable {ι : Type}

def log (w : PauseWorld ι) (event : PauseEvent ι) : PauseWorld ι :=
  { w with history := event :: w.history }

def effect (i : ι) (w : PauseWorld ι) : PauseOp → PauseWorld ι
  | .insert pause =>
    { w with pauses := w.pauses.push { toPauseFields := pause, id := w.pauses.next } }
  | .save pause => { w with pauses := w.pauses.modify pause.id fun _ => pause }
  | .started => w.log (.started i w.clock)
  | .settled outcome => w.log (.settled i outcome)
  | .findActive _ | .findById _ | .findPaused _ | .findAllActive | .createAuditEntry _ | .now
  | .recordSensitiveAction _ | .delay _ => w

def answer (w : PauseWorld ι) (pick : Nat) : (op : PauseOp) → Option op.Res
  | .findActive scope => some (pickFrom pick (w.pauses.select (isActiveIn scope)))
  | .findById id => some (w.pauses.get id)
  | .findPaused scope =>
    pickFrom pick (w.pauses.select fun pause =>
      isActiveIn scope pause || isActiveIn PausableScope.all.value pause).permutations'
  | .findAllActive => pickFrom pick (w.pauses.select (·.active)).permutations'
  | .insert pause => some { toPauseFields := pause, id := w.pauses.next }
  | .save pause => some pause
  | .createAuditEntry _ | .delay _ | .started | .settled _ => some ()
  | .now => some w.clock
  | .recordSensitiveAction _ => none

/-- Perform one operation of call `i`; the marks of its start and its end are always set. -/
def perform (i : ι) (op : PauseOp) (c : PauseChoice) (w : PauseWorld ι) :
    Option (Except Failure op.Res × PauseWorld ι) :=
  match c, op with
  | _, .started => some (.ok (), w.effect i .started)
  | _, .settled outcome => some (.ok (), w.effect i (.settled outcome))
  | .served pick, op => (w.answer pick op).map fun a => (.ok a, w.effect i op)
  | .recorded event, .recordSensitiveAction _ => some (.ok event, w)
  | .recorded _, _ => none
  | .rejected e, _ => some (.error e, w.log (.rejected i))
  | .lost e, op => some (.error e, (w.effect i op).log (.rejected i))

theorem perform_started (i : ι) (c : PauseChoice) (w : PauseWorld ι) :
    w.perform i .started c = some (.ok (), w.log (.started i w.clock)) := by
  cases c <;> rfl

theorem perform_settled (i : ι) (outcome : Except Failure PauseResponse) (c : PauseChoice)
    (w : PauseWorld ι) :
    w.perform i (.settled outcome) c = some (.ok (), w.log (.settled i outcome)) := by
  cases c <;> rfl

theorem perform_cases {i : ι} {op : PauseOp} {c : PauseChoice} {w w' : PauseWorld ι}
    {r : Except Failure op.Res} (hop : op.isMark = false) (h : w.perform i op c = some (r, w')) :
    (∃ a, r = .ok a ∧ w' = w.effect i op ∧
      ((∃ pick, w.answer pick op = some a) ∨ ∃ input, op = .recordSensitiveAction input)) ∨
    ∃ e, r = .error e ∧ (w' = w.log (.rejected i) ∨ w' = (w.effect i op).log (.rejected i)) := by
  cases c with
  | served pick =>
    have hserved : (w.answer pick op).map (fun a => (Except.ok a, w.effect i op)) =
        some (r, w') := by
      cases op <;> exact h
    obtain ⟨a, hanswer, hpair⟩ := Option.map_eq_some_iff.mp hserved
    obtain ⟨rfl, rfl⟩ := Prod.mk.inj hpair
    exact .inl ⟨a, rfl, rfl, .inl ⟨pick, hanswer⟩⟩
  | recorded event =>
    cases op with
    | recordSensitiveAction input =>
      cases h
      exact .inl ⟨event, rfl, rfl, .inr ⟨input, rfl⟩⟩
    | started | settled => cases hop
    | _ => cases h
  | rejected e =>
    have hrejected : some (Except.error e, w.log (.rejected i)) = some (r, w') := by
      cases op <;> first | exact h | cases hop
    obtain ⟨rfl, rfl⟩ := Prod.mk.inj (Option.some.inj hrejected)
    exact .inr ⟨e, rfl, .inl rfl⟩
  | lost e =>
    have hlost : some (Except.error e, (w.effect i op).log (.rejected i)) = some (r, w') := by
      cases op <;> first | exact h | cases hop
    obtain ⟨rfl, rfl⟩ := Prod.mk.inj (Option.some.inj hlost)
    exact .inr ⟨e, rfl, .inr rfl⟩

theorem history_effect {op : PauseOp} (hop : op.isMark = false) (i : ι) (w : PauseWorld ι) :
    (w.effect i op).history = w.history := by
  cases op <;> first | rfl | cases hop

end PauseWorld

/-- The table, used by calls named by `ι`; the clock never goes back. -/
def pauseSemantics (ι : Type) : Semantics pauseInterface Failure ι (PauseWorld ι) where
  Choice := PauseChoice
  perform i op c w := w.perform i op c
  Event := Nat
  happen elapsed w := { w with clock := w.clock + elapsed }

def pausePool {ι : Type} (service : PauseControlService) (requests : ι → PauseRequest)
    (pauses : Slots PauseScope) : Pool pauseInterface Failure ι (PauseWorld ι) PauseResponse where
  world := { pauses := pauses }
  calls i := (requests i).observed service

/-! ## Conditions on the steps of a run -/

section Conditions

variable {ι : Type} [DecidableEq ι] (requests : ι → PauseRequest)

def Free (scope : String) (history : List (PauseEvent ι)) : Prop :=
  ∀ j ∈ openCalls history, (requests j).administered ≠ some scope

/-- The activation does not end earlier than one that stands. -/
def NotShortening (w : PauseWorld ι) : PauseRequest → Prop
  | .activate opts => ∀ e ∈ standing requests opts.scope.value w.history,
      (w.clock : WithTop Int) < e → e ≤ expiry opts.expiresAt
  | .resume _ | .check _ | .list => True

/-- The calls that administer one scope do not overlap, and no activation shortens one that
stands; a reader ends a row that still has the expiry it has read. -/
def Admissible (i : ι) (w : PauseWorld ι) : PauseOp → Prop
  | .started => (∀ scope ∈ (requests i).administered, Free requests scope w.history) ∧
      NotShortening requests w (requests i)
  | .save pause => (requests i).administered = none →
      ∀ stored ∈ w.pauses.get pause.id, stored.expiresAt = pause.expiresAt
  | _ => True

/-- No activation that a check has to respect is over before the check has ended. -/
def InTime (i : ι) (w : PauseWorld ι) : Prop :=
  ∀ scope ∈ (requests i).checks, ∀ e ∈ expected requests scope i w.history,
    (w.clock : WithTop Int) < e

def pauseGuard : Guard (pauseSemantics ι) :=
  fun i op _ w => Admissible requests i w op ∧ InTime requests i w

instance (scope : String) (history : List (PauseEvent ι)) :
    Decidable (Free requests scope history) :=
  inferInstanceAs (Decidable (∀ j ∈ _, _))

instance (w : PauseWorld ι) (request : PauseRequest) :
    Decidable (NotShortening requests w request) :=
  match request with
  | .activate _ => inferInstanceAs (Decidable (∀ e ∈ _, _))
  | .resume _ | .check _ | .list => isTrue trivial

instance (i : ι) (w : PauseWorld ι) (op : PauseOp) : Decidable (Admissible requests i w op) :=
  match op with
  | .started => inferInstanceAs (Decidable ((∀ scope ∈ _, _) ∧ _))
  | .save _ => inferInstanceAs (Decidable (_ → ∀ stored ∈ _, _))
  | .findActive _ | .findById _ | .findPaused _ | .findAllActive | .insert _
  | .createAuditEntry _ | .now | .recordSensitiveAction _ | .delay _ | .settled _ =>
    isTrue trivial

instance : ∀ i op c w, Decidable (pauseGuard requests i op c w) :=
  fun i op _ w => inferInstanceAs (Decidable (Admissible requests i w op ∧
    ∀ scope ∈ (requests i).checks, ∀ e ∈ expected requests scope i w.history, _ < e))

end Conditions

end Trellis.PauseControl
