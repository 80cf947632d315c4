import Mathlib.Data.List.Sort

/-!
# The deterministic state machine

`DeterministicStateMachine` of `common/lifecycle/deterministic-state-machine.ts`. `recordAudit`
reads a name that is declared nowhere when it logs a rejection, so a transition that is not
allowed ends with a `ReferenceError`.
-/

namespace Trellis.Common

inductive GuardResult where
  | accepted
  | refused
  | reason (text : String)

structure TransitionRule (Γ : Type) where
  fromStates : List String
  toState : String
  guard : Option (Γ → GuardResult) := none

/-- `StateMachineDefinition`; a state is declared with its `isTerminal`. -/
structure StateMachine (Γ : Type) where
  name : String
  states : List (String × Bool)
  transitions : List (TransitionRule Γ)

structure TransitionEvaluationResult where
  allowed : Bool
  fromState : String
  toState : String
  reason : Option String
  allowedTransitions : List String
  isTerminal : Bool

structure InvalidStateTransitionDetails where
  stateMachineName : String
  resourceType : String
  resourceId : Option String
  currentState : String
  attemptedState : String
  allowedTransitions : List String
  reason : Option String

inductive LifecycleFailure where
  | invalidStateTransition (details : InvalidStateTransitionDetails)
  | referenceError (message : String)

/-- The throw of `recordAudit`; nothing here reads the entry that it writes before. -/
def recordAudit (allowed : Bool) : Except LifecycleFailure Unit :=
  if allowed then .ok () else .error (.referenceError "kead is not defined")

namespace StateMachine

variable {Γ : Type} (machine : StateMachine Γ) (fromState toState : String) (context : Γ)

def isTerminal : Bool :=
  (machine.states.lookup fromState).getD false

/-- `transitionIndex.get(fromState)`: a rule is there as often as it lists the state. -/
def rulesFrom : List (TransitionRule Γ) :=
  machine.transitions.flatMap fun rule =>
    (rule.fromStates.filter (· = fromState)).map fun _ => rule

def rulesTo : List (TransitionRule Γ) :=
  (machine.rulesFrom fromState).filter (·.toState = toState)

def getAllowedTransitions : List String :=
  let declared := machine.states.map Prod.fst
  (((machine.rulesFrom fromState).map (·.toState)).dedup).insertionSort
    fun a b => declared.idxOf a ≤ declared.idxOf b

/-- The loop over the guards: the reason of the first rejection. -/
def rejection : List (TransitionRule Γ) → Option String
  | [] => none
  | rule :: rules =>
    match (rule.guard.map fun guard => guard context : Option GuardResult) with
    | some .refused => some ("Transition guard rejected transition from \"" ++ fromState ++
        "\" to \"" ++ toState ++ "\"")
    | some (.reason text) => some text
    | _ => rejection rules

def evaluateTransition : Except LifecycleFailure TransitionEvaluationResult :=
  let allowedTransitions := machine.getAllowedTransitions fromState
  let ended (allowed isTerminal : Bool) (reason : Option String) :=
    (recordAudit allowed).map fun _ =>
      { allowed, fromState, toState, reason, allowedTransitions, isTerminal }
  if fromState = toState then ended true (machine.isTerminal fromState) none
  else if machine.isTerminal fromState then
    ended false true (some ("State \"" ++ fromState ++
      "\" is terminal and cannot transition to any other state"))
  else if (machine.rulesTo fromState toState).isEmpty then
    ended false false (some ("No transition defined from \"" ++ fromState ++ "\" to \"" ++
      toState ++ "\""))
  else
    let rejected := rejection fromState toState context (machine.rulesTo fromState toState)
    ended rejected.isNone false rejected

variable (resourceType resourceId : Option String)

def assertCanTransition : Except LifecycleFailure Unit := do
  let evaluation ← machine.evaluateTransition fromState toState context
  if evaluation.allowed then .ok ()
  else .error (.invalidStateTransition
    { stateMachineName := machine.name, resourceType := resourceType.getD machine.name
      resourceId, currentState := fromState, attemptedState := toState
      allowedTransitions := evaluation.allowedTransitions, reason := evaluation.reason })

def transition : Except LifecycleFailure String := do
  machine.assertCanTransition fromState toState context resourceType resourceId
  recordAudit true
  return toState

/-! ## Decisions -/

/-- The states are equal, or the source is not terminal, there is a rule, and no guard of the
rules rejects. -/
def Allowed : Prop :=
  fromState = toState ∨ machine.isTerminal fromState = false ∧
    machine.rulesTo fromState toState ≠ [] ∧ ∀ rule ∈ machine.rulesTo fromState toState,
      ∀ guard, rule.guard = some guard → guard context = .accepted

/-- The evaluation resolves with the decision, and the other two calls reject with an
`InvalidStateTransitionException` exactly where it is negative. -/
def DecidesAsDocumented : Prop :=
  (∃ result, machine.evaluateTransition fromState toState context = .ok result ∧
    (result.allowed = true ↔ machine.Allowed fromState toState context)) ∧
  ((∃ details, machine.assertCanTransition fromState toState context resourceType resourceId =
      .error (.invalidStateTransition details)) ↔ ¬ machine.Allowed fromState toState context) ∧
  ((∃ details, machine.transition fromState toState context resourceType resourceId =
      .error (.invalidStateTransition details)) ↔ ¬ machine.Allowed fromState toState context)

theorem rejection_eq_none {rules : List (TransitionRule Γ)} :
    rejection fromState toState context rules = none ↔
      ∀ rule ∈ rules, ∀ guard, rule.guard = some guard → guard context = .accepted := by
  induction rules with
  | nil => simp [rejection]
  | cons rule rules ih =>
    rw [List.forall_mem_cons, ← ih, rejection]
    cases rule.guard with
    | none => simp
    | some guard => cases hresult : guard context <;> simp [hresult]

/-- Whether the transition is allowed decides how the evaluation ends. -/
theorem evaluateTransition_cases :
    machine.Allowed fromState toState context ∧ (∃ result, result.allowed = true ∧
        machine.evaluateTransition fromState toState context = .ok result) ∨
      ¬ machine.Allowed fromState toState context ∧
        machine.evaluateTransition fromState toState context =
          .error (.referenceError "kead is not defined") := by
  unfold Allowed
  rw [← rejection_eq_none fromState toState context]
  by_cases hsame : fromState = toState
  · simp [evaluateTransition, hsame, recordAudit, Except.map]
  · cases hterminal : machine.isTerminal fromState with
    | true => simp [evaluateTransition, hsame, hterminal, recordAudit, Except.map]
    | false =>
      by_cases hrules : machine.rulesTo fromState toState = []
      · simp [evaluateTransition, hsame, hterminal, hrules, recordAudit, Except.map]
      · cases hrejected : rejection fromState toState context
          (machine.rulesTo fromState toState) <;>
          simp [evaluateTransition, hsame, hterminal, hrules, hrejected, recordAudit, Except.map]

theorem decides_as_documented_iff :
    machine.DecidesAsDocumented fromState toState context resourceType resourceId ↔
      machine.Allowed fromState toState context := by
  rcases machine.evaluateTransition_cases fromState toState context with
    ⟨hallowed, result, htrue, heval⟩ | ⟨hdenied, heval⟩
  · simp [DecidesAsDocumented, hallowed, transition, assertCanTransition, heval, htrue,
      recordAudit, bind, Except.bind, pure, Except.pure]
  · simp [DecidesAsDocumented, hdenied, heval]

/-- Two states and no rule. -/
def idle : StateMachine Unit where
  name := "idle"
  states := [("open", false), ("closed", true)]
  transitions := []

theorem denied_transition_is_reference_error : ¬ idle.Allowed "open" "closed" () ∧
    idle.transition "open" "closed" () none none = .error (.referenceError "kead is not defined") ∧
    ¬ idle.DecidesAsDocumented "open" "closed" () none none := by
  have hdenied : ¬ idle.Allowed "open" "closed" () := by
    rintro (heq | ⟨-, hrules, -⟩)
    · exact absurd heq (by decide)
    · exact hrules rfl
  refine ⟨hdenied, rfl, ?_⟩
  rintro ⟨⟨result, hresult, -⟩, -⟩
  cases hresult

end StateMachine

end Trellis.Common
