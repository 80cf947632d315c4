import Trellis.Audit.AdminConfig

/-!
# Rules for changes with evidence

What a caller of `applyWithEvidence` has to show about its own callbacks, in a world that
others move between any two awaits.
-/

namespace Trellis.Audit

open Core

section Rules

variable {J : Interface} {ι W σ ρ : Type} {S : Semantics J Failure ι W} {g : Guard S} {i : ι}
  {C : Contract W} {service : AdminConfigAuditService J}

variable (S g i C service) in
/-- Writing evidence and waiting keep every assertion of the caller, also where they fail. -/
structure KeepsAssertions : Prop where
  record : ∀ (P : Assertion C) (input : RecordSensitiveActionInput),
    Triple S g i P (service.recordSensitiveAction input) (fun _ => P) P
  delay : ∀ (P : Assertion C) (ms : Int), Triple S g i P (service.delay ms) (fun _ => P) P

variable (h : KeepsAssertions S g i C service) {P : Assertion C}
  {details : ChangeDetails} {evidence : EvidenceFields}

include h

theorem triple_backoff (rest attempt : Nat) :
    Triple S g i P (backoff service rest attempt) (fun _ => P) P := by
  unfold backoff
  split
  · exact h.delay P _
  · exact triple_done fun _ _ hP => hP

theorem triple_recordAttempts (rest attempt : Nat) (lastError : Failure) :
    Triple S g i P (recordAttempts service details evidence rest attempt lastError) (fun _ => P)
      P := by
  induction rest generalizing attempt lastError with
  | zero => exact triple_throw fun _ _ hP => hP
  | succ rest ih =>
    have hrecord : Triple S g i P (record service details evidence attempt).attempt
        (fun _ => P) P :=
      triple_attempt (h.record P _) (fun _ _ _ hP => hP) fun _ _ _ hP => hP
    refine triple_bind hrecord fun recorded => ?_
    cases recorded with
    | ok _ => exact triple_done fun _ _ hP => hP
    | error error => exact triple_bind (triple_backoff h rest attempt) fun _ => ih _ error

theorem triple_recordBestEffort :
    Triple S g i P (recordBestEffort service details evidence) (fun _ => P) .top := by
  have hrecord : Triple S g i P (record service details evidence 1).attempt (fun _ => P) .top :=
    triple_attempt (h.record P _) (fun _ _ _ hP => hP) fun _ _ _ hP => hP
  exact triple_bind hrecord fun _ => triple_done fun _ _ hP => hP

variable {change : AdminConfigChange J σ ρ} {B : σ → Assertion C} {A : σ → ρ → Assertion C}
  {R : ρ → Assertion C}

theorem triple_evidenceOfApplied (before : σ) (result : ρ)
    (hafter : Triple S g i (A before result) change.snapshot (fun _ => A before result) .top)
    (hrevert : Triple S g i (A before result) (change.revert before) (fun _ => .top) .top)
    (hresult : ∀ w, C.inv w → A before result w → R result w) :
    Triple S g i (A before result) (evidenceOfApplied service change before result) R .top := by
  refine triple_bind hafter fun after => ?_
  refine triple_bind (R := fun _ => A before result) (triple_attempt
    (triple_recordAttempts h _ _ _) (fun _ _ _ hA => hA) fun _ _ _ hA => hA) fun recorded => ?_
  cases recorded with
  | ok _ => exact triple_done hresult
  | error error =>
    refine triple_bind (triple_try hrevert) fun reverted => ?_
    cases reverted with
    | ok _ => exact triple_fail
    | error _ => exact triple_fail

/-- `snapshot` establishes `B`, `apply` establishes `A`, and the second snapshot and the
evidence keep it; a rejected change promises nothing. -/
theorem triple_applyWithEvidence (hsnapshot : Triple S g i P change.snapshot B .top)
    (happly : ∀ before, Triple S g i (B before) change.apply (A before) .top)
    (hafter : ∀ before result,
      Triple S g i (A before result) change.snapshot (fun _ => A before result) .top)
    (hrevert : ∀ before result,
      Triple S g i (A before result) (change.revert before) (fun _ => .top) .top)
    (hresult : ∀ before result w, C.inv w → A before result w → R result w) :
    Triple S g i P (applyWithEvidence service change) R .top := by
  unfold applyWithEvidence
  split
  · refine triple_bind hsnapshot fun before => ?_
    let R' : Except Failure ρ → Assertion C := fun applied => match applied with
      | .ok result => A before result
      | .error _ => .top
    refine triple_bind (R := R') (triple_attempt (happly before) (fun _ _ _ hA => hA)
      fun _ _ _ _ => trivial) fun applied => ?_
    cases applied with
    | ok result =>
      exact triple_evidenceOfApplied h before result (hafter before result)
        (hrevert before result) (hresult before result)
    | error error => exact triple_bind (triple_recordBestEffort h) fun _ => triple_fail
  · exact triple_bind (triple_recordBestEffort h) fun _ => triple_fail

end Rules

end Trellis.Audit
