import Trellis.Billing.Anchor

/-!
# Failed plan changes

A plan change opens the subscription of an account before it quotes the change, and only the
check of the balance takes the subscription back when it throws.
-/

namespace Trellis.Billing

open Core

theorem quotePlanChange_isOk {fromPlan toPlan : BillingPlan} {subscription : AccountSubscription}
    {at' : Date} {first : Bool} :
    (quotePlanChange fromPlan toPlan subscription at' first).isOk ↔
      at' ≠ none ∧ subscription.cycleStart ≠ none ∧ subscription.cycleEnd ≠ none := by
  obtain ⟨cycleStart, cycleEnd, _, _⟩ := subscription
  cases at' <;> cases cycleStart <;> cases cycleEnd <;> simp [quotePlanChange, toBillingCycle,
    toIsoString, bind, Except.bind, pure, Except.pure, Except.isOk, Except.toBool]

variable (clock : Instant) (accountId planId : String) (options : SetPlanOptions)

/-- The dates a first subscription is opened with are valid. -/
def SetPlanOptions.ValidDates : Prop :=
  let at' := options.at'.getD (some clock)
  let start := options.cycleStart.getD at'
  at' ≠ none ∧ start ≠ none ∧ start.bind addBillingMonth ≠ none

theorem failed_change_leaves_no_trace_iff (accounts : String → Account) :
    let result := setPlan clock accountId planId options (accounts accountId)
    ((∃ e, result.1 = .error e) → Function.update accounts accountId result.2 = accounts) ↔
      (∀ plan ∈ plans, plan.id ≠ planId) ∨ (accounts accountId).subscription ≠ none ∨
        options.ValidDates clock := by
  intro result
  rw [Function.update_eq_self_iff]
  subst result
  generalize accounts accountId = account
  unfold setPlan findPlan
  cases hplan : plans.find? (·.id = planId) with
  | none => simp_all
  | some plan =>
    have hknown : ¬ ∀ plan ∈ plans, plan.id ≠ planId := by
      intro hunknown
      exact hunknown plan (List.mem_of_find?_eq_some hplan) (by simpa using List.find?_some hplan)
    have hvalid := @quotePlanChange_isOk account.getPlan plan (account.ensureSubscription
      (options.at'.getD (some clock)) options.cycleStart) (options.at'.getD (some clock))
      account.subscription.isNone
    dsimp only
    generalize quotePlanChange _ _ _ _ _ = quote at hvalid ⊢
    obtain ⟨_, subscription, _⟩ := account
    cases quote with
    | error e =>
      cases subscription with
      | none =>
        simpa [hknown, Account.ensureSubscription, SetPlanOptions.ValidDates, Except.isOk,
          Except.toBool] using hvalid
      | some subscription => simp [Account.ensureSubscription]
    | ok proration =>
      have hdates : subscription ≠ none ∨ options.ValidDates clock := by
        cases subscription with
        | none => exact .inr (hvalid.mp rfl)
        | some subscription => simp
      dsimp only
      generalize assertBalanceTransition _ _ = balance
      cases balance <;> simp [hdates]

/-- A first change at an invalid `Date` throws and leaves a subscription. -/
theorem invalid_date_leaves_subscription :
    let result := setPlan january15 "acc" "starter" { at' := some none } {}
    (∃ e, result.1 = .error e) ∧ result.2.subscription ≠ none :=
  ⟨⟨_, rfl⟩, Option.some_ne_none _⟩

end Trellis.Billing
