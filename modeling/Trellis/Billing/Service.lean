import Mathlib.Data.Rat.Floor
import Trellis.Core.Calendar

/-!
# The billing service

`billing-proration.ts` and the plan changes and billing cycles of `billing.service.ts`. A call
touches the entries of its own account only, so the model is the state of one account. Fractions
of a cycle are exact rationals.
-/

namespace Trellis.Billing

open Core

inductive BillingFailure where
  | notFound (message : String)
  | rangeError (message : String)
  | unprocessable (message invariantCode : String)

/-! ## Plans -/

structure BillingPlan where
  id : String
  name : String
  monthlyPriceCents : Int

def freePlan : BillingPlan :=
  ⟨"free", "Free", 0⟩

def plans : List BillingPlan :=
  [freePlan, ⟨"starter", "Starter", 1900⟩, ⟨"growth", "Growth", 9900⟩]

def findPlan (planId : String) : Except BillingFailure BillingPlan :=
  match plans.find? (·.id = planId) with
  | some plan => .ok plan
  | none => .error (.notFound ("Unknown billing plan: " ++ planId))

/-! ## Cycles -/

/-- The year `Date.UTC` takes a year argument for. -/
def fullYear (year : Int) : Int :=
  if 0 ≤ year ∧ year ≤ 99 then 1900 + year else year

/-- `new Date(Date.UTC(year, month + 1, 0))`, the last day of a month. -/
def lastDayOf (year month : Int) : Date :=
  CivilTime.toDate
    { month := 12 * fullYear year + month, day := daysInMonth (12 * fullYear year + month),
      msOfDay := 0, day_pos := daysInMonth_pos _, day_le := le_rfl, msOfDay_lt := midnight_lt }

/-- `addBillingMonth` of a valid `Date`. -/
def addBillingMonth (start : Instant) : Date :=
  let year := if start.month % 12 = 11 then start.month / 12 + 1 else start.month / 12
  let month := (start.month % 12 + 1) % 12
  (lastDayOf year month).bind fun last => CivilTime.toDate
    { month := last.month, day := min start.day last.day, msOfDay := start.msOfDay,
      day_pos := lt_min start.day_pos last.day_pos, day_le := (min_le_right _ _).trans last.day_le,
      msOfDay_lt := start.msOfDay_lt }

structure AccountSubscription where
  cycleStart : Date
  cycleEnd : Date
  creditBalanceCents : Int := 0
  creditCycleStart : Date := none

structure BillingCycle where
  cycleStart : Instant
  cycleEnd : Instant

def toIsoString : Date → Except BillingFailure Instant
  | some d => .ok d
  | none => .error (.rangeError "Invalid time value")

variable (subscription : AccountSubscription)

def toBillingCycle : Except BillingFailure BillingCycle := do
  let cycleStart ← toIsoString subscription.cycleStart
  let cycleEnd ← toIsoString subscription.cycleEnd
  return ⟨cycleStart, cycleEnd⟩

/-! ## Proration -/

inductive ProrationDirection where
  | activation | upgrade | downgrade | lateral | unchanged
  deriving DecidableEq

structure ProrationQuote where
  fromPlanId : String
  toPlanId : String
  direction : ProrationDirection
  effectiveAt : Instant
  cycleStart : Instant
  cycleEnd : Instant
  remainingFraction : ℚ
  unusedCreditCents : Int
  newPlanChargeCents : Int

def ProrationQuote.netAmountCents (quote : ProrationQuote) : Int :=
  quote.newPlanChargeCents - quote.unusedCreditCents

def remainingFraction (cycleStart cycleEnd effectiveAt : Instant) : ℚ :=
  let totalCycleMs := cycleEnd.time - cycleStart.time
  if totalCycleMs ≤ 0 then 0
  else
    let elapsedMs := effectiveAt.time - cycleStart.time
    min (max ((totalCycleMs - min (max elapsedMs 0) totalCycleMs : ℚ) / totalCycleMs) 0) 1

def resolveProrationDirection (fromPlan toPlan : BillingPlan) (isFirstSubscription : Bool) :
    ProrationDirection :=
  if isFirstSubscription then .activation
  else if fromPlan.id = toPlan.id then .unchanged
  else if fromPlan.monthlyPriceCents < toPlan.monthlyPriceCents then .upgrade
  else if toPlan.monthlyPriceCents < fromPlan.monthlyPriceCents then .downgrade
  else .lateral

/-- `Math.round(priceCents * fraction)`. -/
def roundCents (priceCents : Int) (fraction : ℚ) : Int :=
  ⌊priceCents * fraction + 1 / 2⌋

/-- `quotePlanChange`; an invalid `Date` makes `toISOString` throw. -/
def quotePlanChange (fromPlan toPlan : BillingPlan) (subscription : AccountSubscription)
    (at' : Date) (isFirstSubscription : Bool) : Except BillingFailure ProrationQuote := do
  let effectiveAt ← toIsoString at'
  let cycle ← toBillingCycle subscription
  let fraction := remainingFraction cycle.cycleStart cycle.cycleEnd effectiveAt
  let direction := resolveProrationDirection fromPlan toPlan isFirstSubscription
  return {
    fromPlanId := fromPlan.id
    toPlanId := toPlan.id
    direction, effectiveAt
    cycleStart := cycle.cycleStart
    cycleEnd := cycle.cycleEnd
    remainingFraction := fraction
    unusedCreditCents :=
      if direction = .unchanged then 0 else roundCents fromPlan.monthlyPriceCents fraction
    newPlanChargeCents :=
      if direction = .unchanged then 0 else roundCents toPlan.monthlyPriceCents fraction }

/-! ## Accounts -/

/-- What the service holds for an account; a recorded plan change is its quote. -/
structure Account where
  plan : Option BillingPlan := none
  subscription : Option AccountSubscription := none
  auditTrail : List ProrationQuote := []

structure SetPlanOptions where
  at' : Option Date := none
  cycleStart : Option Date := none

structure PlanChangeResult where
  plan : BillingPlan
  previousPlan : BillingPlan
  proration : ProrationQuote
  creditBalanceCents : Int

def Account.getPlan (account : Account) : BillingPlan :=
  account.plan.getD freePlan

def Account.ensureSubscription (account : Account) (at' : Date) (cycleStart : Option Date) :
    AccountSubscription :=
  account.subscription.getD (let start := cycleStart.getD at'
    { cycleStart := start, cycleEnd := start.bind addBillingMonth })

/-- `applyProrationToSubscription`. -/
def AccountSubscription.applyProration (proration : ProrationQuote) : AccountSubscription :=
  if 0 ≤ proration.netAmountCents then subscription
  else
    let creditCents := |proration.netAmountCents|
    let issuedInCurrentCycle := subscription.creditCycleStart ≠ none ∧
      subscription.creditCycleStart.map (·.time) = subscription.cycleStart.map (·.time)
    { subscription with
      creditBalanceCents :=
        if issuedInCurrentCycle then subscription.creditBalanceCents + creditCents
        else creditCents
      creditCycleStart := subscription.cycleStart }

def assertBalanceTransition (accountId : String) (after : Int) : Except BillingFailure Unit :=
  let subject := "Balance of credit of " ++ accountId
  if after < 0 then
    .error (.unprocessable ("[Invariant Violation: NEGATIVE_BALANCE] " ++ subject ++
      " cannot become negative: " ++ toString after) "NEGATIVE_BALANCE")
  else if 9007199254740991 < after then
    .error (.unprocessable ("[Invariant Violation: BALANCE_NOT_INTEGRAL] " ++ subject ++
      " must be a whole number of minor units.") "BALANCE_NOT_INTEGRAL")
  else .ok ()

/-- The account once the quote for a plan has been accepted. -/
def Account.changed (account : Account) (plan : BillingPlan) (next : AccountSubscription)
    (proration : ProrationQuote) : Account where
  plan := some plan
  subscription := some next
  auditTrail :=
    if proration.direction = .unchanged then account.auditTrail
    else account.auditTrail ++ [proration]

/-- `setPlan` with the time of the clock: the outcome and the account after it. -/
def setPlan (clock : Instant) (accountId planId : String) (options : SetPlanOptions)
    (account : Account) : Except BillingFailure PlanChangeResult × Account :=
  match findPlan planId with
  | .error e => (.error e, account)
  | .ok plan =>
    let at' := options.at'.getD (some clock)
    let previousPlan := account.getPlan
    let isFirstSubscription := account.subscription.isNone
    let subscription := account.ensureSubscription at' options.cycleStart
    match quotePlanChange previousPlan plan subscription at' isFirstSubscription with
    | .error e => (.error e, { account with subscription := some subscription })
    | .ok proration =>
      let next := subscription.applyProration proration
      match assertBalanceTransition accountId next.creditBalanceCents with
      | .error e => (.error e, account)
      | .ok () =>
        (.ok ⟨plan, previousPlan, proration, next.creditBalanceCents⟩,
          account.changed plan next proration)

structure BillingRolloverResult where
  closedCycle : BillingCycle
  nextCycle : BillingCycle
  creditBalanceCents : Int
  writtenOffCreditCents : Int
  plan : BillingPlan

/-- `at.getTime() < cycleEnd.getTime()`; an invalid `Date` compares as false. -/
def isBefore : Date → Date → Bool
  | some d, some d' => d.time < d'.time
  | _, _ => false

def AccountSubscription.writtenOff : AccountSubscription :=
  { subscription with creditBalanceCents := 0, creditCycleStart := none }

def AccountSubscription.advanced : AccountSubscription :=
  { subscription with
    cycleStart := subscription.cycleEnd, cycleEnd := subscription.cycleEnd.bind addBillingMonth }

/-- `rolloverBillingCycle`; it has written when `toISOString` throws. -/
def rolloverBillingCycle (at' : Date) (account : Account) :
    Except BillingFailure (Option BillingRolloverResult) × Account :=
  match account.subscription with
  | none => (.ok none, account)
  | some subscription =>
    if isBefore at' subscription.cycleEnd then (.ok none, account)
    else
      let closed := subscription.writtenOff
      match toBillingCycle closed with
      | .error e => (.error e, { account with subscription := some closed })
      | .ok closedCycle =>
        let next := closed.advanced
        let account' := { account with subscription := some next }
        match toBillingCycle next with
        | .error e => (.error e, account')
        | .ok nextCycle =>
          (.ok (some ⟨closedCycle, nextCycle, next.creditBalanceCents,
            subscription.creditBalanceCents, account.getPlan⟩), account')

end Trellis.Billing
