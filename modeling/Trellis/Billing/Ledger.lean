import Trellis.Billing.Anchor

/-!
# What plan changes cost
-/

namespace Trellis.Billing

open Core List ProrationQuote

/-! ## What a call does -/

variable {subscription : AccountSubscription}

theorem toBillingCycle_ok {cycle : BillingCycle} (h : toBillingCycle subscription = .ok cycle) :
    subscription.cycleStart = some cycle.cycleStart ∧
      subscription.cycleEnd = some cycle.cycleEnd := by
  obtain ⟨start, stop, _, _⟩ := subscription
  cases start with
  | none => cases h
  | some start =>
    cases stop with
    | none => cases h
    | some stop =>
      cases h
      exact ⟨rfl, rfl⟩

variable {fromPlan toPlan : BillingPlan} {quote : ProrationQuote} {isFirst : Bool} {at' : Date}

theorem quotePlanChange_ok
    (h : quotePlanChange fromPlan toPlan subscription at' isFirst = .ok quote) :
    subscription.cycleStart = some quote.cycleStart ∧ subscription.cycleEnd = some quote.cycleEnd ∧
      quote.direction = resolveProrationDirection fromPlan toPlan isFirst ∧ quote.netAmountCents =
        let fraction := remainingFraction quote.cycleStart quote.cycleEnd quote.effectiveAt
        if quote.direction = .unchanged then 0
        else roundCents toPlan.monthlyPriceCents fraction -
          roundCents fromPlan.monthlyPriceCents fraction := by
  unfold quotePlanChange at h
  cases at' with
  | none => cases h
  | some effectiveAt =>
    cases hcycle : toBillingCycle subscription with
    | error e =>
      rw [hcycle] at h
      cases h
    | ok cycle =>
      rw [hcycle] at h
      cases h
      obtain ⟨hstart, hend⟩ := toBillingCycle_ok hcycle
      refine ⟨hstart, hend, rfl, ?_⟩
      split <;> rfl

theorem setPlan_cases (clock : Instant) (accountId planId : String) (options : SetPlanOptions)
    (account : Account) :
    let at' := options.at'.getD (some clock)
    let subscription := account.ensureSubscription at' options.cycleStart
    (∃ e, setPlan clock accountId planId options account = (.error e, account)) ∨
      (∃ e, setPlan clock accountId planId options account =
        (.error e, { account with subscription := some subscription })) ∨
      ∃ plan quote, plan ∈ plans ∧ quotePlanChange account.getPlan plan subscription at'
          account.subscription.isNone = .ok quote ∧
        setPlan clock accountId planId options account = (.ok ⟨plan, account.getPlan, quote,
              (subscription.applyProration quote).creditBalanceCents⟩,
            account.changed plan (subscription.applyProration quote) quote) := by
  simp only [setPlan]
  cases hplan : findPlan planId with
  | error e => exact .inl ⟨e, rfl⟩
  | ok plan =>
    simp only
    cases hquote : quotePlanChange account.getPlan plan (account.ensureSubscription
      (options.at'.getD (some clock)) options.cycleStart) (options.at'.getD (some clock))
      account.subscription.isNone with
    | error e => exact .inr (.inl ⟨e, rfl⟩)
    | ok quote =>
      simp only
      split
      · exact .inl ⟨_, rfl⟩
      · refine .inr (.inr ⟨plan, quote, ?_, hquote, rfl⟩)
        unfold findPlan at hplan
        split at hplan
        · cases hplan
          exact mem_of_find?_eq_some ‹_›
        · cases hplan

/-! ## Charges -/

structure PlanCall where
  clock : Instant
  planId : String
  options : SetPlanOptions := {}

def planChanges (accountId : String) : List PlanCall → Account → List PlanChangeResult
  | [], _ => []
  | call :: calls, account =>
    let step := setPlan call.clock accountId call.planId call.options account
    step.1.toOption.toList ++ planChanges accountId calls step.2

def shareAhead (start stop at' : Instant) : ℚ :=
  (stop.time - at'.time) / (stop.time - start.time)

/-- The prices of the plans held in turn, each for the share of the cycle until the next one. -/
def heldCharge (start stop : Instant) : List PlanChangeResult → ℚ
  | [] => 0
  | change :: rest =>
    let next := (rest.head?.map (·.proration.effectiveAt)).getD stop
    change.plan.monthlyPriceCents *
      ((next.time - change.proration.effectiveAt.time) / (stop.time - start.time)) +
      heldCharge start stop rest

theorem abs_roundCents_sub_le (priceCents : Int) (fraction : ℚ) :
    |(roundCents priceCents fraction : ℚ) - priceCents * fraction| ≤ 1 / 2 := by
  have hle := Int.floor_le (priceCents * fraction + 1 / 2)
  have hlt := Int.lt_floor_add_one (priceCents * fraction + 1 / 2)
  rw [roundCents, abs_le]
  constructor <;> linarith

variable {start stop : Instant}

theorem remainingFraction_eq {at' : Instant} (hstart : start.time ≤ at'.time)
    (hstop : at'.time ≤ stop.time) :
    remainingFraction start stop at' = shareAhead start stop at' := by
  unfold remainingFraction shareAhead
  by_cases htotal : stop.time - start.time ≤ 0
  · have hzero : stop.time = start.time := by omega
    rw [if_pos htotal, hzero]
    simp
  · rw [if_neg htotal]
    have hpos : (0 : ℚ) < stop.time - start.time := by
      exact_mod_cast not_le.mp htotal
    have hstart' : (start.time : ℚ) ≤ at'.time := by exact_mod_cast hstart
    have hstop' : (at'.time : ℚ) ≤ stop.time := by exact_mod_cast hstop
    push_cast
    rw [max_eq_left (by linarith : (0 : ℚ) ≤ at'.time - start.time),
      min_eq_left (by linarith : (at'.time - start.time : ℚ) ≤ stop.time - start.time),
      show (stop.time - start.time - (at'.time - start.time) : ℚ) = stop.time - at'.time by ring]
    rw [max_eq_left (div_nonneg (by linarith) hpos.le), min_eq_left]
    exact (div_le_one hpos).mpr (by linarith)

theorem eq_of_id_eq {plan plan' : BillingPlan} (h : plan ∈ plans) (h' : plan' ∈ plans)
    (hid : plan.id = plan'.id) : plan = plan' :=
  inj_on_of_nodup_map (f := BillingPlan.id) (by decide) h h' hid

theorem abs_net_sub_le (hfrom : fromPlan ∈ plans) (hto : toPlan ∈ plans)
    (h : quotePlanChange fromPlan toPlan subscription at' isFirst = .ok quote) :
    |(quote.netAmountCents : ℚ) - (toPlan.monthlyPriceCents - fromPlan.monthlyPriceCents) *
      remainingFraction quote.cycleStart quote.cycleEnd quote.effectiveAt| ≤ 1 := by
  obtain ⟨-, -, hdirection, hnet⟩ := quotePlanChange_ok h
  generalize remainingFraction quote.cycleStart quote.cycleEnd quote.effectiveAt = fraction at *
  rw [hnet]
  by_cases hunchanged : quote.direction = .unchanged
  · rw [if_pos hunchanged]
    rw [hdirection, resolveProrationDirection] at hunchanged
    have hid : fromPlan.id = toPlan.id := by
      by_contra hne
      split_ifs at hunchanged
    rw [eq_of_id_eq hfrom hto hid]
    simp
  · rw [if_neg hunchanged]
    have hnew := abs_le.mp (abs_roundCents_sub_le toPlan.monthlyPriceCents fraction)
    have hold := abs_le.mp (abs_roundCents_sub_le fromPlan.monthlyPriceCents fraction)
    push_cast
    rw [abs_le]
    constructor <;> linarith

def InsideCycle (start stop : Instant) (changes : List PlanChangeResult) : Prop :=
  ∀ change ∈ changes, change.proration.cycleStart = start ∧ change.proration.cycleEnd = stop ∧
    start.time ≤ change.proration.effectiveAt.time ∧ change.proration.effectiveAt.time ≤ stop.time

instance (changes : List PlanChangeResult) : Decidable (InsideCycle start stop changes) :=
  inferInstanceAs (Decidable (∀ change ∈ changes, _))

variable (accountId : String)

theorem abs_charges_sub_le (calls : List PlanCall) (account : Account)
    (hplan : account.getPlan ∈ plans)
    (hinside : InsideCycle start stop (planChanges accountId calls account)) :
    let changes := planChanges accountId calls account
    |((changes.map (·.proration.netAmountCents)).sum : ℚ) - (heldCharge start stop changes -
      account.getPlan.monthlyPriceCents * shareAhead start stop
        ((changes.head?.map (·.proration.effectiveAt)).getD stop))| ≤ changes.length := by
  induction calls generalizing account with
  | nil => simp [planChanges, heldCharge, shareAhead]
  | cons call calls ih =>
    simp only [planChanges] at hinside ⊢
    rcases setPlan_cases call.clock accountId call.planId call.options account with
      ⟨e, hset⟩ | ⟨e, hset⟩ | ⟨plan, quote, hmem, hquote, hset⟩
    · rw [hset] at hinside ⊢
      exact ih account hplan hinside
    · rw [hset] at hinside ⊢
      exact ih _ hplan hinside
    · rw [hset] at hinside ⊢
      obtain ⟨hstart, hstop, hafter, hbefore⟩ := hinside _ mem_cons_self
      have hnet := abs_net_sub_le hplan hmem hquote
      have hih := ih (account.changed plan _ quote) hmem fun c hc =>
        hinside c (mem_cons_of_mem _ hc)
      rw [hstart, hstop, remainingFraction_eq hafter hbefore] at hnet
      change |_ - (_ - (plan.monthlyPriceCents : ℚ) * _)| ≤ _ at hih
      simp only [Except.toOption, Option.toList_some, singleton_append, map_cons,
        sum_cons, heldCharge, head?_cons, Option.map_some, Option.getD_some,
        length_cons, Nat.cast_add, Nat.cast_one]
      generalize planChanges accountId calls _ = changes at *
      generalize (changes.head?.map (·.proration.effectiveAt)).getD stop = next at *
      have hsplit : ((next.time - quote.effectiveAt.time) / (stop.time - start.time) : ℚ) =
          shareAhead start stop quote.effectiveAt - shareAhead start stop next := by
        unfold shareAhead
        ring
      rw [hsplit]
      rw [abs_le] at hnet hih ⊢
      constructor <;> linarith

/-- The plan changes of an account inside one cycle, from its activation on, cost the prices of
the plans held in turn for the share of the cycle each was held, up to a cent for each change. -/
theorem charges_near_exact {accountId : String} {calls : List PlanCall}
    (hinside : InsideCycle start stop (planChanges accountId calls {})) :
    let changes := planChanges accountId calls {}
    |((changes.map (·.proration.netAmountCents)).sum : ℚ) - heldCharge start stop changes| ≤
      changes.length := by
  have h := abs_charges_sub_le accountId calls {} mem_cons_self hinside
  have hfree : (({} : Account).getPlan.monthlyPriceCents : ℚ) = 0 := by
    norm_cast
  simp only [hfree, zero_mul, sub_zero] at h
  exact h

/-- An account is activated in the middle of January and upgraded at its end. -/
def upgrade : List PlanCall :=
  [⟨january15, "starter", {}⟩, ⟨january31, "growth", {}⟩]

def february15 : Instant :=
  ⟨⟨24277, 15, 0, by decide, by decide, midnight_lt⟩, by decide⟩

theorem upgrade_near_exact :
    |(((planChanges "acct" upgrade {}).map (·.proration.netAmountCents)).sum : ℚ) -
      heldCharge january15 february15 (planChanges "acct" upgrade {})| ≤
        (planChanges "acct" upgrade {}).length := by
  have hinside : InsideCycle january15 february15 (planChanges "acct" upgrade {}) := by
    decide +kernel
  exact charges_near_exact hinside

/-! ## Credit -/

inductive BillingCall where
  | setPlan (clock : Instant) (planId : String) (at' cycleStart : Option Instant)
  | rolloverBillingCycle (at' : Instant)

def BillingCall.run (accountId : String) (account : Account) : BillingCall → Account
  | .setPlan clock planId at' cycleStart =>
    (Billing.setPlan clock accountId planId ⟨at'.map some, cycleStart.map some⟩ account).2
  | .rolloverBillingCycle at' => (Billing.rolloverBillingCycle (some at') account).2

def runCalls (accountId : String) (calls : List BillingCall) : Account :=
  calls.foldl (BillingCall.run accountId) {}

def Account.creditBalance (account : Account) : Int :=
  (account.subscription.map (·.creditBalanceCents)).getD 0

/-- What an entry of the trail credits in the cycle that starts at the time. -/
def ProrationQuote.creditIn (start : Instant) (entry : ProrationQuote) : Int :=
  if entry.cycleStart = start ∧ entry.netAmountCents < 0 then -entry.netAmountCents else 0

/-- What the entries of the trail credit in the cycle that starts at the time. -/
def creditedIn (start : Instant) (trail : List ProrationQuote) : Int :=
  (trail.map (·.creditIn start)).sum

def Account.creditedInCycle (account : Account) : Int :=
  (account.cycleStart.map fun start => creditedIn start account.auditTrail).getD 0

/-- The books of a subscription whose cycle starts at the time. -/
structure Booked (trail : List ProrationQuote) (subscription : AccountSubscription)
    (start : Instant) : Prop where
  start_eq : subscription.cycleStart = some start
  end_eq : subscription.cycleEnd = addBillingMonth start
  balance : subscription.creditBalanceCents = creditedIn start trail
  tag : subscription.creditCycleStart = some start ∨
    subscription.creditCycleStart = none ∧ creditedIn start trail = 0
  months : ∀ entry ∈ trail, entry.cycleStart.month ≤ start.month
  ended : subscription.cycleEnd = none → creditedIn start trail = 0

variable {trail : List ProrationQuote}

theorem creditedIn_nonneg (start : Instant) (trail : List ProrationQuote) :
    0 ≤ creditedIn start trail := by
  refine sum_nonneg fun credit hcredit => ?_
  obtain ⟨entry, -, rfl⟩ := mem_map.mp hcredit
  unfold creditIn
  split <;> omega

variable (h : Booked trail subscription start)
include h

theorem Booked.creditedIn_later
    (hlater : start.month < stop.month) : creditedIn stop trail = 0 := by
  refine sum_eq_zero fun credit hcredit => ?_
  obtain ⟨entry, hentry, rfl⟩ := mem_map.mp hcredit
  have hmonth := h.months entry hentry
  refine if_neg fun hstop => ?_
  rw [hstop.1] at hmonth
  omega

theorem Booked.advanced (hstop : subscription.cycleEnd = some stop) :
    Booked trail subscription.writtenOff.advanced stop := by
  have hlater : start.month < stop.month := by
    rw [(addBillingMonth_spec (h.end_eq.symm.trans hstop)).1]
    split <;> omega
  have hzero := h.creditedIn_later hlater
  refine ⟨hstop, ?_, hzero.symm, .inr ⟨rfl, hzero⟩, fun entry hentry => ?_, fun _ => hzero⟩
  · exact congrArg (Option.bind · addBillingMonth) hstop
  · exact (h.months entry hentry).trans hlater.le

theorem Booked.writtenOff
    (hend : subscription.cycleEnd = none) : Booked trail subscription.writtenOff start :=
  ⟨h.start_eq, h.end_eq, (h.ended hend).symm, .inr ⟨rfl, h.ended hend⟩, h.months, h.ended⟩

theorem Booked.applyProration
    (hquote : quotePlanChange fromPlan toPlan subscription at' isFirst = .ok quote) :
    Booked (if quote.direction = .unchanged then trail else trail ++ [quote])
      (subscription.applyProration quote) start := by
  obtain ⟨hstart, hend, -, hnet⟩ := quotePlanChange_ok hquote
  have hcycle : quote.cycleStart = start := Option.some.inj (hstart.symm.trans h.start_eq)
  have hmonths : ∀ entry ∈ trail ++ [quote], entry.cycleStart.month ≤ start.month := by
    intro entry hentry
    rcases mem_append.mp hentry with hentry | hentry
    · exact h.months entry hentry
    · rw [mem_singleton.mp hentry, hcycle]
  have hended : ∀ credited : Int, subscription.cycleEnd = none → credited = 0 := by
    intro credited hnone
    rw [hend] at hnone
    cases hnone
  have happend : creditedIn start (trail ++ [quote]) =
      creditedIn start trail + quote.creditIn start := by
    simp [creditedIn]
  unfold AccountSubscription.applyProration
  by_cases hpos : 0 ≤ quote.netAmountCents
  · rw [if_pos hpos]
    split
    · exact h
    · have hsame : creditedIn start (trail ++ [quote]) = creditedIn start trail := by
        rw [happend, creditIn, if_neg (by omega), add_zero]
      exact ⟨h.start_eq, h.end_eq, h.balance.trans hsame.symm, hsame ▸ h.tag, hmonths, hended _⟩
  · rw [if_neg hpos, if_neg fun hunchanged => hpos ?_]
    · have hsum : creditedIn start (trail ++ [quote]) =
          creditedIn start trail + |quote.netAmountCents| := by
        rw [happend, creditIn, if_pos ⟨hcycle, by omega⟩, abs_of_neg (by omega)]
      refine ⟨h.start_eq, h.end_eq, ?_, .inl h.start_eq, hmonths, hended _⟩
      rw [hsum, ← h.balance]
      rcases h.tag with htag | ⟨htag, hzero⟩
      · exact if_pos ⟨by simp [htag], by rw [htag, h.start_eq]⟩
      · rw [h.balance, hzero, zero_add]
        exact if_neg fun hissued => hissued.1 htag
    · rw [hnet, if_pos hunchanged]

omit h

def Account.Booked (account : Account) : Prop :=
  match account.subscription with
  | none => account.auditTrail = []
  | some subscription => ∃ start, Billing.Booked account.auditTrail subscription start

variable {account : Account}

theorem Account.Booked.ensureSubscription (h : account.Booked) (clock : Instant)
    (options : Option Instant × Option Instant) :
    ∃ start, Billing.Booked account.auditTrail (account.ensureSubscription
      ((options.1.map some).getD (some clock)) (options.2.map some)) start := by
  obtain ⟨plan, subscription, trail⟩ := account
  cases subscription with
  | some subscription => exact h
  | none =>
    obtain rfl : trail = [] := h
    have hopened : ∀ start, Billing.Booked [] ⟨some start, addBillingMonth start, 0, none⟩
        start := fun start =>
      ⟨rfl, rfl, rfl, .inr ⟨rfl, rfl⟩, fun _ hentry => (not_mem_nil hentry).elim, fun _ => rfl⟩
    obtain ⟨at', _ | anchor⟩ := options
    · cases at' with
      | none => exact ⟨clock, hopened clock⟩
      | some at' => exact ⟨at', hopened at'⟩
    · exact ⟨anchor, hopened anchor⟩

theorem Account.Booked.rollover (h : account.Booked) (at' : Date) :
    (rolloverBillingCycle at' account).2.Booked ∧ ((rolloverBillingCycle at' account).1 = .ok none ∨
        (rolloverBillingCycle at' account).2.creditBalance = 0) := by
  obtain ⟨plan, subscription, trail⟩ := account
  cases subscription with
  | none => exact ⟨h, .inl rfl⟩
  | some subscription =>
    obtain ⟨start, hbooked⟩ := h
    simp only [rolloverBillingCycle]
    split
    · exact ⟨⟨start, hbooked⟩, .inl rfl⟩
    · cases hend : subscription.cycleEnd with
      | none =>
        have hclosed : toBillingCycle subscription.writtenOff =
            .error (.rangeError "Invalid time value") := by
          simp only [toBillingCycle, AccountSubscription.writtenOff, hbooked.start_eq, hend]
          rfl
        rw [hclosed]
        exact ⟨⟨start, hbooked.writtenOff hend⟩, .inr rfl⟩
      | some stop =>
        have hclosed : toBillingCycle subscription.writtenOff = .ok ⟨start, stop⟩ := by
          simp only [toBillingCycle, AccountSubscription.writtenOff, hbooked.start_eq, hend]
          rfl
        rw [hclosed]
        simp only
        split
        all_goals exact ⟨⟨stop, hbooked.advanced hend⟩, .inr rfl⟩

theorem BillingCall.booked (h : account.Booked) (call : BillingCall) :
    (call.run accountId account).Booked := by
  cases call with
  | rolloverBillingCycle at' => exact (h.rollover (some at')).1
  | setPlan clock planId at' cycleStart =>
    obtain ⟨start, hbooked⟩ := h.ensureSubscription clock (at', cycleStart)
    simp only [BillingCall.run]
    rcases setPlan_cases clock accountId planId ⟨at'.map some, cycleStart.map some⟩ account
      with ⟨e, hset⟩ | ⟨e, hset⟩ | ⟨plan, quote, -, hquote, hset⟩
    · rw [hset]
      exact h
    · rw [hset]
      exact ⟨start, hbooked⟩
    · rw [hset]
      exact ⟨start, hbooked.applyProration hquote⟩

theorem booked_runCalls (calls : List BillingCall) : (runCalls accountId calls).Booked := by
  have hrun : ∀ account : Account, account.Booked →
      (calls.foldl (BillingCall.run accountId) account).Booked := by
    induction calls with
    | nil => exact fun account h => h
    | cons call calls ih => exact fun account h => ih _ (call.booked accountId h)
  exact hrun {} rfl

/-- After any calls the credit balance is what the entries of the current cycle have credited; it
is not negative, and it is zero right after a rollover. -/
theorem credit_balance_ledger (accountId : String) (calls : List BillingCall) :
    let account := runCalls accountId calls
    account.creditBalance = account.creditedInCycle ∧ 0 ≤ account.creditBalance ∧
      ∀ at' : Instant, (rolloverBillingCycle (some at') account).1 = .ok none ∨
        (rolloverBillingCycle (some at') account).2.creditBalance = 0 := by
  have hbooked := booked_runCalls accountId calls
  have hbalance : (runCalls accountId calls).creditBalance =
      (runCalls accountId calls).creditedInCycle ∧
        0 ≤ (runCalls accountId calls).creditBalance := by
    generalize runCalls accountId calls = account at hbooked
    obtain ⟨plan, subscription, trail⟩ := account
    cases subscription with
    | none => exact ⟨rfl, le_rfl⟩
    | some subscription =>
      obtain ⟨start, hbooked⟩ := hbooked
      simp only [Account.creditBalance, Account.creditedInCycle, Account.cycleStart,
        Option.map_some, Option.getD_some, Option.bind_some, hbooked.start_eq, hbooked.balance]
      exact ⟨trivial, creditedIn_nonneg start trail⟩
  exact ⟨hbalance.1, hbalance.2, fun at' => (hbooked.rollover (some at')).2⟩

/-- A cycle is one billing month long, and no entry of the trail is from a later one. -/
theorem cycle_is_one_month (accountId : String) (calls : List BillingCall) :
    let account := runCalls accountId calls
    account.subscription = none ∧ account.auditTrail = [] ∨ ∃ s start,
      account.subscription = some s ∧ s.cycleStart = some start ∧
      s.cycleEnd = addBillingMonth start ∧
      ∀ entry ∈ account.auditTrail, entry.cycleStart.month ≤ start.month := by
  have hbooked := booked_runCalls accountId calls
  generalize runCalls accountId calls = account at hbooked
  obtain ⟨plan, subscription, trail⟩ := account
  cases subscription with
  | none => exact .inl ⟨rfl, hbooked⟩
  | some s =>
    obtain ⟨start, hbooked⟩ := hbooked
    exact .inr ⟨s, start, rfl, hbooked.start_eq, hbooked.end_eq, hbooked.months⟩

end Trellis.Billing
