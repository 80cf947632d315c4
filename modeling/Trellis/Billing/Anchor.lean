import Trellis.Billing.Service

/-!
# The anchor of a billing cycle

The start of the current cycle after a number of rollovers.  Each one adds a month to the
boundary before it, which short months have moved to an earlier day.
-/

namespace Trellis.Billing

open Core Option Nat

/-! ## Adding a month -/

/-- `Date.UTC` reads the year of a month as one of the twentieth century. -/
def ShortYear (month : Int) : Prop :=
  0 ≤ month / 12 ∧ month / 12 ≤ 99

instance (month : Int) : Decidable (ShortYear month) :=
  inferInstanceAs (Decidable (_ ∧ _))

variable {start : Instant}

theorem addBillingMonth_spec {next : Instant} (h : addBillingMonth start = some next) :
    next.month = (if ShortYear (start.month + 1) then start.month + 1 + 22800
        else start.month + 1) ∧
      next.day = min start.day (daysInMonth next.month) ∧ next.msOfDay = start.msOfDay := by
  obtain ⟨last, hlast, hnext⟩ := bind_eq_some_iff.mp h
  have hlast := CivilTime.of_toDate hlast
  have hnext := CivilTime.of_toDate hnext
  rw [hnext]
  refine ⟨?_, ?_, rfl⟩
  · simp only [hlast, fullYear, ShortYear]
    split_ifs <;> omega
  · change min start.day last.day = min start.day (daysInMonth last.month)
    rw [hlast]

def startAfter (anchor : Instant) : Nat → Date
  | 0 => some anchor
  | n + 1 => (startAfter anchor n).bind addBillingMonth

/-- The shortest of the day of the anchor and the months after it. -/
def shortestDay (anchor : Instant) : Nat → Nat
  | 0 => anchor.day
  | n + 1 => min (shortestDay anchor n) (daysInMonth (anchor.month + (n + 1)))

variable {anchor : Instant} {n : Nat}

theorem le_shortestDay {day : Nat} : day ≤ shortestDay anchor n ↔
    day ≤ anchor.day ∧ ∀ i < n, day ≤ daysInMonth (anchor.month + (i + 1)) := by
  induction n with
  | zero => simp [shortestDay]
  | succ n ih =>
    rw [shortestDay, le_min_iff, ih, and_assoc]
    refine and_congr_right fun _ => ⟨fun h i hi => ?_, fun h => ?_⟩
    · rcases Nat.lt_succ_iff_lt_or_eq.mp hi with hi | rfl
      · exact h.1 i hi
      · exact h.2
    · exact ⟨fun i hi => h i (lt_succ_of_lt hi), h n (lt_succ_self n)⟩

theorem startAfter_spec (h : startAfter anchor n = some start) : start.msOfDay = anchor.msOfDay ∧
    ((start.month = anchor.month + n ∧ start.day = shortestDay anchor n ∧
        ∀ i < n, ¬ ShortYear (anchor.month + (i + 1))) ∨ (start.month = anchor.month + n + 22800 ∧
        ∃ i < n, ShortYear (anchor.month + (i + 1)))) := by
  induction n generalizing start with
  | zero =>
    cases h
    exact ⟨rfl, .inl ⟨by simp, rfl, fun i hi => (not_lt_zero i hi).elim⟩⟩
  | succ n ih =>
    obtain ⟨before, hbefore, hadd⟩ := bind_eq_some_iff.mp h
    obtain ⟨hms, hcases⟩ := ih hbefore
    obtain ⟨hmonth, hday, hms'⟩ := addBillingMonth_spec hadd
    refine ⟨hms'.trans hms, ?_⟩
    rcases hcases with ⟨hcount, hshortest, hlong⟩ | ⟨hcount, i, hi, hshort⟩
    · by_cases hyear : ShortYear (anchor.month + (n + 1))
      · rw [hcount, add_assoc, if_pos hyear] at hmonth
        exact .inr ⟨by push_cast; omega, n, lt_succ_self n, hyear⟩
      · rw [hcount, add_assoc, if_neg hyear] at hmonth
        refine .inl ⟨by push_cast; omega, ?_, fun i hi => ?_⟩
        · rw [hday, hmonth, hshortest, shortestDay]
        · rcases Nat.lt_succ_iff_lt_or_eq.mp hi with hi | rfl
          · exact hlong i hi
          · exact hyear
    · have hlate : ¬ ShortYear (before.month + 1) := by
        unfold ShortYear at hshort ⊢
        omega
      rw [if_neg hlate] at hmonth
      exact .inr ⟨by push_cast; omega, i, lt_succ_of_lt hi, hshort⟩

/-! ## Rollovers -/

def Account.isDue (account : Account) (at' : Instant) : Bool :=
  (account.subscription.bind (·.cycleEnd)).any (·.time ≤ at'.time)

def rollovers (account : Account) (times : List Instant) : Account :=
  times.foldl (fun account at' => (rolloverBillingCycle (some at') account).2) account

def allDue (account : Account) : List Instant → Bool
  | [] => true
  | at' :: times =>
    account.isDue at' && allDue (rolloverBillingCycle (some at') account).2 times

def Account.cycleStart (account : Account) : Date :=
  account.subscription.bind (·.cycleStart)

/-- The account is in the cycle that starts a number of months after the anchor. -/
def InCycle (anchor : Instant) (n : Nat) (account : Account) : Prop :=
  ∃ subscription, account.subscription = some subscription ∧
    (∃ start, startAfter anchor n = some start ∧ subscription.cycleStart = some start) ∧
    subscription.cycleEnd = startAfter anchor (n + 1)

variable {account : Account}

theorem InCycle.rollover {at' : Instant}
    (h : InCycle anchor n account) (hdue : account.isDue at' = true) :
    InCycle anchor (n + 1) (rolloverBillingCycle (some at') account).2 := by
  obtain ⟨subscription, hsubscription, ⟨start, hstart, hcycle⟩, hend⟩ := h
  rw [Account.isDue, hsubscription, bind_some, hend, any_eq_true] at hdue
  obtain ⟨stop, hstop, hover⟩ := hdue
  have hlate : isBefore (some at') subscription.cycleEnd = false := by
    rw [hend, hstop]
    simpa [isBefore] using hover
  have hclosed : toBillingCycle subscription.writtenOff = .ok ⟨start, stop⟩ := by
    simp only [toBillingCycle, AccountSubscription.writtenOff, hcycle, hend, hstop]
    rfl
  have hnext : (rolloverBillingCycle (some at') account).2.subscription =
      some subscription.writtenOff.advanced := by
    simp only [rolloverBillingCycle, hsubscription, hlate, hclosed, Bool.false_eq_true, if_false]
    split <;> rfl
  refine ⟨_, hnext, ⟨stop, hstop, hend.trans hstop⟩, ?_⟩
  change subscription.cycleEnd.bind addBillingMonth = _
  rw [hend]
  rfl

variable {times : List Instant}

theorem InCycle.rollovers (h : InCycle anchor n account) (hdue : allDue account times = true) :
    InCycle anchor (n + times.length) (rollovers account times) := by
  induction times generalizing n account with
  | nil => exact h
  | cons at' times ih =>
    obtain ⟨hfirst, hrest⟩ := Bool.and_eq_true_iff.mp hdue
    have hnext := ih (h.rollover hfirst) hrest
    rwa [add_assoc, add_comm 1] at hnext

variable {options : SetPlanOptions} {accountId planId : String} {clock : Instant}

variable (hanchor : options.cycleStart.getD (options.at'.getD (some clock)) = some anchor)
include hanchor

theorem inCycle_setPlan (hok : (setPlan clock accountId planId options {}).1.isOk = true) :
    InCycle anchor 0 (setPlan clock accountId planId options {}).2 := by
  rcases hcall : setPlan clock accountId planId options {} with ⟨_ | result, account⟩
  · rw [hcall] at hok
    cases hok
  have hopened : ({} : Account).ensureSubscription (options.at'.getD (some clock))
      options.cycleStart = ⟨some anchor, addBillingMonth anchor, 0, none⟩ := by
    simp only [Account.ensureSubscription, getD_none, hanchor, bind_some]
  simp only [setPlan, hopened] at hcall
  split at hcall
  · cases hcall
  · split at hcall
    · cases hcall
    · split at hcall
      · cases hcall
      · cases hcall
        refine ⟨_, rfl, ⟨anchor, rfl, ?_⟩, ?_⟩
        all_goals
          unfold AccountSubscription.applyProration
          split <;> rfl

/-! ## The law -/

/-- A number of calendar months after the anchor, on its day or the last of a shorter month, at
its time of day. -/
def Anchored (anchor : Instant) (n : Nat) (start : Instant) : Prop :=
  start.month = anchor.month + n ∧ start.day = min anchor.day (daysInMonth start.month) ∧
    start.msOfDay = anchor.msOfDay

/-- After any number of due rollovers the cycle starts where the anchor says if and only if no
month on the way is in one of the years 0 to 99 or too short for the day on which it starts. -/
theorem anchor_kept_iff (hok : (setPlan clock accountId planId options {}).1.isOk = true)
    (hdue : allDue (setPlan clock accountId planId options {}).2 times = true) :
    (∃ start, (rollovers (setPlan clock accountId planId options {}).2 times).cycleStart =
          some start ∧ Anchored anchor times.length start) ↔
      ∀ i < times.length, ¬ ShortYear (anchor.month + (i + 1)) ∧
        min anchor.day (daysInMonth (anchor.month + times.length)) ≤
          daysInMonth (anchor.month + (i + 1)) := by
  have hcycle := (inCycle_setPlan hanchor hok).rollovers hdue
  rw [zero_add] at hcycle
  obtain ⟨subscription, hsubscription, ⟨start, hstart, hsame⟩, -⟩ := hcycle
  have hfound : (rollovers (setPlan clock accountId planId options {}).2 times).cycleStart =
      some start := by
    rw [Account.cycleStart, hsubscription]
    exact hsame
  obtain ⟨hms, hcases⟩ := startAfter_spec hstart
  constructor
  · rintro ⟨start', hstart', hmonth, hday, -⟩ i hi
    obtain rfl := some.inj (hstart'.symm.trans hfound)
    rcases hcases with ⟨-, hshortest, hlong⟩ | ⟨hjump, -⟩
    · rw [hmonth, hshortest] at hday
      exact ⟨hlong i hi, (le_shortestDay.mp hday.ge).2 i hi⟩
    · omega
  · intro hmonths
    rcases hcases with ⟨hmonth, hshortest, -⟩ | ⟨-, i, hi, hshort⟩
    · refine ⟨start, hfound, hmonth, le_antisymm (le_min ?_ start.day_le) ?_, hms⟩
      · rw [hshortest]
        exact (le_shortestDay.mp le_rfl).1
      · rw [hmonth, hshortest]
        exact le_shortestDay.mpr ⟨min_le_left _ _, fun i hi => (hmonths i hi).2⟩
    · exact ((hmonths i hi).1 hshort).elim

omit hanchor

/-! ### January 2023 -/

def january (day : Fin 31) : CivilTime :=
  ⟨24276, day + 1, 0, succ_pos _, day.isLt, midnight_lt⟩

def january15 : Instant :=
  ⟨january 14, by decide⟩

def january31 : Instant :=
  ⟨january 30, by decide⟩

def june1 : Instant :=
  ⟨⟨24281, 1, 0, by decide, by decide, midnight_lt⟩, by decide⟩

def anchoredOn (anchor : Instant) : SetPlanOptions where
  cycleStart := some (some anchor)

def activated (anchor : Instant) : Account :=
  (setPlan anchor "acct" "free" (anchoredOn anchor) {}).2

/-- From the 31st of January the cycle moves to the 28th of February and stays on the 28th. -/
theorem february_moves_anchor : allDue (activated january31) [june1, june1] = true ∧
    ¬ ∃ start, (rollovers (activated january31) [june1, june1]).cycleStart = some start ∧
      Anchored january31 2 start := by
  refine ⟨by decide +kernel, ?_⟩
  rintro ⟨start, hstart, hmonth, hday, -⟩
  have hmoved : (rollovers (activated january31) [june1, june1]).cycleStart.map (·.day) =
      some 28 := by
    decide +kernel
  rw [hstart, map_some, hday, hmonth] at hmoved
  revert hmoved
  decide

theorem january15_kept :
    ∃ start, (rollovers (activated january15) [june1, june1]).cycleStart = some start ∧
      Anchored january15 2 start := by
  have hdue : allDue (activated january15) [june1, june1] = true := by
    decide +kernel
  exact (anchor_kept_iff rfl (by decide +kernel) hdue).mpr (by decide)

end Trellis.Billing
