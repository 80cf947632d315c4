import Trellis.Core.Store

/-!
# The sliding-window rate limiter

`RateLimiterService.consume` with the sliding-window strategy: the script
{lit}`SLIDING_WINDOW_LUA` over a sorted set that expires, and the map {lit}`memoryWindows`.
Request ids are unique, so the sorted set is the list of its scores.
-/

namespace Trellis.RateLimiting

open Core List

structure WindowPolicy where
  limit : ℕ
  windowMs : ℕ
  limit_pos : 0 < limit
  windowMs_pos : 0 < windowMs

structure WindowDecision where
  allowed : Bool
  remaining : ℕ
  resetAt : ℕ
  retryAfterMs : Option ℕ

variable (policy : WindowPolicy)

def WindowPolicy.recent (now : ℕ) (grants : List ℕ) : List ℕ :=
  grants.filter fun ts => now < ts + policy.windowMs

/-! ## The Redis path -/

abbrev WindowEntry : Type :=
  Option (Expiring ℕ (List ℕ))

/-- `SLIDING_WINDOW_LUA`: the three numbers it answers with, and the key after it.  A grant renews
the deadline of the key. -/
def slidingWindowLua (nowMs : ℕ) (entry : WindowEntry) : (ℕ × ℕ × ℕ) × WindowEntry :=
  -- `ZREMRANGEBYSCORE key 0 (now_ms - window_ms)`
  let set := policy.recent nowMs ((Expiring.read nowMs entry).getD [])
  let count := set.length
  if count < policy.limit then
    ((1, policy.limit - count - 1, 0), some ⟨set ++ [nowMs], nowMs + policy.windowMs⟩)
  else
    let resetAt := (set.min?.map (· + policy.windowMs)).getD nowMs
    ((0, 0, resetAt - nowMs), entry.map fun e => { e with value := set })

def consumeRedisSlidingWindow (now : ℕ) (entry : WindowEntry) : WindowDecision × WindowEntry :=
  let run := slidingWindowLua policy now entry
  let (allowed, remaining, retryAfterMs) := run.1
  ({ allowed := allowed = 1
     remaining
     resetAt := if 0 < retryAfterMs then now + retryAfterMs else now + policy.windowMs
     retryAfterMs := if 0 < retryAfterMs then some retryAfterMs else none }, run.2)

/-! ## The in-memory path -/

/-- What `consumeMemorySlidingWindow` answers when these entries are left. -/
def WindowPolicy.decision (now : ℕ) (entries : List ℕ) : WindowDecision :=
  let count := entries.length
  if count < policy.limit then
    { allowed := true, remaining := policy.limit - count - 1, resetAt := now + policy.windowMs,
      retryAfterMs := none }
  else
    let oldest := entries.head?.getD now
    { allowed := false, remaining := 0, resetAt := oldest + policy.windowMs,
      retryAfterMs := some (oldest + policy.windowMs - now) }

def consumeMemorySlidingWindow (now : ℕ) (stored : List ℕ) : WindowDecision × List ℕ :=
  let entries := policy.recent now stored
  (policy.decision now entries, if entries.length < policy.limit then entries ++ [now] else entries)

/-! ## What both paths remember -/

section Remembers

variable {policy : WindowPolicy} {t now now' T : ℕ} {grants stored times : List ℕ}
  {entry : WindowEntry}

theorem recent_recent (h : now ≤ now') :
    policy.recent now' (policy.recent now grants) = policy.recent now' grants := by
  simp only [WindowPolicy.recent, filter_filter]
  refine filter_congr fun ts _ => ?_
  by_cases hts : now' < ts + policy.windowMs
  · simp [hts, lt_of_le_of_lt h hts]
  · simp [hts]

theorem recent_append (policy : WindowPolicy) (now : ℕ) (grants later : List ℕ) :
    policy.recent now (grants ++ later) = policy.recent now grants ++ policy.recent now later :=
  filter_append _ _

/-- The grants of a run: they are in order, what both paths store agrees with them on every window
from now on, and no window holds too many. -/
structure Remembers (policy : WindowPolicy) (t : ℕ) (grants stored : List ℕ)
    (entry : WindowEntry) : Prop where
  sorted : grants.Pairwise (· ≤ ·)
  past : ∀ ts ∈ grants, ts ≤ t
  memory : ∀ now, t ≤ now → policy.recent now stored = policy.recent now grants
  redis : ∀ now, t ≤ now →
    policy.recent now ((Expiring.read now entry).getD []) = policy.recent now grants
  bounded : ∀ a, grants.countP (fun ts => a ≤ ts ∧ ts < a + policy.windowMs) ≤ policy.limit

variable (h : Remembers policy t grants stored entry)
include h

variable (ht : t ≤ now)
include ht

theorem Remembers.recent_le_limit : (policy.recent now grants).length ≤ policy.limit := by
  refine le_trans ?_ (h.bounded (now + 1 - policy.windowMs))
  rw [WindowPolicy.recent, ← countP_eq_length_filter]
  refine countP_mono_left fun ts hts hrecent => ?_
  have hpast := h.past ts hts
  simp only [decide_eq_true_eq] at hrecent ⊢
  omega

theorem Remembers.decision_redis : (consumeRedisSlidingWindow policy now entry).1 =
      policy.decision now (policy.recent now grants) := by
  simp only [consumeRedisSlidingWindow, slidingWindowLua, WindowPolicy.decision, h.redis now ht]
  have hmin : (policy.recent now grants).min? = (policy.recent now grants).head? :=
    min?_eq_head? ((h.sorted.filter _).imp fun hle => min_eq_left hle)
  rw [hmin]
  cases hrecent : policy.recent now grants with
  | nil => simp [policy.limit_pos]
  | cons oldest rest =>
    have holdest : oldest ∈ policy.recent now grants := by
      rw [hrecent]
      exact mem_cons_self
    have hlive : now < oldest + policy.windowMs := by
      simpa using (mem_filter.mp holdest).2
    have hpos : 0 < oldest + policy.windowMs - now := by omega
    have hreset : now + (oldest + policy.windowMs - now) = oldest + policy.windowMs := by omega
    by_cases hcount : (oldest :: rest).length < policy.limit
    · simp only [if_pos hcount]
      rfl
    · simp only [if_neg hcount, head?_cons, Option.map_some, Option.getD_some, if_pos hpos, hreset]
      rfl

theorem Remembers.decision_memory : (consumeMemorySlidingWindow policy now stored).1 =
      policy.decision now (policy.recent now grants) := by
  simp only [consumeMemorySlidingWindow, h.memory now ht]

theorem Remembers.grant (hcount : (policy.recent now grants).length < policy.limit) :
    Remembers policy now (grants ++ [now]) (policy.recent now grants ++ [now])
      (some ⟨policy.recent now grants ++ [now], now + policy.windowMs⟩) := by
  have hkept : ∀ now', now ≤ now' → policy.recent now' (policy.recent now grants ++ [now]) =
      policy.recent now' (grants ++ [now]) := by
    intro now' hnow'
    rw [recent_append, recent_append, recent_recent hnow']
  have hpast : ∀ ts ∈ grants ++ [now], ts ≤ now := by
    intro ts hts
    rcases mem_append.mp hts with hts | hts
    · exact (h.past ts hts).trans ht
    · exact (mem_singleton.mp hts).le
  refine ⟨?_, hpast, hkept, fun now' hnow' => ?_, fun a => ?_⟩
  · refine pairwise_append.mpr ⟨h.sorted, pairwise_singleton _ _, ?_⟩
    intro ts hts ts' hts'
    rw [mem_singleton.mp hts']
    exact hpast ts (mem_append_left _ hts)
  · by_cases hlive : now + policy.windowMs ≤ now'
    · rw [Expiring.read_of_le hlive]
      refine (filter_eq_nil_iff.mpr fun ts hts => ?_).symm
      have hts := hpast ts hts
      simp only [decide_eq_true_eq]
      omega
    · rw [Expiring.read_of_lt (not_le.mp hlive)]
      exact hkept now' hnow'
  · rw [countP_append, countP_singleton]
    split
    · rename_i hinside
      simp only [decide_eq_true_eq] at hinside
      refine Nat.succ_le_of_lt (lt_of_le_of_lt ?_ hcount)
      rw [WindowPolicy.recent, ← countP_eq_length_filter]
      refine countP_mono_left fun ts _ hts => ?_
      simp only [decide_eq_true_eq] at hts ⊢
      omega
    · exact h.bounded a

omit ht

theorem Remembers.mono (ht : t ≤ T) : Remembers policy T grants stored entry :=
  { h with
    past := fun ts hts => (h.past ts hts).trans ht
    memory := fun now hnow => h.memory now (ht.trans hnow)
    redis := fun now hnow => h.redis now (ht.trans hnow) }

theorem Remembers.deny (ht : t ≤ now) : Remembers policy now grants (policy.recent now grants)
      (entry.map fun e => { e with value := policy.recent now grants }) := by
  refine { h.mono ht with
    memory := fun now' => recent_recent
    redis := fun now' hnow' => ?_ }
  have hold := h.redis now' (ht.trans hnow')
  cases entry with
  | none => exact hold
  | some e =>
    by_cases hlive : e.deadline ≤ now'
    · rw [Expiring.read_of_le hlive] at hold
      rw [Option.map_some, Expiring.read, if_pos hlive]
      exact hold
    · rw [Option.map_some, Expiring.read, if_neg hlive]
      exact recent_recent hnow'

omit h

def WindowPolicy.grantsAfter (policy : WindowPolicy) (now : ℕ) (grants : List ℕ) : List ℕ :=
  grants ++ if (policy.decision now (policy.recent now grants)).allowed then [now] else []

theorem Remembers.step (h : Remembers policy t grants stored entry) (ht : t ≤ now) :
    Remembers policy now (policy.grantsAfter now grants)
      (consumeMemorySlidingWindow policy now stored).2
      (consumeRedisSlidingWindow policy now entry).2 := by
  simp only [consumeMemorySlidingWindow, consumeRedisSlidingWindow, slidingWindowLua,
    WindowPolicy.grantsAfter, WindowPolicy.decision, h.memory now ht, h.redis now ht]
  by_cases hcount : (policy.recent now grants).length < policy.limit
  · simp only [if_pos hcount, if_true]
    exact h.grant ht hcount
  · simp only [if_neg hcount, Bool.false_eq_true, if_false, append_nil]
    exact h.deny ht

/-! ## Runs -/

def grantTimes (entries : List (ℕ × WindowDecision)) : List ℕ :=
  entries.flatMap fun e => if e.2.allowed then [e.1] else []

theorem Remembers.run (h : Remembers policy t grants stored entry) (htimes : times.Pairwise (· ≤ ·))
    (hfirst : ∀ now ∈ times, t ≤ now) (hT : t ≤ T ∧ ∀ now ∈ times, now ≤ T) :
    trace (consumeRedisSlidingWindow policy) times entry =
        trace (consumeMemorySlidingWindow policy) times stored ∧
      Remembers policy T
        (grants ++ grantTimes (trace (consumeMemorySlidingWindow policy) times stored))
        (final (consumeMemorySlidingWindow policy) times stored)
        (final (consumeRedisSlidingWindow policy) times entry) := by
  induction times generalizing t grants stored entry with
  | nil =>
    rw [trace_nil, trace_nil, grantTimes, flatMap_nil, append_nil]
    exact ⟨rfl, h.mono hT.1⟩
  | cons now rest ih =>
    rw [pairwise_cons] at htimes
    have ht := hfirst now mem_cons_self
    obtain ⟨htrace, hrest⟩ := ih (h.step ht) htimes.2 htimes.1
      ⟨hT.2 now mem_cons_self, fun r hr => hT.2 r (mem_cons_of_mem _ hr)⟩
    rw [trace_cons, trace_cons, htrace, h.decision_redis ht, h.decision_memory ht]
    refine ⟨rfl, ?_⟩
    rw [WindowPolicy.grantsAfter, append_assoc] at hrest
    exact hrest

theorem remembers_nil (policy : WindowPolicy) : Remembers policy 0 [] [] none where
  sorted := List.Pairwise.nil
  past _ h := (not_mem_nil h).elim
  memory _ _ := rfl
  redis _ _ := rfl
  bounded _ := Nat.zero_le _

end Remembers

/-- For requests in order both paths give the same decisions, and no half-open interval of the
length of the window holds more grants than the limit. -/
theorem windows_agree (policy : WindowPolicy) {times : List ℕ} (htimes : times.Pairwise (· ≤ ·)) :
    trace (consumeRedisSlidingWindow policy) times none =
        trace (consumeMemorySlidingWindow policy) times [] ∧
      ∀ a, (grantTimes (trace (consumeMemorySlidingWindow policy) times [])).countP
        (fun ts => a ≤ ts ∧ ts < a + policy.windowMs) ≤ policy.limit := by
  have hrun := (remembers_nil policy).run htimes (fun _ _ => Nat.zero_le _)
    ⟨Nat.zero_le times.sum, fun now hnow => le_sum_of_mem hnow⟩
  exact ⟨hrun.1, hrun.2.bounded⟩

def onePerTen : WindowPolicy :=
  ⟨1, 10, Nat.one_pos, by decide⟩

theorem onePerTen_agrees : trace (consumeRedisSlidingWindow onePerTen) [0, 5, 10] none =
      trace (consumeMemorySlidingWindow onePerTen) [0, 5, 10] [] :=
  (windows_agree onePerTen (by decide)).1

end Trellis.RateLimiting
