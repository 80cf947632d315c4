import Trellis.RateLimiting.SlidingWindow
import Trellis.RateLimiting.TokenBucket

/-!
# Retry delays
-/

namespace Trellis.RateLimiting

open Core WindowPolicy List Expiring

/-- `RateLimitPolicy` with integers. -/
structure LimitPolicy extends WindowPolicy where
  burst : ℕ
  burst_pos : 0 < burst

def LimitPolicy.rates (policy : LimitPolicy) : RateLimitPolicy :=
  ⟨policy.limit, policy.windowMs, policy.burst⟩

abbrev Limiter (S : Type) : Type :=
  ℕ → S → (Bool × Option ℤ) × S

/-- After any requests in order: if one at time `t` is denied with a delay, the next is allowed
exactly from the end of the delay on. -/
def RetryExact {S : Type} (limiter : Limiter S) (start : S) : Prop :=
  ∀ times : List ℕ, times.Pairwise (· ≤ ·) → ∀ t : ℕ, (∀ now ∈ times, now ≤ t) →
    ∀ delay : ℤ, (limiter t (final limiter times start)).1 = (false, some delay) → ∀ t', t ≤ t' →
        ((limiter t' (limiter t (final limiter times start)).2).1.1 = true ↔ t + delay ≤ t')

/-! ## Token buckets -/

def redisBucket (policy : LimitPolicy) : Limiter (Option RedisEntry) := fun now entry =>
  let step := consumeRedisTokenBucket policy.rates now entry
  ((step.1.allowed, step.1.retryAfterMs), step.2)

def memoryBucket (policy : LimitPolicy) : Limiter (Option (Level ℚ)) := fun now state =>
  let step := consumeMemoryTokenBucket policy.rates now state
  ((step.1.allowed, step.1.retryAfterMs), step.2)

section Buckets

variable {policy : LimitPolicy} {tokens : ℚ} {t t' : ℕ}

theorem rates_pos (policy : LimitPolicy) : 0 < policy.rates.ratePerSec := by
  have hlimit : (0 : ℚ) < policy.limit := by exact_mod_cast policy.limit_pos
  have hwindow : (0 : ℚ) < policy.windowMs := by exact_mod_cast policy.windowMs_pos
  exact ratePerSec_pos hlimit hwindow

theorem one_le_burst (policy : LimitPolicy) : 1 ≤ policy.rates.bucket.capacity := by
  have hburst : (1 : ℚ) ≤ policy.burst := by exact_mod_cast policy.burst_pos
  exact hburst

theorem one_le_available_iff (policy : LimitPolicy) (tokens : ℚ) (t t' : ℕ) :
    1 ≤ policy.rates.bucket.available t' (some ⟨tokens, t⟩) ↔
      t + ⌈(1 - tokens) / policy.rates.ratePerSec * 1000⌉ ≤ (t' : ℤ) := by
  have hrate := rates_pos policy
  have hceil : t + ⌈(1 - tokens) / policy.rates.ratePerSec * 1000⌉ ≤ (t' : ℤ) ↔
      (1 - tokens) / policy.rates.ratePerSec * 1000 ≤ (t' - t : ℤ) := by
    rw [← Int.ceil_le]
    omega
  rw [hceil, Bucket.available, le_min_iff, and_iff_right (one_le_burst policy)]
  simp only [RateLimitPolicy.bucket]
  rw [div_mul_eq_mul_div, div_le_iff₀ hrate]
  push_cast
  constructor
  · intro h
    linarith
  · intro h
    linarith

theorem memoryBucket_retry (policy : LimitPolicy) : RetryExact (memoryBucket policy) none := by
  intro times _ t _ delay hdenied t' _
  generalize final (memoryBucket policy) times none = state at hdenied ⊢
  simp only [memoryBucket, consumeMemoryTokenBucket, refilledTokens_eq] at hdenied ⊢
  by_cases hall : 1 ≤ policy.rates.bucket.available t state
  · simp [hall] at hdenied
  · simp only [hall, decide_false, Bool.false_eq_true, if_false, Prod.mk.injEq,
      Option.some.injEq, true_and] at hdenied ⊢
    rw [← hdenied, ← one_le_available_iff]
    split <;> simp_all

theorem redisBucket_allowed (policy : LimitPolicy) (now : ℕ) (entry : Option RedisEntry) :
    (redisBucket policy now entry).1.1 = true ↔
      1 ≤ policy.rates.bucket.available now (read (now : ℚ) entry) := by
  have h := congrArg Prod.fst (outcome_consumeRedisTokenBucket policy.rates now entry)
  change (redisBucket policy now entry).1.1 = _ at h
  rw [h, outcomeOf]
  by_cases hall : 1 ≤ policy.rates.bucket.available now (read (now : ℚ) entry)
  · simp [hall]
  · simp [hall]

theorem redisBucket_retry (policy : LimitPolicy) : RetryExact (redisBucket policy) none := by
  intro times _ t _ delay hdenied t' _
  generalize final (redisBucket policy) times none = entry at hdenied ⊢
  have hrate := rates_pos policy
  have hall : ¬ 1 ≤ policy.rates.bucket.available t (read (t : ℚ) entry) := by
    rw [← redisBucket_allowed, hdenied]
    exact Bool.false_ne_true
  have hentry : (redisBucket policy t entry).2 = _ :=
    consumeRedisTokenBucket_denied (not_le.mp hall)
  simp only at hentry
  have hdelay := congrArg Prod.snd hdenied
  simp only [redisBucket, consumeRedisTokenBucket, tokenBucketLua_eq, if_neg hall,
    decisionOfReply] at hdelay
  rw [redisBucket_allowed, hentry]
  generalize policy.rates.bucket.available t (read (t : ℚ) entry) = tokens at *
  have hdelay : delay = ⌈(1 - tokens) / policy.rates.ratePerSec * 1000⌉ := by
    split at hdelay
    · exact (Option.some.inj hdelay).symm
    · cases hdelay
  rw [hdelay]
  -- the key outlives the delay, and a new bucket is full
  have httl : 1 - tokens + 1 ≤ _ := le_ttl_mul_rate hrate
  generalize atLeastOneSecond ⌈(1 - tokens + 1) / policy.rates.ratePerSec⌉ = ttl at *
  by_cases hlive : (t + 1000 * ttl : ℚ) ≤ t'
  · rw [read_of_le hlive]
    refine iff_of_true (one_le_burst policy) ?_
    have hover : ((t : ℤ) + 1000 * ttl : ℤ) ≤ t' := by exact_mod_cast hlive
    have hceil : ⌈(1 - tokens) / policy.rates.ratePerSec * 1000⌉ ≤ 1000 * ttl := by
      rw [Int.ceil_le, div_mul_eq_mul_div, div_le_iff₀ hrate]
      push_cast
      linarith
    omega
  · rw [read_of_lt (not_le.mp hlive)]
    exact one_le_available_iff policy tokens t t'

end Buckets

/-! ## Sliding windows -/

def redisWindow (policy : LimitPolicy) : Limiter WindowEntry := fun now entry =>
  let step := consumeRedisSlidingWindow policy.toWindowPolicy now entry
  ((step.1.allowed, step.1.retryAfterMs.map fun r : ℕ => (r : ℤ)), step.2)

def memoryWindow (policy : LimitPolicy) : Limiter (List ℕ) := fun now stored =>
  let step := consumeMemorySlidingWindow policy.toWindowPolicy now stored
  ((step.1.allowed, step.1.retryAfterMs.map fun r : ℕ => (r : ℤ)), step.2)

section Windows

variable {policy : WindowPolicy} {t t' : ℕ} {grants stored : List ℕ} {entry : WindowEntry}

theorem Remembers.allowed_after (h : Remembers policy t grants stored entry) {delay : ℤ}
    (hanswer : ((policy.decision t (policy.recent t grants)).allowed,
      (policy.decision t (policy.recent t grants)).retryAfterMs.map fun r : ℕ => (r : ℤ)) =
        (false, some delay)) (ht : t ≤ t') :
    (policy.decision t' (policy.recent t' (policy.grantsAfter t grants))).allowed = true ↔
      t + delay ≤ t' := by
  obtain ⟨hdenied, hdelay⟩ := Prod.mk.inj hanswer
  rw [grantsAfter, hdenied, if_neg Bool.false_ne_true, append_nil]
  have hlimit := h.recent_le_limit le_rfl
  have hsorted : (policy.recent t grants).Pairwise (· ≤ ·) := h.sorted.filter _
  have hallowed : (policy.decision t' (policy.recent t' grants)).allowed = true ↔
      (policy.recent t' grants).length < policy.limit := by
    by_cases hfree : (policy.recent t' grants).length < policy.limit
    · simp [decision, hfree]
    · simp [decision, hfree]
  rw [hallowed, ← recent_recent ht]
  unfold decision at hdenied hdelay
  by_cases hcount : (policy.recent t grants).length < policy.limit
  · simp [hcount] at hdenied
  rw [if_neg hcount] at hdelay
  have hlive : ∀ ts ∈ policy.recent t grants, t < ts + policy.windowMs := fun ts hts => by
    simpa using (mem_filter.mp hts).2
  cases hrecent : policy.recent t grants with
  | nil =>
    rw [hrecent] at hcount
    exact (hcount policy.limit_pos).elim
  | cons oldest rest =>
    rw [hrecent] at hcount hdelay hsorted hlimit hlive
    have hend : t + delay = oldest + policy.windowMs := by
      have hdelay := Option.some.inj hdelay
      have hlive := hlive oldest mem_cons_self
      simp only [head?_cons, Option.getD_some] at hdelay
      omega
    rw [hend, pairwise_cons] at *
    constructor
    · intro hlt
      by_contra hlate
      have hall : policy.recent t' (oldest :: rest) = oldest :: rest := by
        refine filter_eq_self.mpr fun ts hts => ?_
        have hle : oldest ≤ ts := by
          rcases mem_cons.mp hts with rfl | hts
          · exact le_rfl
          · exact hsorted.1 ts hts
        simp only [decide_eq_true_eq]
        omega
      rw [hall] at hlt
      exact hcount hlt
    · intro hle
      rw [recent, filter_cons, if_neg (by simp only [decide_eq_true_eq]; omega)]
      have hrest := length_filter_le (fun ts => t' < ts + policy.windowMs) rest
      rw [length_cons] at hlimit
      omega

theorem memoryWindow_final (policy : LimitPolicy) (times : List ℕ) (stored : List ℕ) :
    final (memoryWindow policy) times stored =
      final (consumeMemorySlidingWindow policy.toWindowPolicy) times stored := by
  induction times generalizing stored with
  | nil => rfl
  | cons now times ih => exact ih _

theorem redisWindow_final (policy : LimitPolicy) (times : List ℕ) (entry : WindowEntry) :
    final (redisWindow policy) times entry =
      final (consumeRedisSlidingWindow policy.toWindowPolicy) times entry := by
  induction times generalizing entry with
  | nil => rfl
  | cons now times ih => exact ih _

theorem windows_retry (policy : LimitPolicy) :
    RetryExact (redisWindow policy) none ∧ RetryExact (memoryWindow policy) [] := by
  have hexact : ∀ (times : List ℕ), times.Pairwise (· ≤ ·) → ∀ t, (∀ now ∈ times, now ≤ t) →
      ∃ grants, Remembers policy.toWindowPolicy t grants (final (memoryWindow policy) times [])
        (final (redisWindow policy) times none) := by
    intro times htimes t ht
    rw [memoryWindow_final, redisWindow_final]
    exact ⟨_, ((remembers_nil _).run htimes (fun _ _ => Nat.zero_le _) ⟨Nat.zero_le t, ht⟩).2⟩
  constructor
  · intro times htimes t ht delay hdenied t' ht'
    obtain ⟨grants, h⟩ := hexact times htimes t ht
    have hnext := h.step le_rfl
    simp only [redisWindow, h.decision_redis le_rfl, hnext.decision_redis ht'] at hdenied ⊢
    exact h.allowed_after hdenied ht'
  · intro times htimes t ht delay hdenied t' ht'
    obtain ⟨grants, h⟩ := hexact times htimes t ht
    have hnext := h.step le_rfl
    simp only [memoryWindow, h.decision_memory le_rfl, hnext.decision_memory ht'] at hdenied ⊢
    exact h.allowed_after hdenied ht'

end Windows

/-- With both strategies and both storage paths, after any requests in order: where a request is
denied with a delay, one request later is denied before the end of the delay and allowed from
then on. -/
theorem retry_exact (policy : LimitPolicy) :
    (RetryExact (redisBucket policy) none ∧ RetryExact (memoryBucket policy) none) ∧
      RetryExact (redisWindow policy) none ∧ RetryExact (memoryWindow policy) [] :=
  ⟨⟨redisBucket_retry policy, memoryBucket_retry policy⟩, windows_retry policy⟩

end Trellis.RateLimiting
