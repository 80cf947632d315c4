import Trellis.RateLimiting.TokenBucket

/-!
# Keys that expire too early

The script gives the key of a denied request a `ttl` after which there are two tokens in the
bucket, so a larger bucket is reset to full before its time. Two rounds of requests around such a
reset are granted more than the policy allows.
-/

namespace Trellis.RateLimiting

open Core List Expiring RateLimitPolicy

/-- Whether each of the requests at the given times is allowed. -/
def flags (policy : RateLimitPolicy) (times : List ℚ) (entry : Option RedisEntry) : List Bool :=
  (trace (consumeRedisTokenBucket policy) times entry).map fun e => e.2.allowed

def found (policy : RateLimitPolicy) (now : ℚ) (entry : Option RedisEntry) : ℚ :=
  policy.bucket.available now (Expiring.read now entry)

section Steps

variable {policy : RateLimitPolicy} {now : ℚ} {entry : Option RedisEntry}

theorem flags_append (first rest : List ℚ) :
    flags policy (first ++ rest) entry = flags policy first entry ++
      flags policy rest (final (consumeRedisTokenBucket policy) first entry) := by
  simp [flags, trace_append]

theorem flags_cons (rest : List ℚ) :
    flags policy (now :: rest) entry = (consumeRedisTokenBucket policy now entry).1.allowed ::
      flags policy rest (consumeRedisTokenBucket policy now entry).2 :=
  rfl

theorem allowed_eq (policy : RateLimitPolicy) (now : ℚ) (entry : Option RedisEntry) :
    (consumeRedisTokenBucket policy now entry).1.allowed = decide (1 ≤ found policy now entry) := by
  have houtcome := congrArg Prod.fst (outcome_consumeRedisTokenBucket policy now entry)
  simp only [RateLimitDecision.outcome] at houtcome
  rw [houtcome]
  by_cases h : 1 ≤ found policy now entry
  · simp [outcomeOf, h, show 1 ≤ policy.bucket.available now (read now entry) from h]
  · simp [outcomeOf, h, show ¬1 ≤ policy.bucket.available now (read now entry) from h]

theorem found_after_denied {tokens : ℚ} (hfound : found policy now entry = tokens)
    (htokens : tokens < 1) :
    found policy (now + 1000 * atLeastOneSecond ⌈(1 - tokens + 1) / policy.ratePerSec⌉)
      (consumeRedisTokenBucket policy now entry).2 = policy.burst := by
  have hleft : policy.bucket.available now (read now entry) = tokens := hfound
  rw [consumeRedisTokenBucket_denied (by rwa [hleft]), hleft]
  have hgone : read (now + 1000 *
      atLeastOneSecond ⌈(1 - tokens + 1) / policy.ratePerSec⌉ : ℚ) (some (mk
        (Level.mk tokens now) (now + 1000 *
          atLeastOneSecond ⌈(1 - tokens + 1) / policy.ratePerSec⌉ : ℚ))) = none :=
    read_of_le (le_refl _)
  simp only [found, hgone]
  rfl

variable (hlimit : 0 < policy.limit) (hwindow : 0 < policy.windowMs)

include hlimit hwindow

theorem found_after_granted {tokens : ℚ} (hfound : found policy now entry = tokens + 1)
    (htokens : 0 ≤ tokens) {later : ℚ}
    (hsoon : (later - now) * policy.bucket.rate < policy.burst - tokens + 1) :
    found policy later (consumeRedisTokenBucket policy now entry).2 =
      min policy.burst (tokens + (later - now) * policy.bucket.rate) := by
  have hone : 1 ≤ policy.bucket.available now (read now entry) := by
    change 1 ≤ found policy now entry
    linarith
  have hleft : policy.bucket.available now (read now entry) - 1 = tokens := by
    change found policy now entry - 1 = tokens
    linarith
  rw [consumeRedisTokenBucket_granted hone, hleft]
  have hrate := ratePerSec_pos hlimit hwindow
  have httl := le_ttl_mul_rate (x := policy.burst - tokens + 1) hrate
  have hdeadline : later < now + 1000 *
      atLeastOneSecond ⌈(policy.burst - tokens + 1) / policy.ratePerSec⌉ := by
    by_contra hexpired
    have hms : 1000 * (atLeastOneSecond ⌈(policy.burst - tokens + 1) / policy.ratePerSec⌉ : ℚ) ≤
        later - now := by
      linarith
    have hgain := mul_le_mul_of_nonneg_right hms (bucket_rate_nonneg hlimit hwindow)
    simp only [bucket] at hgain hsoon
    linarith
  simp only [found]
  rw [read_of_lt hdeadline]
  rfl

theorem burst_flags (n : Nat) {tokens : ℚ} (hfound : found policy now entry = tokens + (n + 1))
    (htokens : 0 ≤ tokens) : flags policy (replicate (n + 1) now) entry = replicate (n + 1) true ∧
      ∀ later, (later - now) * policy.bucket.rate < policy.burst - tokens + 1 → found policy later
            (final (consumeRedisTokenBucket policy) (replicate (n + 1) now) entry) =
          min policy.burst (tokens + (later - now) * policy.bucket.rate) := by
  induction n generalizing entry with
  | zero =>
    have hone : found policy now entry = tokens + 1 := by
      simpa using hfound
    constructor
    · have hallowed : 1 ≤ found policy now entry := by
        linarith
      simp [allowed_eq, hallowed, flags]
    · intro later hsoon
      exact found_after_granted hlimit hwindow hone htokens hsoon
  | succ n ih =>
    have hsplit : found policy now entry = (tokens + (n + 1)) + 1 := by
      rw [hfound]
      push_cast
      ring
    have hfull : found policy now entry ≤ policy.burst :=
      Bucket.available_le policy.bucket now _
    have hnext : found policy now (consumeRedisTokenBucket policy now entry).2 =
        tokens + (n + 1) := by
      rw [found_after_granted hlimit hwindow hsplit (by linarith)]
      · rw [sub_self, zero_mul, add_zero]
        exact min_eq_right (by linarith)
      · rw [sub_self, zero_mul]
        linarith
    have hallowed : 1 ≤ found policy now entry := by
      linarith
    rcases ih hnext with ⟨hflags, hlater⟩
    constructor
    · rw [replicate_succ, flags_cons, hflags, allowed_eq]
      simp [hallowed, replicate_succ]
    · rw [replicate_succ]
      exact hlater

end Steps

/-! ## Rounds of requests -/

/-- The time after a burst until there is one whole token again. -/
def RateLimitPolicy.firstToken (policy : RateLimitPolicy) : ℚ :=
  (1 - (policy.burst - ⌊policy.burst⌋₊)) / policy.bucket.rate

/-- A burst and one more request as soon as it is granted. -/
def roundTimes (policy : RateLimitPolicy) (now : ℚ) : List ℚ :=
  List.replicate ⌊policy.burst⌋₊ now ++ [now + policy.firstToken]

section Rounds

variable {policy : RateLimitPolicy} (hlimit : 0 < policy.limit) (hwindow : 0 < policy.windowMs)

include hlimit hwindow

theorem firstToken_mul_rate :
    policy.firstToken * policy.bucket.rate = 1 - (policy.burst - ⌊policy.burst⌋₊) := by
  have hrate : policy.bucket.rate ≠ 0 := by
    have hpos := ratePerSec_pos hlimit hwindow
    simp only [bucket]
    positivity
  unfold firstToken
  field_simp

theorem round_flags (hburst : 2 < policy.burst) {now : ℚ} {entry : Option RedisEntry}
    (hfull : found policy now entry = policy.burst) :
    flags policy (roundTimes policy now) entry = replicate (⌊policy.burst⌋₊ + 1) true ∧
      ∀ later, (later - (now + policy.firstToken)) * policy.bucket.rate < policy.burst + 1 →
        found policy later (final (consumeRedisTokenBucket policy) (roundTimes policy now) entry) =
          min policy.burst ((later - (now + policy.firstToken)) * policy.bucket.rate) := by
  have hfloor : (⌊policy.burst⌋₊ : ℚ) ≤ policy.burst := Nat.floor_le (by linarith)
  have hlt : policy.burst < ⌊policy.burst⌋₊ + 1 := Nat.lt_floor_add_one _
  have hmul := firstToken_mul_rate hlimit hwindow
  have hne : ⌊policy.burst⌋₊ ≠ 0 := by
    intro hzero
    rw [hzero] at hlt
    norm_num at hlt
    linarith
  rcases Nat.exists_eq_succ_of_ne_zero hne with ⟨n, hn⟩
  have hcast : (⌊policy.burst⌋₊ : ℚ) = n + 1 := by
    rw [hn]
    push_cast
    ring
  have hstart : found policy now entry = policy.burst - ⌊policy.burst⌋₊ + (n + 1) := by
    linarith
  rcases burst_flags hlimit hwindow n hstart (by linarith) with ⟨hflags, hafter⟩
  rw [← Nat.succ_eq_add_one, ← hn] at hflags hafter
  have hone : found policy (now + policy.firstToken)
      (final (consumeRedisTokenBucket policy) (replicate ⌊policy.burst⌋₊ now) entry) = 0 + 1 := by
    rw [hafter, add_sub_cancel_left, hmul]
    · rw [add_sub_cancel, zero_add]
      exact min_eq_right (by linarith)
    · rw [add_sub_cancel_left, hmul]
      linarith
  constructor
  · rw [roundTimes, flags_append, hflags, flags_cons, allowed_eq, hone, replicate_succ']
    simp [flags]
  · intro later hsoon
    rw [roundTimes, final_append]
    have hsoon' : (later - (now + policy.firstToken)) * policy.bucket.rate <
        policy.burst - 0 + 1 := by
      linarith
    have hlater := found_after_granted hlimit hwindow hone (le_refl 0) hsoon'
    rwa [zero_add] at hlater

theorem firstToken_nonneg : 0 ≤ policy.firstToken := by
  have hlt : policy.burst < ⌊policy.burst⌋₊ + 1 := Nat.lt_floor_add_one _
  have hrate := bucket_rate_nonneg hlimit hwindow
  apply div_nonneg _ hrate
  linarith

theorem mem_roundTimes {now t : ℚ} (h : t ∈ roundTimes policy now) :
    now ≤ t ∧ t ≤ now + policy.firstToken := by
  have hfirst := firstToken_nonneg hlimit hwindow
  rcases mem_append.mp h with hburst | hlast
  · rw [eq_of_mem_replicate hburst]
    constructor <;> linarith
  · rw [mem_singleton.mp hlast]
    constructor <;> linarith

theorem pairwise_roundTimes (now : ℚ) : (roundTimes policy now).Pairwise (· ≤ ·) := by
  have hfirst := firstToken_nonneg hlimit hwindow
  rw [roundTimes, pairwise_append]
  refine ⟨pairwise_replicate_of_refl, pairwise_singleton _ _, ?_⟩
  intro t ht t' ht'
  rw [eq_of_mem_replicate ht, mem_singleton.mp ht']
  linarith

end Rounds

/-! ## Two rounds around a reset -/

theorem exists_early_expiry {burst rate : ℚ} (hrate : 0 < rate) (htwo : 2 < burst)
    (hsecond : rate < burst) : ∃ tokens, 0 ≤ tokens ∧ tokens < 1 ∧
      tokens + atLeastOneSecond ⌈(1 - tokens + 1) / rate⌉ * rate < burst := by
  by_cases hfast : 2 < rate
  · -- an empty bucket: the key stays for the one second that is the least
    refine ⟨0, le_refl 0, one_pos, ?_⟩
    have hceil : ⌈((1 - 0 + 1) / rate : ℚ)⌉ ≤ 1 := by
      rw [Int.ceil_le, div_le_iff₀ hrate]
      push_cast
      linarith
    have hone : atLeastOneSecond ⌈((1 - 0 + 1) / rate : ℚ)⌉ = 1 := by
      unfold atLeastOneSecond
      split
      · rfl
      · omega
    rw [hone]
    push_cast
    linarith
  · -- a level from which the second token comes on a whole second
    have hfloor : ((⌊2 / rate⌋ : ℤ) : ℚ) * rate ≤ 2 := by
      rw [← le_div_iff₀ hrate]
      exact Int.floor_le _
    have hfloor' : 2 < ((⌊2 / rate⌋ : ℤ) + 1 : ℚ) * rate := by
      rw [← div_lt_iff₀ hrate]
      exact Int.lt_floor_add_one _
    have hpos : 1 ≤ ⌊2 / rate⌋ := by
      rw [Int.le_floor, le_div_iff₀ hrate]
      push_cast
      linarith
    have hpos' : (1 : ℚ) ≤ (⌊2 / rate⌋ : ℤ) := by
      exact_mod_cast hpos
    refine ⟨2 - (⌊2 / rate⌋ : ℤ) * rate, by linarith, ?_, ?_⟩
    · nlinarith
    · have hquot : (1 - (2 - (⌊2 / rate⌋ : ℤ) * rate) + 1) / rate = ((⌊2 / rate⌋ : ℤ) : ℚ) := by
        field_simp
        ring
      have hclamp : atLeastOneSecond ⌊2 / rate⌋ = ⌊2 / rate⌋ := by
        unfold atLeastOneSecond
        split
        · omega
        · rfl
      rw [hquot, Int.ceil_intCast, hclamp]
      linarith

/-- The instant at which the key of a request denied at `now` expires. -/
def expiryOf (policy : RateLimitPolicy) (now tokens : ℚ) : ℚ :=
  now + 1000 * atLeastOneSecond ⌈(1 - tokens + 1) / policy.ratePerSec⌉

theorem lt_expiryOf (policy : RateLimitPolicy) (now tokens : ℚ) :
    now < expiryOf policy now tokens := by
  have hone : (1 : ℚ) ≤ atLeastOneSecond ⌈(1 - tokens + 1) / policy.ratePerSec⌉ := by
    exact_mod_cast one_le_atLeastOneSecond _
  unfold expiryOf
  linarith

/-- A round, a denied request and, when its key expires, another round. -/
def overshootTimes (policy : RateLimitPolicy) (denied tokens : ℚ) : List ℚ :=
  roundTimes policy 0 ++ denied :: roundTimes policy (expiryOf policy denied tokens)

section Overshoot

variable {policy : RateLimitPolicy} (hlimit : 0 < policy.limit) (hwindow : 0 < policy.windowMs)
  {denied tokens : ℚ}

include hlimit hwindow

theorem overshoot_flags (htwo : 2 < policy.burst) (htokens : tokens < 1)
    (hdenied : (denied - (0 + policy.firstToken)) * policy.bucket.rate = tokens) :
    flags policy (overshootTimes policy denied tokens) none =
      replicate (⌊policy.burst⌋₊ + 1) true ++ false :: replicate (⌊policy.burst⌋₊ + 1) true := by
  have hempty : found policy 0 none = policy.burst := rfl
  rcases round_flags hlimit hwindow htwo hempty with ⟨hround, hafter⟩
  have hfound := hafter denied (by linarith)
  rw [hdenied, min_eq_right (by linarith)] at hfound
  have hreset := found_after_denied hfound htokens
  rcases round_flags hlimit hwindow htwo hreset with ⟨hagain, _⟩
  rw [overshootTimes, flags_append, hround, flags_cons, allowed_eq, hfound,
    decide_eq_false (not_le.mpr htokens), expiryOf, hagain]

variable (hfirst : policy.firstToken ≤ denied)

include hfirst

theorem mem_overshootTimes {t : ℚ} (ht : t ∈ overshootTimes policy denied tokens) :
    0 ≤ t ∧ t ≤ expiryOf policy denied tokens + policy.firstToken := by
  have hnonneg := firstToken_nonneg hlimit hwindow
  have hexpiry := lt_expiryOf policy denied tokens
  rcases mem_append.mp ht with hround | hrest
  · rcases mem_roundTimes hlimit hwindow hround with ⟨hlow, hhigh⟩
    constructor <;> linarith
  · rcases mem_cons.mp hrest with rfl | hround
    · constructor <;> linarith
    · rcases mem_roundTimes hlimit hwindow hround with ⟨hlow, hhigh⟩
      constructor <;> linarith

theorem pairwise_overshootTimes : (overshootTimes policy denied tokens).Pairwise (· ≤ ·) := by
  have hexpiry := lt_expiryOf policy denied tokens
  rw [overshootTimes, pairwise_append, pairwise_cons]
  refine ⟨pairwise_roundTimes hlimit hwindow 0, ⟨?_, pairwise_roundTimes hlimit hwindow _⟩, ?_⟩
  · intro t ht
    have hlow := (mem_roundTimes hlimit hwindow ht).1
    linarith
  · intro t ht t' ht'
    have hhigh := (mem_roundTimes hlimit hwindow ht).2
    rcases mem_cons.mp ht' with rfl | hround
    · linarith
    · have hlow := (mem_roundTimes hlimit hwindow hround).1
      linarith

end Overshoot

/-- A policy whose keys expire too early grants more than it allows. -/
theorem exists_overshoot {policy : RateLimitPolicy} (hlimit : 0 < policy.limit)
    (hwindow : 0 < policy.windowMs) (hpolicy : ¬policy.ExpiresFull) :
    ∃ times : List ℚ, times.Pairwise (· ≤ ·) ∧ ∃ T, 0 ≤ T ∧ policy.burst + T * policy.bucket.rate <
        Bucket.granted 0 (0 + T) ((trace (consumeRedisTokenBucket policy) times none).map
          fun e => (e.1, e.2.allowed)) := by
  rw [expiresFull_iff hwindow, not_or, not_le, not_le] at hpolicy
  rcases hpolicy with ⟨htwo, hsecond⟩
  have hrate := ratePerSec_pos hlimit hwindow
  rcases exists_early_expiry hrate htwo hsecond with ⟨tokens, hnonneg, hlt, hearly⟩
  have hpos : 0 < policy.bucket.rate := by
    simp only [bucket]
    positivity
  have hwait : tokens / policy.bucket.rate * policy.bucket.rate = tokens := by
    field_simp
  have hdenied : (policy.firstToken + tokens / policy.bucket.rate - (0 + policy.firstToken)) *
      policy.bucket.rate = tokens := by
    rw [zero_add, add_sub_cancel_left, hwait]
  have hfirst : policy.firstToken ≤ policy.firstToken + tokens / policy.bucket.rate := by
    have hquot : 0 ≤ tokens / policy.bucket.rate := div_nonneg hnonneg hpos.le
    linarith
  generalize policy.firstToken + tokens / policy.bucket.rate = denied at hdenied hfirst
  refine ⟨overshootTimes policy denied tokens, pairwise_overshootTimes hlimit hwindow hfirst,
    expiryOf policy denied tokens + policy.firstToken, ?_, ?_⟩
  · have hnonneg := firstToken_nonneg hlimit hwindow
    have hexpiry := lt_expiryOf policy denied tokens
    linarith
  · rw [Bucket.granted_eq_count]
    · have hflags := overshoot_flags hlimit hwindow htwo hlt hdenied
      have hmul := firstToken_mul_rate hlimit hwindow
      have hgain : (expiryOf policy denied tokens + policy.firstToken) * policy.bucket.rate =
          tokens + atLeastOneSecond ⌈(1 - tokens + 1) / policy.ratePerSec⌉ *
            policy.ratePerSec + 2 * (policy.firstToken * policy.bucket.rate) := by
        simp only [expiryOf, bucket] at hdenied ⊢
        linarith
      have hcount : ((flags policy (overshootTimes policy denied tokens) none).count true : ℚ) =
          2 * ⌊policy.burst⌋₊ + 2 := by
        rw [hflags]
        simp
        ring
      rw [map_map]
      change _ < (((flags policy (overshootTimes policy denied tokens) none).count true : Nat) : ℚ)
      linarith
    · intro e he
      rcases mem_map.mp he with ⟨entry, hentry, rfl⟩
      rw [zero_add]
      have htime := mem_trace hentry
      exact mem_overshootTimes hlimit hwindow hfirst htime

end Trellis.RateLimiting
