import Mathlib.Data.Rat.Floor
import Trellis.Core.Bucket

/-!
# The token-bucket rate limiter

`RateLimiterService.consume` with the token-bucket strategy: the script {lit}`TOKEN_BUCKET_LUA`
over a Redis hash that expires, and the map {lit}`memoryBuckets`. Numbers are exact rationals; a
call reads the clock once.
-/

namespace Trellis.RateLimiting

open Core Bucket Expiring

/-! ## Policies and decisions -/

structure RateLimitPolicy where
  limit : ℚ
  windowMs : ℚ
  burst : ℚ

variable (policy : RateLimitPolicy)

/-- `policy.limit / (policy.windowMs / 1000)`. -/
def RateLimitPolicy.ratePerSec : ℚ :=
  policy.limit / (policy.windowMs / 1000)

structure RateLimitDecision where
  allowed : Bool
  remaining : ℤ
  resetAt : ℚ
  retryAfterMs : Option ℤ

def RateLimitDecision.outcome (decision : RateLimitDecision) : Bool × ℤ :=
  (decision.allowed, decision.remaining)

/-! ## The Redis path -/

structure ScriptReply where
  allowed : ℤ
  remaining : ℤ
  retryAfterMs : ℤ

/-- What a run of a script answers, the fields it writes and the `ttl` in seconds it
gives the key. -/
structure ScriptRun where
  reply : ScriptReply
  written : Level ℚ
  ttl : ℤ

def atLeastOneSecond (ttl : ℤ) : ℤ :=
  if ttl < 1 then 1 else ttl

def tokenBucketLua (capacity ratePerSec nowMs cost : ℚ) (data : Option (Level ℚ)) :
    ScriptRun :=
  let stored := data.getD ⟨capacity, nowMs⟩
  let elapsedMs := nowMs - stored.ts
  let tokenDelta := elapsedMs * ratePerSec / 1000
  let tokens := min capacity (stored.tokens + tokenDelta)
  let ts := nowMs
  if cost ≤ tokens then
    let tokens := tokens - cost
    { reply := ⟨1, ⌊tokens⌋, 0⟩, written := ⟨tokens, ts⟩,
      ttl := atLeastOneSecond ⌈(capacity - tokens + 1) / ratePerSec⌉ }
  else
    let waitMs := ⌈(cost - tokens) / ratePerSec * 1000⌉
    { reply := ⟨0, ⌊tokens⌋, waitMs⟩, written := ⟨tokens, ts⟩,
      ttl := atLeastOneSecond ⌈(cost - tokens + 1) / ratePerSec⌉ }

abbrev RedisEntry : Type :=
  Expiring ℚ (Level ℚ)

/-- The decision `consumeRedis` makes of a reply to the token-bucket script. -/
def decisionOfReply (now : ℚ) (reply : ScriptReply) : RateLimitDecision where
  allowed := reply.allowed = 1
  remaining := max 0 reply.remaining
  resetAt :=
    if reply.retryAfterMs > 0 then now + reply.retryAfterMs
    else now + ⌈(policy.burst - reply.remaining) / policy.ratePerSec * 1000⌉
  retryAfterMs := if reply.retryAfterMs > 0 then some reply.retryAfterMs else none

/-- `consumeRedis` on the entry of one key: Redis deletes it when its `ttl` has elapsed,
and the script sets a new one. -/
def consumeRedisTokenBucket (now : ℚ) (entry : Option RedisEntry) :
    RateLimitDecision × Option RedisEntry :=
  let run := tokenBucketLua policy.burst policy.ratePerSec now 1 (Expiring.read now entry)
  (decisionOfReply policy now run.reply, some ⟨run.written, now + 1000 * run.ttl⟩)

/-! ## The in-memory path -/

/-- The tokens `consumeMemoryTokenBucket` finds. -/
def refilledTokens (now : ℚ) : Option (Level ℚ) → ℚ
  | none => policy.burst
  | some stored =>
    let elapsed := now - stored.ts
    let refill := elapsed * policy.ratePerSec / 1000
    min policy.burst (stored.tokens + refill)

def consumeMemoryTokenBucket (now : ℚ) (state : Option (Level ℚ)) :
    RateLimitDecision × Option (Level ℚ) :=
  let before := refilledTokens policy now state
  let allowed : Bool := 1 ≤ before
  let tokens := if allowed then before - 1 else before
  let retryAfterMs := ⌈(1 - tokens) / policy.ratePerSec * 1000⌉
  let decision : RateLimitDecision :=
    if allowed then
      { allowed, remaining := max 0 ⌊tokens⌋
        resetAt := now + ⌈(policy.burst - tokens) / policy.ratePerSec * 1000⌉
        retryAfterMs := none }
    else
      { allowed, remaining := max 0 ⌊tokens⌋
        resetAt := now + retryAfterMs
        retryAfterMs := some retryAfterMs }
  (decision, some ⟨tokens, now⟩)

/-! ## Runs over all keys -/

abbrev Request : Type :=
  String × ℚ

/-- The requests of a run with the decisions of `consumeRedis`, from an empty Redis. -/
def redisTrace (requests : List Request) : List (Request × RateLimitDecision) :=
  trace (keyed (consumeRedisTokenBucket policy)) requests fun _ => none

/-- The requests of a run with the decisions of `consumeMemory`, from empty
`memoryBuckets`. -/
def memoryTrace (requests : List Request) : List (Request × RateLimitDecision) :=
  trace (keyed (consumeMemoryTokenBucket policy)) requests fun _ => none

/-- The requests for a key allowed in the `T` milliseconds from time `a`. -/
def allowedWithin (key : String) (a T : ℚ) (entries : List (Request × RateLimitDecision)) :
    Nat :=
  entries.countP fun e => e.1.1 = key ∧ a ≤ e.1.2 ∧ e.1.2 ≤ a + T ∧ e.2.allowed = true

/-! ## Both paths as token buckets -/

def RateLimitPolicy.bucket : Bucket ℚ where
  capacity := policy.burst
  rate := policy.ratePerSec / 1000

/-! ## Rates and deadlines -/

/-- The burst is at most two tokens or what the policy allows in a second. -/
def RateLimitPolicy.ExpiresFull : Prop :=
  policy.burst ≤ 2 ∨ policy.burst * policy.windowMs ≤ 1000 * policy.limit

section Rate

variable {policy : RateLimitPolicy} (hlimit : 0 < policy.limit) (hwindow : 0 < policy.windowMs)

include hlimit hwindow

theorem ratePerSec_pos : 0 < policy.ratePerSec := by
  unfold RateLimitPolicy.ratePerSec
  positivity

theorem bucket_rate_nonneg : 0 ≤ policy.bucket.rate := by
  have hrate := ratePerSec_pos hlimit hwindow
  simp only [RateLimitPolicy.bucket]
  linarith

end Rate

theorem expiresFull_iff {policy : RateLimitPolicy} (hwindow : 0 < policy.windowMs) :
    policy.ExpiresFull ↔ policy.burst ≤ 2 ∨ policy.burst ≤ policy.ratePerSec := by
  have hrate : policy.ratePerSec = 1000 * policy.limit / policy.windowMs := by
    unfold RateLimitPolicy.ratePerSec
    field_simp
  unfold RateLimitPolicy.ExpiresFull
  rw [hrate, le_div_iff₀ hwindow]

theorem one_le_atLeastOneSecond (ttl : ℤ) : 1 ≤ atLeastOneSecond ttl := by
  unfold atLeastOneSecond
  split
  · exact le_refl 1
  · omega

theorem le_atLeastOneSecond (ttl : ℤ) : ttl ≤ atLeastOneSecond ttl := by
  unfold atLeastOneSecond
  split
  · omega
  · exact le_refl ttl

theorem le_ttl_mul_rate {x rate : ℚ} (hrate : 0 < rate) :
    x ≤ atLeastOneSecond ⌈x / rate⌉ * rate := by
  have hceil : x / rate ≤ (⌈x / rate⌉ : ℚ) := Int.le_ceil _
  have hclamp : ((⌈x / rate⌉ : ℤ) : ℚ) ≤ atLeastOneSecond ⌈x / rate⌉ := by
    exact_mod_cast le_atLeastOneSecond _
  calc
    x = x / rate * rate := by field_simp
    _ ≤ atLeastOneSecond ⌈x / rate⌉ * rate :=
      mul_le_mul_of_nonneg_right (hceil.trans hclamp) hrate.le

/-! ## What a request does -/

/-- What a caller is told when so many tokens are available. -/
def outcomeOf (available : ℚ) : Bool × ℤ :=
  if 1 ≤ available then (true, max 0 ⌊available - 1⌋) else (false, max 0 ⌊available⌋)

theorem fst_outcomeOf (b : Bucket ℚ) (now : ℚ) (level : Option (Level ℚ)) :
    (outcomeOf (b.available now level)).1 = (b.take now level).1 := by
  by_cases h : 1 ≤ b.available now level
  · simp [outcomeOf, h, take_of_le h]
  · simp [outcomeOf, h, take_of_lt (not_le.mp h)]

section Memory

variable (policy : RateLimitPolicy) (now : ℚ) (state : Option (Level ℚ))

theorem refilledTokens_eq :
    refilledTokens policy now state = policy.bucket.available now state := by
  cases state with
  | none => rfl
  | some stored => simp [refilledTokens, available, RateLimitPolicy.bucket, mul_div_assoc]

theorem outcome_consumeMemoryTokenBucket : (consumeMemoryTokenBucket policy now state).1.outcome =
    outcomeOf (policy.bucket.available now state) := by
  simp only [consumeMemoryTokenBucket, refilledTokens_eq]
  by_cases h : 1 ≤ policy.bucket.available now state
  · simp [outcomeOf, RateLimitDecision.outcome, h]
  · simp [outcomeOf, RateLimitDecision.outcome, h]

theorem consumeMemoryTokenBucket_take :
    (consumeMemoryTokenBucket policy now state).2 = (policy.bucket.take now state).2 := by
  simp only [consumeMemoryTokenBucket, refilledTokens_eq]
  by_cases h : 1 ≤ policy.bucket.available now state
  · simp [take_of_le h, h]
  · simp [take_of_lt (not_le.mp h), h]

end Memory

section Redis

variable {policy : RateLimitPolicy} {now : ℚ} {entry : Option RedisEntry}

theorem tokenBucketLua_eq (policy : RateLimitPolicy) (now : ℚ) (data : Option (Level ℚ)) :
    tokenBucketLua policy.burst policy.ratePerSec now 1 data =
      let tokens := policy.bucket.available now data
      if 1 ≤ tokens then
        { reply := ⟨1, ⌊tokens - 1⌋, 0⟩, written := ⟨tokens - 1, now⟩,
          ttl := atLeastOneSecond ⌈(policy.burst - (tokens - 1) + 1) / policy.ratePerSec⌉ }
      else
        { reply := ⟨0, ⌊tokens⌋, ⌈(1 - tokens) / policy.ratePerSec * 1000⌉⟩
          written := ⟨tokens, now⟩
          ttl := atLeastOneSecond ⌈(1 - tokens + 1) / policy.ratePerSec⌉ } := by
  have htokens : min policy.burst ((data.getD ⟨policy.burst, now⟩).tokens +
      (now - (data.getD ⟨policy.burst, now⟩).ts) * policy.ratePerSec / 1000) =
      policy.bucket.available now data := by
    cases data with
    | none => simp [available, RateLimitPolicy.bucket]
    | some stored => simp [available, RateLimitPolicy.bucket, mul_div_assoc]
  simp only [tokenBucketLua, htokens]

theorem outcome_consumeRedisTokenBucket (policy : RateLimitPolicy) (now : ℚ)
    (entry : Option RedisEntry) : (consumeRedisTokenBucket policy now entry).1.outcome =
      outcomeOf (policy.bucket.available now (read now entry)) := by
  simp only [consumeRedisTokenBucket, tokenBucketLua_eq]
  by_cases h : 1 ≤ policy.bucket.available now (read now entry)
  · simp [outcomeOf, RateLimitDecision.outcome, decisionOfReply, h]
  · simp [outcomeOf, RateLimitDecision.outcome, decisionOfReply, h]

theorem consumeRedisTokenBucket_granted (h : 1 ≤ policy.bucket.available now (read now entry)) :
    (consumeRedisTokenBucket policy now entry).2 =
      let tokens := policy.bucket.available now (read now entry) - 1
      some ⟨⟨tokens, now⟩, now + 1000 *
        atLeastOneSecond ⌈(policy.burst - tokens + 1) / policy.ratePerSec⌉⟩ := by
  simp only [consumeRedisTokenBucket, tokenBucketLua_eq]
  rw [if_pos h]

theorem consumeRedisTokenBucket_denied (h : policy.bucket.available now (read now entry) < 1) :
    (consumeRedisTokenBucket policy now entry).2 =
      let tokens := policy.bucket.available now (read now entry)
      some ⟨⟨tokens, now⟩, now + 1000 *
        atLeastOneSecond ⌈(1 - tokens + 1) / policy.ratePerSec⌉⟩ := by
  simp only [consumeRedisTokenBucket, tokenBucketLua_eq]
  rw [if_neg (not_le.mpr h)]

theorem ts_consumeRedisTokenBucket {e : RedisEntry}
    (he : e ∈ (consumeRedisTokenBucket policy now entry).2) : e.value.ts = now := by
  by_cases h : 1 ≤ policy.bucket.available now (read now entry)
  · rw [consumeRedisTokenBucket_granted h] at he
    cases he
    rfl
  · rw [consumeRedisTokenBucket_denied (not_le.mp h)] at he
    cases he
    rfl

end Redis

/-! ## Counting over one key -/

theorem allowedWithin_eq_granted (key : String) (a T : ℚ)
    (entries : List (Request × RateLimitDecision)) :
    allowedWithin key a T entries = granted a (a + T) (((entries.filter fun e => e.1.1 = key).map
        fun e => (e.1.2, e.2)).map fun e => (e.1, e.2.allowed)) := by
  induction entries with
  | nil => rfl
  | cons e rest ih =>
    by_cases hkey : e.1.1 = key
    · simp only [allowedWithin, List.countP_cons] at ih ⊢
      rw [ih]
      simp [hkey, granted_cons]
    · simp only [allowedWithin, List.countP_cons] at ih ⊢
      rw [ih]
      simp [hkey]

theorem allowedWithin_keyed {V : Type} (step : ℚ → Option V → RateLimitDecision × Option V)
    (key : String) (a T : ℚ) (requests : List Request) :
    allowedWithin key a T (trace (keyed step) requests fun _ => none) = granted a (a + T)
        ((trace step (forKey key requests) none).map fun e => (e.1, e.2.allowed)) := by
  rw [allowedWithin_eq_granted, trace_keyed]

end Trellis.RateLimiting
