import Trellis.RateLimiting.Overshoot

/-!
# The bound of a policy and the agreement of the two paths

The in-memory path is a token bucket and keeps the bound of its policy. The Redis path does so,
and answers like it, exactly for the policies whose keys are full when they expire.
-/

namespace Trellis.RateLimiting

open Core RateLimitPolicy

/-! ## Keys that are full when they expire -/

/-- Both paths hold the same level, and at the deadline of the entry the bucket is
full. -/
def Refills (policy : RateLimitPolicy) (entry : Option RedisEntry)
    (state : Option (Level ℚ)) : Prop :=
  entry.map (·.value) = state ∧ ∀ e ∈ entry,
    policy.burst ≤ e.value.tokens + (e.deadline - e.value.ts) * policy.bucket.rate ∧
      (policy.burst ≤ 2 ∨ 0 ≤ e.value.tokens)

variable {state : Option (Level ℚ)} {entry : Option RedisEntry} {policy : RateLimitPolicy}

theorem Refills.available_read (hrate : 0 ≤ policy.bucket.rate)
    (h : Refills policy entry state) (now : ℚ) :
    policy.bucket.available now (Expiring.read now entry) = policy.bucket.available now state := by
  rcases h with ⟨rfl, hfull⟩
  cases entry with
  | none => rfl
  | some e =>
    by_cases hexpired : e.deadline ≤ now
    · have hgain : (e.deadline - e.value.ts) * policy.bucket.rate ≤
          (now - e.value.ts) * policy.bucket.rate :=
        mul_le_mul_of_nonneg_right (sub_le_sub_right hexpired _) hrate
      have hburst := (hfull e rfl).1
      have hmin : policy.burst ≤ e.value.tokens + (now - e.value.ts) * policy.bucket.rate := by
        linarith
      rw [Expiring.read_of_le hexpired, Option.map_some]
      exact (min_eq_left hmin).symm
    · rw [Expiring.read_of_lt (not_le.mp hexpired), Option.map_some]

theorem Refills.step (hlimit : 0 < policy.limit)
    (hwindow : 0 < policy.windowMs) (hpolicy : policy.ExpiresFull) (h : Refills policy entry state)
    {now : ℚ} (hready : ∀ e ∈ entry, e.value.ts ≤ now) :
    Refills policy (consumeRedisTokenBucket policy now entry).2
      (consumeMemoryTokenBucket policy now state).2 := by
  have hrate := ratePerSec_pos hlimit hwindow
  have hgain := bucket_rate_nonneg hlimit hwindow
  have havailable := h.available_read hgain now
  have hnonneg : policy.burst ≤ 2 ∨ 0 ≤ policy.bucket.available now state := by
    by_cases hburst : policy.burst ≤ 2
    · exact Or.inl hburst
    · right
      apply Bucket.available_nonneg _ hgain
      · intro level hlevel
        rcases h with ⟨rfl, hfull⟩
        rcases Option.map_eq_some_iff.mp hlevel with ⟨e, he, rfl⟩
        exact ⟨(hfull e he).2.resolve_left hburst, hready e he⟩
      · simp only [bucket]
        linarith
  have hms : ∀ ttl : ℚ, (now + 1000 * ttl - now) * policy.bucket.rate =
      ttl * policy.ratePerSec := by
    intro ttl
    simp only [bucket]
    ring
  rw [consumeMemoryTokenBucket_take]
  by_cases hallowed : 1 ≤ policy.bucket.available now state
  · rw [consumeRedisTokenBucket_granted (by rwa [havailable]), Bucket.take_of_le hallowed,
      havailable]
    refine ⟨rfl, ?_⟩
    intro e he
    cases he
    constructor
    · have httl := le_ttl_mul_rate (x := policy.burst -
        (policy.bucket.available now state - 1) + 1) hrate
      simp only [hms]
      linarith
    · right
      linarith
  · have hdenied := not_le.mp hallowed
    rw [consumeRedisTokenBucket_denied (by rwa [havailable]), Bucket.take_of_lt hdenied, havailable]
    refine ⟨rfl, ?_⟩
    intro e he
    cases he
    refine ⟨?_, hnonneg⟩
    simp only [hms]
    rcases (expiresFull_iff hwindow).mp hpolicy with htwo | hsecond
    · -- two tokens have gathered when the key goes
      have httl := le_ttl_mul_rate (x := 1 - policy.bucket.available now state + 1) hrate
      linarith
    · -- the key stays for a second, in which the bucket fills up
      rcases hnonneg with htwo | hnonneg
      · have httl := le_ttl_mul_rate (x := 1 - policy.bucket.available now state + 1) hrate
        linarith
      · have hone : (1 : ℚ) ≤ atLeastOneSecond
            ⌈(1 - policy.bucket.available now state + 1) / policy.ratePerSec⌉ := by
          exact_mod_cast one_le_atLeastOneSecond _
        have hfill : policy.ratePerSec ≤ atLeastOneSecond
            ⌈(1 - policy.bucket.available now state + 1) / policy.ratePerSec⌉ *
              policy.ratePerSec := by
          calc
            policy.ratePerSec = 1 * policy.ratePerSec := (one_mul _).symm
            _ ≤ _ := mul_le_mul_of_nonneg_right hone hrate.le
        linarith

/-! ## Both paths over whole runs -/

variable {requests : List Request}

theorem same_outcomes (hlimit : 0 < policy.limit) (hwindow : 0 < policy.windowMs)
    (hpolicy : policy.ExpiresFull) (hrequests : requests.Pairwise fun r r' => r.2 ≤ r'.2) :
    (redisTrace policy requests).map (fun e => (e.1, e.2.outcome)) =
      (memoryTrace policy requests).map (fun e => (e.1, e.2.outcome)) := by
  have hrate := bucket_rate_nonneg hlimit hwindow
  refine trace_simulates RateLimitDecision.outcome RateLimitDecision.outcome
    (fun store request => ∀ e ∈ store request.1, e.value.ts ≤ request.2)
    (fun store state => ∀ key, Refills policy (store key) (state key)) ?_ ?_ hrequests ?_ ?_
  · intro request store state h hready
    constructor
    · simp only [keyed]
      rw [outcome_consumeRedisTokenBucket, outcome_consumeMemoryTokenBucket,
        (h request.1).available_read hrate]
    · intro key
      by_cases hkey : key = request.1
      · subst hkey
        simpa [keyed] using (h request.1).step hlimit hwindow hpolicy hready
      · simpa [keyed, hkey] using h key
  · intro request later store hlater hfollows e he
    by_cases hkey : later.1 = request.1
    · simp only [keyed, hkey, Function.update_self] at he
      rw [ts_consumeRedisTokenBucket he]
      exact hfollows
    · simp only [keyed, Function.update_of_ne hkey] at he
      exact hlater e he
  · intro request _ e he
    cases he
  · intro key
    exact ⟨rfl, fun e he => by cases he⟩

theorem memory_allowed (policy : RateLimitPolicy) (times : List ℚ) (state : Option (Level ℚ)) :
    (trace (consumeMemoryTokenBucket policy) times state).map (fun e => (e.1, e.2.allowed)) =
      trace policy.bucket.take times state := by
  induction times generalizing state with
  | nil => rfl
  | cons now rest ih =>
    have houtcome := congrArg Prod.fst (outcome_consumeMemoryTokenBucket policy now state)
    rw [fst_outcomeOf] at houtcome
    have hallowed : (consumeMemoryTokenBucket policy now state).1.allowed =
        (policy.bucket.take now state).1 := houtcome
    rw [trace_cons, trace_cons, List.map_cons, ih, consumeMemoryTokenBucket_take, hallowed]

theorem pairwise_forKey (key : String) (hrequests : requests.Pairwise fun r r' => r.2 ≤ r'.2) :
    (forKey key requests).Pairwise (· ≤ ·) := by
  exact List.pairwise_map.mpr (hrequests.filter _)

theorem forKey_single (key : String) (times : List ℚ) :
    forKey key (times.map fun t => (key, t)) = times := by
  simp [forKey, List.filter_map, Function.comp_def]

theorem rate_mul_eq (T : ℚ) : T * policy.bucket.rate = T * policy.limit / policy.windowMs := by
  simp only [bucket, ratePerSec]
  rcases eq_or_ne policy.windowMs 0 with hzero | hne
  · simp [hzero]
  · field_simp

theorem memory_bound (hlimit : 0 < policy.limit)
    (hwindow : 0 < policy.windowMs) (hburst : 0 ≤ policy.burst)
    (hrequests : requests.Pairwise fun r r' => r.2 ≤ r'.2) (key : String) (a : ℚ) {T : ℚ}
    (hT : 0 ≤ T) : (allowedWithin key a T (memoryTrace policy requests) : ℚ) ≤
      policy.burst + T * policy.limit / policy.windowMs := by
  rw [memoryTrace, allowedWithin_keyed, memory_allowed]
  have hunused : ∀ l ∈ (none : Option (Level ℚ)), 0 ≤ l.tokens ∧
      ∀ t ∈ forKey key requests, l.ts ≤ t := by
    simp
  have hgrants := Bucket.grants_le (b := policy.bucket) hburst
    (bucket_rate_nonneg hlimit hwindow) (le_add_of_nonneg_right hT : a ≤ a + T)
    (pairwise_forKey key hrequests) hunused
  rwa [add_sub_cancel_left, rate_mul_eq] at hgrants

theorem allowedWithin_congr {entries entries' : List (Request × RateLimitDecision)}
    (h : entries.map (fun e => (e.1, e.2.outcome)) = entries'.map (fun e => (e.1, e.2.outcome)))
    (key : String) (a T : ℚ) : allowedWithin key a T entries = allowedWithin key a T entries' := by
  have hcount : ∀ es : List (Request × RateLimitDecision), allowedWithin key a T es =
      (es.map fun e => (e.1, e.2.outcome)).countP fun e =>
        e.1.1 = key ∧ a ≤ e.1.2 ∧ e.1.2 ≤ a + T ∧ e.2.1 = true := by
    intro es
    rw [List.countP_map]
    rfl
  rw [hcount, hcount, h]

/-- The number of requests `consumeRedis` allows for any key in any `T` milliseconds is
within the bound of the policy. -/
def RedisBounded (policy : RateLimitPolicy) : Prop :=
  ∀ requests : List Request, requests.Pairwise (fun r r' => r.2 ≤ r'.2) →
    ∀ (key : String) (a T : ℚ), 0 ≤ T → (allowedWithin key a T (redisTrace policy requests) : ℚ) ≤
        policy.burst + T * policy.limit / policy.windowMs

/-- Both paths tell the caller of every request the same. -/
def PathsAgree (policy : RateLimitPolicy) : Prop :=
  ∀ requests : List Request, requests.Pairwise (fun r r' => r.2 ≤ r'.2) →
    (redisTrace policy requests).map (fun e => (e.1, e.2.allowed, e.2.remaining)) =
      (memoryTrace policy requests).map (fun e => (e.1, e.2.allowed, e.2.remaining))

section Policies

variable {policy : RateLimitPolicy} (hlimit : 0 < policy.limit) (hwindow : 0 < policy.windowMs)

include hlimit hwindow

theorem pathsAgree_of_expiresFull (hpolicy : policy.ExpiresFull) : PathsAgree policy :=
  fun _ hrequests => same_outcomes hlimit hwindow hpolicy hrequests

theorem redisBounded_of_pathsAgree (hburst : 0 ≤ policy.burst) (h : PathsAgree policy) :
    RedisBounded policy := by
  intro requests hrequests key a T hT
  rw [allowedWithin_congr (h requests hrequests)]
  exact memory_bound hlimit hwindow hburst hrequests key a hT

theorem expiresFull_of_redisBounded (h : RedisBounded policy) : policy.ExpiresFull := by
  by_contra hpolicy
  rcases exists_overshoot hlimit hwindow hpolicy with ⟨times, htimes, T, hT, hover⟩
  have hsorted : (times.map fun t => ("", t)).Pairwise fun r r' : Request => r.2 ≤ r'.2 :=
    List.pairwise_map.mpr htimes
  have hbound := h _ hsorted "" 0 T hT
  rw [redisTrace, allowedWithin_keyed, forKey_single, ← rate_mul_eq] at hbound
  exact absurd hbound (not_le.mpr hover)

end Policies

/-- The Redis path keeps the bound of a policy exactly if its burst is at most two
tokens or what it allows in a second. -/
theorem redis_bound_iff (policy : RateLimitPolicy) (hlimit : 0 < policy.limit)
    (hwindow : 0 < policy.windowMs) (hburst : 0 < policy.burst) : RedisBounded policy ↔
      policy.burst ≤ 2 ∨ policy.burst * policy.windowMs ≤ 1000 * policy.limit := by
  constructor
  · intro h
    exact expiresFull_of_redisBounded hlimit hwindow h
  · intro hpolicy
    exact redisBounded_of_pathsAgree hlimit hwindow hburst.le
      (pathsAgree_of_expiresFull hlimit hwindow hpolicy)

def tenPerSecond : RateLimitPolicy where
  limit := 10
  windowMs := 1000
  burst := 10

theorem tenPerSecond_bounded : RedisBounded tenPerSecond := by
  have hiff := redis_bound_iff tenPerSecond (by norm_num [tenPerSecond])
    (by norm_num [tenPerSecond]) (by norm_num [tenPerSecond])
  exact hiff.mpr (Or.inr (by norm_num [tenPerSecond]))

def threePerThreeSeconds : RateLimitPolicy where
  limit := 3
  windowMs := 3000
  burst := 3

def twoBursts : List Request :=
  List.replicate 4 ("ip:1", 0) ++ List.replicate 3 ("ip:1", 2000)

/-- Six of them are allowed within two seconds, where the policy has five. -/
theorem denied_request_refills_bucket : twoBursts.Pairwise (fun r r' => r.2 ≤ r'.2) ∧
    ¬(allowedWithin "ip:1" 0 2000 (redisTrace threePerThreeSeconds twoBursts) : ℚ) ≤
      threePerThreeSeconds.burst +
        2000 * threePerThreeSeconds.limit / threePerThreeSeconds.windowMs := by
  have hsix : allowedWithin "ip:1" 0 2000 (redisTrace threePerThreeSeconds twoBursts) = 6 := by
    decide +kernel
  constructor
  · decide +kernel
  · rw [hsix]
    norm_num [threePerThreeSeconds]

/-- Both paths answer alike for exactly the policies for which the Redis path keeps the
bound. -/
theorem paths_agree_iff (policy : RateLimitPolicy) (hlimit : 0 < policy.limit)
    (hwindow : 0 < policy.windowMs) : PathsAgree policy ↔
      policy.burst ≤ 2 ∨ policy.burst * policy.windowMs ≤ 1000 * policy.limit := by
  constructor
  · intro h
    rcases le_total policy.burst 2 with hsmall | hlarge
    · exact Or.inl hsmall
    · exact expiresFull_of_redisBounded hlimit hwindow
        (redisBounded_of_pathsAgree hlimit hwindow (by linarith) h)
  · intro hpolicy
    exact pathsAgree_of_expiresFull hlimit hwindow hpolicy

theorem tenPerSecond_agrees : PathsAgree tenPerSecond := by
  have hiff := paths_agree_iff tenPerSecond (by norm_num [tenPerSecond])
    (by norm_num [tenPerSecond])
  exact hiff.mpr (Or.inr (by norm_num [tenPerSecond]))

/-- After the reset of the key the paths count differently, and the last request is
allowed by one and denied by the other. -/
theorem expired_key_diverges :
    (redisTrace threePerThreeSeconds twoBursts).map (fun e => (e.2.allowed, e.2.remaining)) =
        [(true, 2), (true, 1), (true, 0), (false, 0), (true, 2), (true, 1), (true, 0)] ∧
      (memoryTrace threePerThreeSeconds twoBursts).map (fun e => (e.2.allowed, e.2.remaining)) =
        [(true, 2), (true, 1), (true, 0), (false, 0), (true, 1), (true, 0), (false, 0)] := by
  decide +kernel

end Trellis.RateLimiting
