import Mathlib.Tactic.Linarith
import Trellis.Core.Store

/-!
# Token buckets

A bucket that holds at most its capacity, gains tokens at a constant rate and gives one
away for each request it grants.
-/

namespace Trellis.Core

open List

/-- What a bucket can hold and what it gains in a unit of time. -/
structure Bucket (K : Type*) where
  capacity : K
  rate : K

structure Level (K : Type*) where
  tokens : K
  ts : K

namespace Bucket

variable {K : Type*} [LinearOrder K]

/-! ## Counting grants -/

/-- The requests granted from time `a` to time `c`. -/
def granted (a c : K) (entries : List (K × Bool)) : Nat :=
  entries.countP fun e => a ≤ e.1 ∧ e.1 ≤ c ∧ e.2 = true

@[simp]
theorem granted_nil (a c : K) : granted a c [] = 0 :=
  rfl

theorem granted_cons (a c now : K) (allowed : Bool) (rest : List (K × Bool)) :
    granted a c ((now, allowed) :: rest) =
      granted a c rest + if a ≤ now ∧ now ≤ c ∧ allowed = true then 1 else 0 := by
  simp [granted, countP_cons]

theorem granted_eq_zero {a c : K} {entries : List (K × Bool)}
    (h : ∀ e ∈ entries, c < e.1) : granted a c entries = 0 := by
  rw [granted, countP_eq_zero]
  intro e he hcounts
  have hlate := h e he
  simp only [decide_eq_true_eq] at hcounts
  exact absurd hcounts.2.1 (not_le.mpr hlate)

theorem granted_eq_count {a c : K} {entries : List (K × Bool)}
    (h : ∀ e ∈ entries, a ≤ e.1 ∧ e.1 ≤ c) :
    granted a c entries = (entries.map Prod.snd).count true := by
  rw [granted, count, countP_map]
  apply countP_congr
  intro e he
  simp [h e he]

/-! ## The bucket -/

variable [Field K]

/-- The tokens at time `now`; a bucket that was never used is full. -/
def available (b : Bucket K) (now : K) : Option (Level K) → K
  | none => b.capacity
  | some level => min b.capacity (level.tokens + (now - level.ts) * b.rate)

def take (b : Bucket K) (now : K) (level : Option (Level K)) : Bool × Option (Level K) :=
  let tokens := b.available now level
  if 1 ≤ tokens then (true, some ⟨tokens - 1, now⟩) else (false, some ⟨tokens, now⟩)

theorem available_le (b : Bucket K) (now : K) (level : Option (Level K)) :
    b.available now level ≤ b.capacity := by
  cases level with
  | none => exact le_refl _
  | some level => exact min_le_left _ _

variable {level : Option (Level K)}

theorem take_of_le {b : Bucket K} {now : K} (h : 1 ≤ b.available now level) :
    b.take now level = (true, some ⟨b.available now level - 1, now⟩) :=
  if_pos h

theorem take_of_lt {b : Bucket K} {now : K} (h : b.available now level < 1) :
    b.take now level = (false, some ⟨b.available now level, now⟩) :=
  if_neg (not_le.mpr h)

theorem take_spec [IsStrictOrderedRing K] {b : Bucket K} {now : K} (h : 0 ≤ b.available now level) :
    ∃ tokens, (b.take now level).2 = some ⟨tokens, now⟩ ∧ 0 ≤ tokens ∧
      tokens + (if (b.take now level).1 = true then 1 else 0) = b.available now level := by
  by_cases hone : 1 ≤ b.available now level
  · rw [take_of_le hone]
    refine ⟨_, rfl, ?_, ?_⟩
    · linarith
    · simp
  · rw [take_of_lt (not_le.mp hone)]
    refine ⟨_, rfl, h, ?_⟩
    simp

variable [IsStrictOrderedRing K] {b : Bucket K} (hcapacity : 0 ≤ b.capacity) (hrate : 0 ≤ b.rate)

include hcapacity hrate

theorem available_nonneg {now : K}
    (hlevel : ∀ l ∈ level, 0 ≤ l.tokens ∧ l.ts ≤ now) : 0 ≤ b.available now level := by
  cases level with
  | none => exact hcapacity
  | some l =>
    rcases hlevel l rfl with ⟨htokens, hts⟩
    have hgain : 0 ≤ (now - l.ts) * b.rate := mul_nonneg (sub_nonneg.mpr hts) hrate
    exact le_min hcapacity (add_nonneg htokens hgain)

/-- From a known level on, the grants up to time `c` are paid by the tokens of that level
and what the bucket gains until then. -/
theorem granted_le_tokens (a c : K) {times : List K} (htimes : times.Pairwise (· ≤ ·))
    {l : Level K} (hlevel : 0 ≤ l.tokens) (hfirst : ∀ t ∈ times, l.ts ≤ t) (hc : l.ts ≤ c) :
    (granted a c (trace b.take times (some l)) : K) ≤ l.tokens + (c - l.ts) * b.rate := by
  induction times generalizing l with
  | nil =>
    have hgain : 0 ≤ (c - l.ts) * b.rate := mul_nonneg (sub_nonneg.mpr hc) hrate
    simpa using add_nonneg hlevel hgain
  | cons t rest ih =>
    rw [pairwise_cons] at htimes
    have ht : l.ts ≤ t := hfirst t mem_cons_self
    by_cases hlate : t ≤ c
    · have havailable : 0 ≤ b.available t (some l) :=
        available_nonneg hcapacity hrate (by
          intro l' hl'
          cases hl'
          exact ⟨hlevel, ht⟩)
      rcases take_spec havailable with ⟨tokens, hnext, htokens, hpaid⟩
      have hrest := ih htimes.2 (l := ⟨tokens, t⟩) htokens htimes.1 hlate
      have hcount : ((if a ≤ t ∧ t ≤ c ∧ (b.take t (some l)).1 = true then 1 else 0 : Nat) : K)
          ≤ if (b.take t (some l)).1 = true then 1 else 0 := by
        split_ifs <;> simp_all
      have hgain : b.available t (some l) ≤ l.tokens + (t - l.ts) * b.rate :=
        min_le_right _ _
      rw [trace_cons, hnext, granted_cons, Nat.cast_add]
      linarith
    · have hzero : granted a c (trace b.take (t :: rest) (some l)) = 0 := by
        apply granted_eq_zero
        intro e he
        rcases mem_cons.mp (mem_trace he) with heq | hmem
        · rw [heq]
          exact not_le.mp hlate
        · exact lt_of_lt_of_le (not_le.mp hlate) (htimes.1 _ hmem)
      rw [hzero]
      have hgain : 0 ≤ (c - l.ts) * b.rate := mul_nonneg (sub_nonneg.mpr hc) hrate
      simpa using add_nonneg hlevel hgain

/-- In a stretch of time from `a` to `c` a bucket grants at most what it can hold and
what it gains in that time. -/
theorem grants_le {a c : K} (hac : a ≤ c) {times : List K} (htimes : times.Pairwise (· ≤ ·))
    (hlevel : ∀ l ∈ level, 0 ≤ l.tokens ∧ ∀ t ∈ times, l.ts ≤ t) :
    (granted a c (trace b.take times level) : K) ≤ b.capacity + (c - a) * b.rate := by
  have hwindow : 0 ≤ (c - a) * b.rate := mul_nonneg (sub_nonneg.mpr hac) hrate
  induction times generalizing level with
  | nil => simpa using add_nonneg hcapacity hwindow
  | cons t rest ih =>
    rw [pairwise_cons] at htimes
    have havailable : 0 ≤ b.available t level :=
      available_nonneg hcapacity hrate fun l hl =>
        ⟨(hlevel l hl).1, (hlevel l hl).2 t mem_cons_self⟩
    rcases take_spec havailable with ⟨tokens, hnext, htokens, hpaid⟩
    rw [trace_cons, hnext, granted_cons, Nat.cast_add]
    by_cases hstretch : a ≤ t ∧ t ≤ c
    · have hrest := granted_le_tokens hcapacity hrate a c htimes.2
        (l := ⟨tokens, t⟩) htokens htimes.1 hstretch.2
      have hfull := b.available_le t level
      have hgain : (c - t) * b.rate ≤ (c - a) * b.rate :=
        mul_le_mul_of_nonneg_right (sub_le_sub_left hstretch.1 c) hrate
      simp only [hstretch.1, hstretch.2, true_and] at hrest ⊢
      push_cast at hpaid ⊢
      linarith
    · have hnow : ∀ l ∈ some (Level.mk tokens t), 0 ≤ l.tokens ∧ ∀ t' ∈ rest, l.ts ≤ t' := by
        intro l hl
        cases hl
        exact ⟨htokens, htimes.1⟩
      have hrest := ih htimes.2 hnow
      have hcount : ¬(a ≤ t ∧ t ≤ c ∧ (b.take t level).1 = true) := by
        intro h
        exact hstretch ⟨h.1, h.2.1⟩
      simpa [hcount] using hrest

end Bucket

end Trellis.Core
