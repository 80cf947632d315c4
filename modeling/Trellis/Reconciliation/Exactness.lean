import Mathlib.Algebra.Order.Floor.Semifield
import Trellis.Reconciliation.Amount

/-!
# The values of amounts

An amount against the number its decimal digits stand for: `toUnits` rounds it down to a multiple
of 10⁻⁷, and amounts that are normalized lose nothing.
-/

namespace Trellis.Reconciliation

open Core List

def decimalValue (value : String) : Option ℚ :=
  (parseAmount (trimChars value.toList)).map fun parts =>
    bigInt parts.1 + bigInt parts.2 / 10 ^ parts.2.length

theorem bigInt_append (a b : List Char) :
    bigInt (a ++ b) = 10 ^ b.length * bigInt a + bigInt b := by
  rw [bigInt, Nat.ofDigitChars_append, Nat.ofDigitChars_eq_ofDigitChars_zero]
  rfl

theorem bigInt_lt {digits : List Char} (h : ∀ c ∈ digits, c.isDigit = true) :
    bigInt digits < 10 ^ digits.length := by
  induction digits with
  | nil => decide
  | cons c cs ih =>
    obtain ⟨hc, hcs⟩ := forall_mem_cons.mp h
    simp only [Char.isDigit, Bool.and_eq_true, decide_eq_true_eq] at hc
    have hhigh : c.toNat ≤ 57 := UInt32.le_iff_toNat_le.mp hc.2
    have hfirst : bigInt [c] ≤ 9 := by
      change 10 * 0 + (c.toNat - 48) ≤ 9
      omega
    have hrest := ih hcs
    have hmul := Nat.mul_le_mul_left (10 ^ cs.length) hfirst
    rw [← singleton_append, bigInt_append, length_append, length_singleton, Nat.pow_add]
    omega

/-- The digits that are kept are those of the rounded value. -/
theorem bigInt_fractionDigits {fraction : List Char} (h : ∀ c ∈ fraction, c.isDigit = true) :
    bigInt (fractionDigits fraction) =
      bigInt fraction * 10 ^ scale / 10 ^ fraction.length := by
  rcases Nat.le_total fraction.length scale with hshort | hlong
  · have hkept : fractionDigits fraction =
        fraction ++ replicate (scale - fraction.length) '0' :=
      take_of_length_le (by simp; omega)
    rw [hkept, bigInt_append, bigInt_zeros, length_replicate, Nat.add_zero, Nat.mul_comm,
      Nat.mul_div_assoc _ (Nat.pow_dvd_pow 10 hshort), Nat.pow_div hshort (by decide)]
  · have hkept : fractionDigits fraction = fraction.take scale := by
      rw [fractionDigits, Nat.sub_eq_zero_of_le hlong, replicate_zero, append_nil]
    have hcut : (fraction.drop scale).length = fraction.length - scale := length_drop
    have hpow : (10 : Nat) ^ fraction.length = 10 ^ (fraction.length - scale) * 10 ^ scale := by
      rw [← Nat.pow_add, Nat.sub_add_cancel hlong]
    have hlt := bigInt_lt fun c hc => h c (mem_of_mem_drop (i := scale) hc)
    have hall := bigInt_append (fraction.take scale) (fraction.drop scale)
    rw [take_append_drop, hcut] at hall
    rw [hcut] at hlt
    rw [hkept, hpow, Nat.mul_div_mul_right _ _ (by decide), hall,
      Nat.mul_add_div (by positivity), Nat.div_eq_of_lt hlt, Nat.add_zero]

theorem isDigit_of_parseAmount {cs whole fraction : List Char}
    (h : parseAmount cs = some (whole, fraction)) : ∀ c ∈ fraction, c.isDigit = true := by
  unfold parseAmount at h
  dsimp only at h
  split at h
  · split at h <;> cases h
    exact nofun
  · split at h
    · cases h
    · rename_i hok
      cases h
      simpa using fun hall => hok (.inr (.inr hall))
  · cases h

theorem decimalValue_fromUnits (n : Nat) :
    decimalValue (fromUnits n) = some ((n : ℚ) / 10 ^ scale) := by
  have hvalue : ((n / scaleFactor : Nat) : ℚ) + (n % scaleFactor : Nat) / 10 ^ scale =
      n / 10 ^ scale := by
    have hsplit : ((n / scaleFactor * scaleFactor + n % scaleFactor : Nat) : ℚ) = n := by
      rw [Nat.div_add_mod']
    have hfactor : (scaleFactor : ℚ) = 10 ^ scale := by norm_num [scaleFactor]
    push_cast [hfactor] at hsplit
    rw [← hsplit]
    field_simp
  rw [decimalValue, parseAmount_fromUnits, Option.map_some, bigInt_fractionText,
    length_fractionText, bigInt, Nat.ofDigitChars_ten_toDigits, hvalue]

variable {kind : String}

theorem toUnits_eq_floor {value : String} {n : Nat} (h : toUnits kind value = .ok n) :
    ∃ q, decimalValue value = some q ∧ n = ⌊q * 10 ^ scale⌋₊ := by
  unfold toUnits at h
  split at h
  · cases h
  · rename_i whole fraction hparse
    cases h
    refine ⟨bigInt whole + bigInt fraction / 10 ^ fraction.length,
      by simp [decimalValue, hparse], ?_⟩
    have hquot : ((bigInt whole : ℚ) + bigInt fraction / 10 ^ fraction.length) * 10 ^ scale =
        ((bigInt fraction * 10 ^ scale : Nat) : ℚ) / (10 ^ fraction.length : Nat) +
          (bigInt whole * scaleFactor : Nat) := by
      push_cast [scaleFactor]
      ring
    rw [hquot, Nat.floor_add_natCast (by positivity), Nat.floor_div_eq_div, Nat.add_comm,
      bigInt_fractionDigits (isDigit_of_parseAmount hparse)]

/-- `toUnits` rounds the value down, printed units are read back, normalizing twice is normalizing
once and keeps the order of values, and units of normalized amounts add up without loss. -/
theorem amount_conversion_exact (kind : String) :
    (∀ value n, toUnits kind value = .ok n →
      ∃ q, decimalValue value = some q ∧ n = ⌊q * 10 ^ scale⌋₊) ∧
    (∀ n, toUnits kind (fromUnits n) = .ok n) ∧
    (∀ value text, normalizeAmount kind value = .ok text →
      normalizeAmount kind text = .ok text) ∧
    (∀ value value' text text' q q', normalizeAmount kind value = .ok text →
      normalizeAmount kind value' = .ok text' → decimalValue value = some q →
      decimalValue value' = some q' → q ≤ q' →
        ∃ r r', decimalValue text = some r ∧ decimalValue text' = some r' ∧ r ≤ r') ∧
    ∀ amounts : List String, (∀ text ∈ amounts, ∃ value, normalizeAmount kind value = .ok text) →
      ∃ units values, Forall₂ (toUnits kind · = .ok ·) amounts units ∧
        Forall₂ (decimalValue · = some ·) amounts values ∧
        decimalValue (fromUnits units.sum) = some values.sum := by
  refine ⟨fun _ _ => toUnits_eq_floor, toUnits_fromUnits kind, fun value text h => ?_,
    fun value value' text text' q q' h h' hq hq' hle => ?_, fun amounts hamounts => ?_⟩
  · obtain ⟨n, -, rfl⟩ := normalizeAmount_ok h
    rw [normalizeAmount, toUnits_fromUnits]
    rfl
  · obtain ⟨n, hn, rfl⟩ := normalizeAmount_ok h
    obtain ⟨n', hn', rfl⟩ := normalizeAmount_ok h'
    refine ⟨_, _, decimalValue_fromUnits n, decimalValue_fromUnits n', ?_⟩
    obtain ⟨_, hvalue, rfl⟩ := toUnits_eq_floor hn
    obtain ⟨_, hvalue', rfl⟩ := toUnits_eq_floor hn'
    cases hq.symm.trans hvalue
    cases hq'.symm.trans hvalue'
    gcongr
  · induction amounts with
    | nil => exact ⟨[], [], .nil, .nil, by simpa using decimalValue_fromUnits 0⟩
    | cons text amounts ih =>
      obtain ⟨⟨value, hvalue⟩, hrest⟩ := forall_mem_cons.mp hamounts
      obtain ⟨n, -, rfl⟩ := normalizeAmount_ok hvalue
      obtain ⟨units, values, hunits, hvalues, hsum⟩ := ih hrest
      refine ⟨n :: units, n / 10 ^ scale :: values, .cons (toUnits_fromUnits kind n) hunits,
        .cons (decimalValue_fromUnits n) hvalues, ?_⟩
      rw [decimalValue_fromUnits, Option.some.injEq] at hsum ⊢
      rw [sum_cons, sum_cons, ← hsum]
      push_cast
      ring

end Trellis.Reconciliation
