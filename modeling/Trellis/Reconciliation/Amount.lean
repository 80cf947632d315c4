import Trellis.Core.Failure
import Trellis.Core.Text

/-!
# Stellar amounts

`toUnits` and `fromUnits` of the reconciliation services: decimal strings against whole numbers of
10⁻⁷. White space around an amount is ignored, digits after the seventh decimal are cut off.
-/

namespace Trellis.Reconciliation

open Core List Nat Char

def scale : Nat := 7

def scaleFactor : Nat := 10 ^ scale

def bigInt (digits : List Char) : Nat :=
  ofDigitChars 10 digits 0

/-- The parts before and after the point of `/^\d+(\.\d+)?$/`. -/
def parseAmount (cs : List Char) : Option (List Char × List Char) :=
  let whole := cs.takeWhile isDigit
  match cs.dropWhile isDigit with
  | [] => if whole = [] then none else some (whole, [])
  | '.' :: fraction =>
    if whole = [] ∨ fraction = [] ∨ fraction.all isDigit = false then none
    else some (whole, fraction)
  | _ :: _ => none

def fractionDigits (fraction : List Char) : List Char :=
  (fraction ++ List.replicate (scale - fraction.length) '0').take scale

def toUnits (kind value : String) : Except Failure Nat :=
  match parseAmount (trimChars value.toList) with
  | none => .error (.error ("Invalid " ++ kind ++ " amount: " ++ value))
  | some (whole, fraction) =>
    .ok (bigInt whole * scaleFactor + bigInt (fractionDigits fraction))

def padFraction (digits : List Char) : List Char :=
  List.replicate (scale - digits.length) '0' ++ digits

def fromUnits (units : Nat) : String :=
  String.ofList (toDigits 10 (units / scaleFactor) ++
    '.' :: padFraction (toDigits 10 (units % scaleFactor)))

def normalizeAmount (kind value : String) : Except Failure String :=
  (toUnits kind value).map fromUnits

/-! ## Printing and reading again -/

theorem isSpace_of_isDigit {c : Char} (h : c.isDigit = true) : isSpace c = false := by
  simp only [isDigit, Bool.and_eq_true, decide_eq_true_eq, ge_iff_le] at h
  have hlow : 48 ≤ c.toNat := UInt32.le_iff_toNat_le.mp h.1
  have hhigh : c.toNat ≤ 57 := UInt32.le_iff_toNat_le.mp h.2
  simp only [isSpace, mem_cons, not_mem_nil, or_false, Bool.or_eq_false_iff,
    decide_eq_false_iff_not, Bool.and_eq_false_iff]
  omega

theorem dropWhile_isSpace_cons {c : Char} {cs : List Char} (h : c.isDigit = true) :
    (c :: cs).dropWhile isSpace = c :: cs := by
  simp [dropWhile, isSpace_of_isDigit h]

theorem trimChars_eq_self {text : List Char} (hfirst : ∃ c cs, text = c :: cs ∧ c.isDigit = true)
    (hlast : ∃ ds d, text = ds ++ [d] ∧ d.isDigit = true) : trimChars text = text := by
  rcases hfirst with ⟨c, cs, hcons, hc⟩
  rcases hlast with ⟨ds, d, hconcat, hd⟩
  unfold trimChars
  have hdrop : text.dropWhile isSpace = text := by
    rw [hcons]
    exact dropWhile_isSpace_cons hc
  rw [hdrop, hconcat, reverse_append, reverse_singleton, singleton_append,
    dropWhile_isSpace_cons hd, reverse_cons, reverse_reverse]

theorem isDigit_of_mem_toDigits {n : Nat} {c : Char} (h : c ∈ toDigits 10 n) :
    c.isDigit = true :=
  Nat.isDigit_of_mem_toDigits (by omega) (by omega) h

theorem isDigit_of_mem_padFraction {n : Nat} {c : Char}
    (h : c ∈ padFraction (toDigits 10 n)) : c.isDigit = true := by
  rcases mem_append.mp h with hpad | hdigit
  · rw [eq_of_mem_replicate hpad]
    decide
  · exact isDigit_of_mem_toDigits hdigit

theorem length_padFraction {digits : List Char} (h : digits.length ≤ scale) :
    (padFraction digits).length = scale := by
  simp only [padFraction, length_append, length_replicate]
  omega

theorem bigInt_zeros (k : Nat) : bigInt (replicate k '0') = 0 := by
  induction k with
  | zero => rfl
  | succ k ih =>
    rw [bigInt, replicate_succ, ofDigitChars_cons]
    exact ih

theorem bigInt_padFraction (digits : List Char) : bigInt (padFraction digits) = bigInt digits := by
  rw [bigInt, padFraction, ofDigitChars_append, ← bigInt, bigInt_zeros, bigInt]

theorem takeWhile_digits {digits rest : List Char} (h : ∀ c ∈ digits, c.isDigit = true) :
    (digits ++ '.' :: rest).takeWhile isDigit = digits := by
  rw [takeWhile_append_of_pos h]
  simp [takeWhile, isDigit]

theorem dropWhile_digits {digits rest : List Char} (h : ∀ c ∈ digits, c.isDigit = true) :
    (digits ++ '.' :: rest).dropWhile isDigit = '.' :: rest := by
  rw [dropWhile_append_of_pos h]
  simp [dropWhile, isDigit]

theorem parseAmount_point {whole fraction : List Char} (hwhole : ∀ c ∈ whole, c.isDigit = true)
    (hne : whole ≠ []) (hfraction : ∀ c ∈ fraction, c.isDigit = true) (hne' : fraction ≠ []) :
    parseAmount (whole ++ '.' :: fraction) = some (whole, fraction) := by
  have hall : fraction.all isDigit = true := all_eq_true.mpr hfraction
  simp [parseAmount, takeWhile_digits hwhole, dropWhile_digits hwhole, hne, hne', hall]

def fractionText (units : Nat) : List Char :=
  padFraction (toDigits 10 (units % scaleFactor))

variable (units : Nat)

theorem length_fractionText : (fractionText units).length = scale := by
  apply length_padFraction
  rw [length_toDigits_le_iff (by omega) (by decide)]
  exact mod_lt units (by decide)

theorem fractionText_ne_nil : fractionText units ≠ [] := by
  intro h
  have hlen := length_fractionText units
  rw [h] at hlen
  exact absurd hlen (by decide)

theorem fractionDigits_fractionText : fractionDigits (fractionText units) = fractionText units := by
  rw [fractionDigits, length_fractionText, Nat.sub_self, replicate_zero,
    append_nil, take_of_length_le (le_of_eq (length_fractionText units))]

theorem toList_fromUnits : (fromUnits units).toList =
    toDigits 10 (units / scaleFactor) ++ '.' :: fractionText units := by
  rw [fromUnits, String.toList_ofList, fractionText]

theorem trimChars_fromUnits : trimChars (fromUnits units).toList = (fromUnits units).toList := by
  rw [toList_fromUnits]
  apply trimChars_eq_self
  · rcases exists_cons_of_ne_nil
      (toDigits_ne_nil (n := units / scaleFactor) (b := 10)) with ⟨c, cs, hcons⟩
    have hc : c ∈ toDigits 10 (units / scaleFactor) := by simp [hcons]
    exact ⟨c, cs ++ '.' :: _, by rw [hcons, cons_append], isDigit_of_mem_toDigits hc⟩
  · rcases eq_nil_or_concat' (fractionText units) with hnil | ⟨ds, d, hconcat⟩
    · exact absurd hnil (fractionText_ne_nil units)
    · have hd : d ∈ fractionText units := by simp [hconcat]
      refine ⟨toDigits 10 (units / scaleFactor) ++ '.' :: ds, d, ?_,
        isDigit_of_mem_padFraction hd⟩
      rw [hconcat, append_assoc, cons_append]

theorem parseAmount_fromUnits : parseAmount (trimChars (fromUnits units).toList) =
    some (toDigits 10 (units / scaleFactor), fractionText units) := by
  rw [trimChars_fromUnits, toList_fromUnits]
  exact parseAmount_point (fun _ => isDigit_of_mem_toDigits) toDigits_ne_nil
    (fun _ => isDigit_of_mem_padFraction) (fractionText_ne_nil units)

theorem bigInt_fractionText : bigInt (fractionText units) = units % scaleFactor := by
  rw [fractionText, bigInt_padFraction, bigInt, ofDigitChars_ten_toDigits]

/-- Printing a number of units and reading the text again gives the number. -/
theorem toUnits_fromUnits (kind : String) (units : Nat) :
    toUnits kind (fromUnits units) = .ok units := by
  simp only [toUnits, parseAmount_fromUnits, fractionDigits_fractionText, bigInt_fractionText]
  rw [bigInt, ofDigitChars_ten_toDigits, div_add_mod']

theorem normalizeAmount_ok {kind value text : String} (h : normalizeAmount kind value = .ok text) :
    ∃ units, toUnits kind value = .ok units ∧ text = fromUnits units := by
  unfold normalizeAmount at h
  rcases hunits : toUnits kind value with e | units
  · rw [hunits] at h
    cases h
  · rw [hunits] at h
    cases h
    exact ⟨units, rfl, rfl⟩

end Trellis.Reconciliation
