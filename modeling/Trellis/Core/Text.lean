import Mathlib.Tactic.Positivity
import Mathlib.Data.List.DropRight

/-!
# JavaScript strings and optional values

The string operations and truth tests of the language that the modelled services
use.  Text is handled as its list of characters.
-/

namespace Trellis.Core

open List

/-- White space and line terminators, as `String.prototype.trim` removes them. -/
def isSpace (c : Char) : Bool :=
  c.toNat ∈ [0x09, 0x0a, 0x0b, 0x0c, 0x0d, 0x20, 0xa0, 0x1680, 0x2028, 0x2029, 0x202f,
    0x205f, 0x3000, 0xfeff] || (0x2000 ≤ c.toNat && c.toNat ≤ 0x200a)

def trimChars (cs : List Char) : List Char :=
  ((cs.dropWhile isSpace).reverse.dropWhile isSpace).reverse

def trim (s : String) : String :=
  String.ofList (trimChars s.toList)

theorem trim_trim (s : String) : trim (trim s) = trim s := by
  have hchars : ∀ cs, trimChars (trimChars cs) = trimChars cs := by
    intro cs
    have hfirst : trimChars cs <+: cs.dropWhile isSpace := rdropWhile_prefix _ _
    have hhead : (trimChars cs).dropWhile isSpace = trimChars cs := by
      refine dropWhile_eq_self_iff.mpr fun hpos => ?_
      rw [hfirst.getElem hpos]
      exact dropWhile_get_zero_not _ _ (hpos.trans_le hfirst.length_le)
    rw [trimChars, hhead]
    exact rdropWhile_idempotent _ _
  rw [trim, trim, String.toList_ofList, hchars]

def slicePrefix (n : Nat) (s : String) : String :=
  String.ofList (s.toList.take n)

def includes (s part : String) : Bool :=
  part.toList <:+: s.toList

/-- `s.length`: a character outside the basic plane counts twice. -/
def utf16Length (s : String) : Nat :=
  (s.toList.map fun c => if c.toNat < 0x10000 then 1 else 2).sum

/-- The whole characters in the first `n` code units. -/
def takeUnits : Nat → List Char → List Char
  | _, [] => []
  | n, c :: cs =>
    let units := if c.toNat < 0x10000 then 1 else 2
    if units ≤ n then c :: takeUnits (n - units) cs else []

/-- `s.slice(0, n)`, up to a character that the cut would split. -/
def sliceUnits (n : Nat) (s : String) : String :=
  String.ofList (takeUnits n s.toList)

theorem append_separator_inj {a a' s s' : List Char} {c : Char} (ha : c ∉ a) (ha' : c ∉ a')
    (h : a ++ c :: s = a' ++ c :: s') : a = a' ∧ s = s' := by
  rcases append_eq_append_iff.mp h with ⟨t, rfl, ht⟩ | ⟨t, rfl, ht⟩
  · cases t <;> simp_all
  · cases t <;> simp_all

/-- A nullable string is truthy when it is neither null nor empty. -/
def truthy : Option String → Bool
  | some s => s ≠ ""
  | none => false

@[simp]
theorem truthy_none : truthy none = false :=
  rfl

@[simp]
theorem truthy_some (s : String) : truthy (some s) = decide (s ≠ "") :=
  rfl

end Trellis.Core
