import Trellis.Core.Text
import Mathlib.Data.List.Sort

/-!
# JavaScript values and their JSON text

The values an `unknown` of the modelled services may be, as far as JSON can speak about them, and
their `JSON.stringify` texts. Members stand in the order of `Object.keys`.
-/

namespace Trellis.Core

open List Nat

/-! ## Values -/

/-- A finite number by its shortest decimal digits, `digits * 10 ^ exponent`. -/
structure Decimal where
  negative : Bool
  digits : Nat
  exponent : Int
deriving DecidableEq

inductive Number where
  | finite (decimal : Decimal)
  | infinite (negative : Bool)
  | nan
deriving DecidableEq

inductive Value where
  | undefined
  | null
  | bool (b : Bool)
  | num (n : Number)
  | str (s : String)
  | arr (items : List Value)
  | obj (members : List (String × Value))

namespace Value

def int (n : Int) : Value :=
  .num (.finite ⟨n < 0, n.natAbs, 0⟩)

/-- The items and the members of a value are smaller values. -/
theorem induct {P : Value → Prop} (hundefined : P .undefined) (hnull : P .null)
    (hbool : ∀ b, P (.bool b)) (hnum : ∀ n, P (.num n)) (hstr : ∀ s, P (.str s))
    (harr : ∀ items, (∀ v ∈ items, P v) → P (.arr items))
    (hobj : ∀ members, (∀ m ∈ members, P m.2) → P (.obj members)) (v : Value) : P v := by
  refine @Value.rec P (fun items => ∀ v ∈ items, P v) (fun members => ∀ m ∈ members, P m.2)
    (fun m => P m.2) hundefined hnull hbool hnum hstr harr hobj ?_ ?_ ?_ ?_ ?_ v
  · intro v hv
    cases hv
  · intro v vs hv hvs w hw
    rcases mem_cons.mp hw with rfl | hw
    · exact hv
    · exact hvs w hw
  · intro m hm
    cases hm
  · intro m ms hm hms m' hm'
    rcases mem_cons.mp hm' with rfl | hm'
    · exact hm
    · exact hms m' hm'
  · intro _ _ hv
    exact hv

/-- `value[key]` on an object; other values have no such property. -/
def get (v : Value) (key : String) : Value :=
  match v with
  | .obj members => ((members.find? (·.1 = key)).map Prod.snd).getD .undefined
  | _ => .undefined

def isNullish : Value → Bool
  | .undefined | .null => true
  | _ => false

def isTruthy : Value → Bool
  | .undefined | .null => false
  | .bool b => b
  | .num (.finite d) => d.digits ≠ 0
  | .num (.infinite _) => true
  | .num .nan => false
  | .str s => s ≠ ""
  | .arr _ | .obj _ => true

def typeOf : Value → String
  | .undefined => "undefined"
  | .null | .arr _ | .obj _ => "object"
  | .bool _ => "boolean"
  | .num _ => "number"
  | .str _ => "string"

def isArray : Value → Bool
  | .arr _ => true
  | _ => false

end Value

/-! ## Keys and `undefined` -/

mutual

/-- Whether the keys of every object in a value are distinct. -/
def wellKeyed : Value → Bool
  | .arr items => wellKeyedItems items
  | .obj members => (members.map Prod.fst).Nodup && wellKeyedMembers members
  | _ => true

def wellKeyedItems : List Value → Bool
  | [] => true
  | v :: vs => wellKeyed v && wellKeyedItems vs

def wellKeyedMembers : List (String × Value) → Bool
  | [] => true
  | (_, v) :: ms => wellKeyed v && wellKeyedMembers ms

end

theorem wellKeyedItems_iff {items : List Value} :
    wellKeyedItems items = true ↔ ∀ v ∈ items, wellKeyed v = true := by
  induction items with
  | nil => simp [wellKeyedItems]
  | cons v vs ih => simp [wellKeyedItems, ih]

variable {members : List (String × Value)}

theorem wellKeyedMembers_iff :
    wellKeyedMembers members = true ↔ ∀ m ∈ members, wellKeyed m.2 = true := by
  induction members with
  | nil => simp [wellKeyedMembers]
  | cons m ms ih =>
    obtain ⟨key, v⟩ := m
    simp [wellKeyedMembers, ih]

theorem wellKeyed_obj_iff : wellKeyed (.obj members) = true ↔
    (members.map Prod.fst).Nodup ∧ ∀ m ∈ members, wellKeyed m.2 = true := by
  rw [wellKeyed, Bool.and_eq_true, decide_eq_true_iff, wellKeyedMembers_iff]

mutual

/-- Whether `undefined` occurs nowhere in a value. -/
def isDefined : Value → Bool
  | .undefined => false
  | .arr items => definedItems items
  | .obj members => definedMembers members
  | _ => true

def definedItems : List Value → Bool
  | [] => true
  | v :: vs => isDefined v && definedItems vs

def definedMembers : List (String × Value) → Bool
  | [] => true
  | (_, v) :: ms => isDefined v && definedMembers ms

end

theorem definedItems_iff {items : List Value} :
    definedItems items = true ↔ ∀ v ∈ items, isDefined v = true := by
  induction items with
  | nil => simp [definedItems]
  | cons v vs ih => simp [definedItems, ih]

theorem definedMembers_iff :
    definedMembers members = true ↔ ∀ m ∈ members, isDefined m.2 = true := by
  induction members with
  | nil => simp [definedMembers]
  | cons m ms ih =>
    obtain ⟨key, v⟩ := m
    simp [definedMembers, ih]

/-! ## Numbers and strings -/

def exponentText (n : Int) : List Char :=
  'e' :: (if n < 0 then '-' else '+') :: toDigits 10 n.natAbs

/-- `Number::toString` of a number that is not negative. -/
def decimalText (d : Decimal) : List Char :=
  let s := toDigits 10 d.digits
  let n : Int := s.length + d.exponent
  if d.digits = 0 then ['0']
  else if s.length ≤ n ∧ n ≤ 21 then s ++ List.replicate d.exponent.toNat '0'
  else if 0 < n ∧ n ≤ 21 then s.take n.toNat ++ '.' :: s.drop n.toNat
  else if -6 < n ∧ n ≤ 0 then '0' :: '.' :: (List.replicate (-n).toNat '0' ++ s)
  else if s.length = 1 then s ++ exponentText (n - 1)
  else s.take 1 ++ '.' :: s.drop 1 ++ exponentText (n - 1)

/-- `JSON.stringify` of a number; one that is not finite becomes `null`. -/
def numberText : Number → List Char
  | .finite d => if d.negative ∧ d.digits ≠ 0 then '-' :: decimalText d else decimalText d
  | .infinite _ | .nan => "null".toList

def intText (n : Int) : List Char :=
  if n < 0 then '-' :: toDigits 10 n.natAbs else toDigits 10 n.natAbs

def numeral : List Char → Int
  | '-' :: digits => -(ofDigitChars 10 digits 0 : Int)
  | digits => ofDigitChars 10 digits 0

theorem numeral_intText (n : Int) : numeral (intText n) = n := by
  have hread : ofDigitChars 10 (toDigits 10 n.natAbs) 0 = n.natAbs :=
    ofDigitChars_toDigits (by decide) (by decide)
  unfold intText
  split
  · rw [numeral, hread]
    omega
  · have hdigits : numeral (toDigits 10 n.natAbs) =
        (ofDigitChars 10 (toDigits 10 n.natAbs) 0 : Int) := by
      have hminus : ∀ rest, toDigits 10 n.natAbs ≠ '-' :: rest := by
        intro rest hcons
        have hmem : '-' ∈ toDigits 10 n.natAbs := hcons ▸ mem_cons_self
        exact absurd (isDigit_of_mem_toDigits (by decide) (by decide) hmem) (by decide)
      unfold numeral
      split
      · exact absurd (by assumption) (hminus _)
      · rfl
    rw [hdigits, hread]
    omega

theorem colon_notMem_intText (n : Int) : ':' ∉ intText n := by
  have hdigits : ∀ m : Nat, ':' ∉ toDigits 10 m := by
    intro m hmem
    have hcolon := isDigit_of_mem_toDigits (b := 10) (n := m) (by decide) (by decide) hmem
    exact absurd hcolon (by decide)
  unfold intText
  split
  · intro hmem
    rcases mem_cons.mp hmem with hminus | hmem
    · exact absurd hminus (by decide)
    · exact hdigits _ hmem
  · exact hdigits _

def escapeChar (c : Char) : List Char :=
  if c = '"' then ['\\', '"']
  else if c = '\\' then ['\\', '\\']
  else if c.toNat = 8 then ['\\', 'b']
  else if c.toNat = 12 then ['\\', 'f']
  else if c.toNat = 10 then ['\\', 'n']
  else if c.toNat = 13 then ['\\', 'r']
  else if c.toNat = 9 then ['\\', 't']
  else if c.toNat < 32 then
    ['\\', 'u', '0', '0', digitChar (c.toNat / 16), digitChar (c.toNat % 16)]
  else [c]

def quote (s : String) : List Char :=
  '"' :: (s.toList.flatMap escapeChar ++ ['"'])

def commaSeparated : List (List Char) → List Char
  | [] => []
  | first :: rest => first ++ rest.flatMap (',' :: ·)

/-- `JSON.stringify` of a value that is no array and no object; `undefined` has no text. -/
def primitiveText : Value → Option (List Char)
  | .null => some "null".toList
  | .bool true => some "true".toList
  | .bool false => some "false".toList
  | .num n => some (numberText n)
  | .str s => some (quote s)
  | .undefined | .arr _ | .obj _ => none

/-- A value is `undefined`, has a text of its own, or is made of smaller values. -/
theorem Value.inductText {P : Value → Prop} (hundefined : P .undefined)
    (hprimitive : ∀ v text, primitiveText v = some text → P v)
    (harr : ∀ items, (∀ v ∈ items, P v) → P (.arr items))
    (hobj : ∀ members, (∀ m ∈ members, P m.2) → P (.obj members)) (v : Value) : P v := by
  induction v using Value.induct with
  | hundefined => exact hundefined
  | hnull => exact hprimitive _ _ rfl
  | hbool b => cases b <;> exact hprimitive _ _ rfl
  | hnum n => exact hprimitive _ _ rfl
  | hstr s => exact hprimitive _ _ rfl
  | harr items ih => exact harr items ih
  | hobj members ih => exact hobj members ih

def memberText (key : String) (text : List Char) : List Char :=
  quote key ++ ':' :: text

/-! ## `JSON.stringify` -/

mutual

/-- The text of a value; `undefined` has none. -/
def stringifyChars : Value → Option (List Char)
  | .arr items => some ('[' :: (commaSeparated (itemChars items) ++ [']']))
  | .obj members => some ('{' :: (commaSeparated (memberChars members) ++ ['}']))
  | v => primitiveText v

/-- The texts of items; `undefined` is written as `null`. -/
def itemChars : List Value → List (List Char)
  | [] => []
  | v :: vs => (stringifyChars v).getD "null".toList :: itemChars vs

/-- The texts of members; `undefined` is left out. -/
def memberChars : List (String × Value) → List (List Char)
  | [] => []
  | (key, v) :: ms =>
    match stringifyChars v with
    | some text => memberText key text :: memberChars ms
    | none => memberChars ms

end

def stringify (v : Value) : Option String :=
  (stringifyChars v).map String.ofList

/-! ## The order of keys -/

def codeUnits (c : Char) : List Nat :=
  if c.toNat < 0x10000 then [c.toNat]
  else [0xd800 + (c.toNat - 0x10000) / 0x400, 0xdc00 + (c.toNat - 0x10000) % 0x400]

/-- The order in which `sort()` puts two lists of code units. -/
def unitsLe : List Nat → List Nat → Bool
  | [], _ => true
  | _ :: _, [] => false
  | a :: as, b :: bs => a < b || (a = b && unitsLe as bs)

/-- The order in which `sort()` puts two members by their keys. -/
def KeyLe {α : Type} (m m' : String × α) : Prop :=
  unitsLe (m.1.toList.flatMap codeUnits) (m'.1.toList.flatMap codeUnits) = true

instance {α : Type} : DecidableRel (KeyLe (α := α)) :=
  fun _ _ => inferInstanceAs (Decidable (_ = true))

/-- `Object.keys(record).sort()`, with the values. -/
def sortMembers {α : Type} (members : List (String × α)) : List (String × α) :=
  members.insertionSort KeyLe

theorem sortMembers_map {α β : Type} (f : α → β) (members : List (String × α)) :
    sortMembers (members.map fun m => (m.1, f m.2)) =
      (sortMembers members).map fun m => (m.1, f m.2) :=
  (map_insertionSort KeyLe KeyLe (fun m : String × α => (m.1, f m.2)) members
    fun _ _ _ _ => Iff.rfl).symm

theorem mem_sortMembers {α : Type} {members : List (String × α)} {m : String × α} :
    m ∈ sortMembers members ↔ m ∈ members :=
  (perm_insertionSort KeyLe members).mem_iff

end Trellis.Core
