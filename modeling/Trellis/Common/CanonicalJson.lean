import Trellis.Core.Failure
import Trellis.Core.Json

/-!
# Canonical JSON

`canonicalJson` of `common/serialization/canonical-json.ts`: sorted keys, no white space, and an
error for everything that has no canonical text. Values have no holes and no cycles.
-/

namespace Trellis.Common

open Core

/-! ## Numbers -/

def isInteger (d : Decimal) : Bool :=
  d.digits % 10 ^ (-d.exponent).toNat = 0

def magnitude (d : Decimal) : Nat :=
  d.digits * 10 ^ d.exponent.toNat / 10 ^ (-d.exponent).toNat

def isSafeInteger (d : Decimal) : Bool :=
  isInteger d && magnitude d ≤ 2 ^ 53 - 1

def serializeNumber : Number → Except Failure (List Char)
  | .infinite _ | .nan => .error (.error "Canonical JSON numbers must be finite")
  | .finite d =>
    if isInteger d && !isSafeInteger d then
      .error (.error ("Canonical JSON integers must be safe integers; " ++
        "encode larger values as strings"))
    else .ok (numberText (.finite d))

/-! ## Values -/

mutual

def serialize : Value → Except Failure (List Char)
  | .null => .ok "null".toList
  | .bool true => .ok "true".toList
  | .bool false => .ok "false".toList
  | .str s => .ok (quote s)
  | .num n => serializeNumber n
  | .undefined => .error (.error "Unsupported canonical JSON value: undefined")
  | .arr items => do
      let texts ← serializeItems items
      .ok ('[' :: (commaSeparated texts ++ [']']))
  | .obj members => do
      let texts ← (sortMembers (serializeMembers members)).mapM fun m =>
        m.2.map (memberText m.1)
      .ok ('{' :: (commaSeparated texts ++ ['}']))

def serializeItems : List Value → Except Failure (List (List Char))
  | [] => .ok []
  | v :: vs => do
      let text ← serialize v
      let texts ← serializeItems vs
      .ok (text :: texts)

/-- The members of an object with their texts; the first error by key is thrown. -/
def serializeMembers : List (String × Value) → List (String × Except Failure (List Char))
  | [] => []
  | (key, .undefined) :: ms =>
    (key, .error (.error "Canonical JSON cannot contain undefined values")) :: serializeMembers ms
  | (key, v) :: ms => (key, serialize v) :: serializeMembers ms

end

def canonicalJson (v : Value) : Except Failure String :=
  (serialize v).map String.ofList

end Trellis.Common
