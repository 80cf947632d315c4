import Trellis.Core.Json

/-!
# Comparing JavaScript numbers

The comparisons of the language on numbers that may be infinite or not a number.
-/

namespace Trellis.Core

/-- The decimal as a multiple of a power of ten that is not above its own. -/
def Decimal.scaled (d : Decimal) (exponent : Int) : Int :=
  (if d.negative then -1 else 1) * d.digits * 10 ^ (d.exponent - exponent).toNat

namespace Number

def ofInt (n : Int) : Number :=
  .finite ⟨n < 0, n.natAbs, 0⟩

def isFinite : Number → Bool
  | .finite _ => true
  | .infinite _ | .nan => false

def le : Number → Number → Bool
  | .nan, _ | _, .nan => false
  | .finite a, .finite b =>
    let exponent := min a.exponent b.exponent
    a.scaled exponent ≤ b.scaled exponent
  | .infinite negative, .finite _ => negative
  | .finite _, .infinite negative => !negative
  | .infinite negative, .infinite negative' => negative || !negative'

def lt (a b : Number) : Bool :=
  le a b && !le b a

def same (a b : Number) : Bool :=
  le a b && le b a

def max (a b : Number) : Number :=
  match a, b with
  | .nan, _ | _, .nan => .nan
  | a, b => if le a b then b else a

end Number

end Trellis.Core
