import AnchorLayout.Decimal.Binary

/-!
# Decimal numbers

A decimal number is a sign and `coefficient · 10 ^ exponent`. Each is rounded
once to a double (`toFloat`); a number far outside the range of the doubles is
settled by its size alone, so that no text asks for a power of ten longer than
itself.
-/

namespace AnchorLayout

/-- The number `coefficient · 10 ^ exponent`, negated if `negative`. -/
structure Decimal where
  /-- Whether the number carries a minus sign. -/
  negative : Bool
  coefficient : Nat
  exponent : Int
  deriving DecidableEq, Repr

namespace Decimal

/-- The number of decimal digits of a natural number, of which zero has none. -/
def digitCount (n : Nat) : Nat :=
  if n = 0 then 0 else digitCount (n / 10) + 1
termination_by n
decreasing_by omega

/-- The magnitude as a quotient. -/
def toQuotient (d : Decimal) : Nat × Nat :=
  (d.coefficient * Nat.pow 10 d.exponent.toNat, Nat.pow 10 (-d.exponent).toNat)

/-- The double nearest to a decimal number, a half going to the even mantissa.
    Every positive number of `10 ^ 310` or more is infinite and every one below
    `10 ^ (-330)` is zero. -/
def toFloat (d : Decimal) : Float :=
  if d.coefficient = 0 then ofPlace d.negative 0
  else
    let size := (digitCount d.coefficient : Int) + d.exponent
    if 310 < size then ofPlace d.negative infinityPlace
    else if size < -330 then ofPlace d.negative 0
    else nearest d.negative d.toQuotient.1 d.toQuotient.2

/-- The number with no zeros at the end of its coefficient. -/
def trim (d : Decimal) : Decimal :=
  if d.coefficient ≠ 0 ∧ d.coefficient % 10 = 0 then
    trim { d with coefficient := d.coefficient / 10, exponent := d.exponent + 1 }
  else d
termination_by d.coefficient
decreasing_by show d.coefficient / 10 < d.coefficient; omega

end Decimal

end AnchorLayout
