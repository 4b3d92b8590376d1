/-!
# Doubles as binary fractions

A finite double is a sign and a magnitude `mantissa · 2 ^ exponent`
(`magnitude`). In the other direction, `nearest` gives the double next to a
quotient of natural numbers, a half going to the even mantissa. The doubles
from zero to infinity are numbered in order by their bits, which makes the last
step of `nearest` an addition: a mantissa that rounds up to the next power of
two carries into the exponent by itself.

Powers are those of `Nat.pow`, by name, whatever the sign for powers stands for
elsewhere.
-/

namespace AnchorLayout.Decimal

/-- Positive infinity. -/
def infinity : Float := Float.ofBits 0x7FF0000000000000

/-- The value that is no number. -/
def notANumber : Float := Float.ofBits 0x7FF8000000000000

/-- Whether the sign of a double is negative, which `-0.0` shows too. -/
def isNegative (x : Float) : Bool := Nat.pow 2 63 ≤ x.toBits.toNat

/-- The bits of a double without its sign: its place among the doubles from
    zero upwards. -/
def place (x : Float) : Nat := x.toBits.toNat % Nat.pow 2 63

/-- The place of infinity among the doubles from zero upwards. -/
def infinityPlace : Nat := 2047 * Nat.pow 2 52

/-- The magnitude of a finite double as `mantissa · 2 ^ exponent`. -/
def magnitude (x : Float) : Nat × Int :=
  let field : Nat := place x / Nat.pow 2 52
  let fraction : Nat := place x % Nat.pow 2 52
  if field = 0 then (fraction, -1074) else (fraction + Nat.pow 2 52, (field : Int) - 1075)

/-- The magnitude of a finite double as a quotient. -/
def quotient (x : Float) : Nat × Nat :=
  let (m, q) := magnitude x
  (m * Nat.pow 2 q.toNat, Nat.pow 2 (-q).toNat)

/-- The double of a place, with a sign. -/
def ofPlace (negative : Bool) (n : Nat) : Float :=
  Float.ofBits (UInt64.ofNat (if negative then Nat.pow 2 63 + n else n))

/-- A quotient rounded to the nearest natural number, a half to the even
    neighbour. -/
def roundDiv (num den : Nat) : Nat :=
  let q := num / den
  let r := num % den
  if 2 * r < den ∨ (2 * r = den ∧ q % 2 = 0) then q else q + 1

/-- The `e` for which a positive quotient lies in `[2 ^ e, 2 ^ (e + 1))`. -/
def binaryOrder (num den : Nat) : Int :=
  let e : Int := (num.log2 : Int) - (den.log2 : Int)
  if den * Nat.pow 2 e.toNat ≤ num * Nat.pow 2 (-e).toNat then e else e - 1

/-- The place of the double nearest to a quotient, a half going to the even
    mantissa. Quotients beyond the finite doubles are at infinity. -/
def nearestPlace (num den : Nat) : Nat :=
  if num = 0 then 0 else
    let e := max (binaryOrder num den - 52) (-1074)
    let m := roundDiv (num * Nat.pow 2 (-e).toNat) (den * Nat.pow 2 e.toNat)
    min ((e + 1074).toNat * Nat.pow 2 52 + m) infinityPlace

/-- The double nearest to a quotient, with a sign. -/
def nearest (negative : Bool) (num den : Nat) : Float :=
  ofPlace negative (nearestPlace num den)

/-- The integer that a double is, if it is one. -/
def toInt? (x : Float) : Option Int :=
  if infinityPlace ≤ place x then none else
    let (num, den) := quotient x
    if num % den = 0 then
      some (if isNegative x then -((num / den : Nat) : Int) else ((num / den : Nat) : Int))
    else none

/-- The double nearest to an integer, if the integer lies within the range of
    the doubles. -/
def ofInt? (n : Int) : Option Float :=
  if nearestPlace n.natAbs 1 < infinityPlace then some (nearest (n < 0) n.natAbs 1) else none

end AnchorLayout.Decimal
