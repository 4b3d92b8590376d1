import AnchorLayout.Decimal.Binary

/-!
# Lengths

The length of a vector (`hypot`), in doubles that lose next to nothing. The
coordinates are scaled by the power of two that brings the greater one below
one, so that no square overflows. Each square is added as three products, which
have no rounding error unless they are far too small to count, and of each
product the part that the sum has no digits for is kept beside it
(`SquareSum`). The root of the sum is corrected once, by what the sum exceeds
the square of that root by.

Below `2 ^ (-1024)`, where the scale would be no double, the length is computed
from the ratios of the coordinates to the greater one (`tinyLength`).

Neither is always the double nearest to the length, so the order of the
operations is part of the result.
-/

namespace AnchorLayout.Decimal

/-- A double as the sum of two of at most 26 binary digits each, so that the
    product of two halves fits in a double. -/
def halves (x : Float) : Float × Float :=
  let t := x * 134217729
  let high := t - (t - x)
  (high, x - high)

/-- What is lost of `part` when it is added to a number that is no less. -/
def loss (total part : Float) : Float := total - (total + part) + part

/-- A sum of squares of numbers below one, as it is added up. -/
structure SquareSum where
  /-- The rounded sum. It starts from one, so that no part of a square is
      greater. -/
  total : Float
  /-- What was lost of the squares of the high halves. -/
  highLoss : Float
  /-- What was lost of the products of the high halves by the low ones. -/
  mixedLoss : Float
  /-- What was lost of the squares of the low halves. -/
  lowLoss : Float

namespace SquareSum

/-- The sum of no squares. -/
def zero : SquareSum := ⟨1, 0, 0, 0⟩

/-- The sum with the square of `x` times `sign`, which is one or minus one. -/
def plus (s : SquareSum) (sign x : Float) : SquareSum :=
  let (high, low) := halves x
  let p := sign * (high * high)
  let q := sign * (2 * high * low)
  let r := sign * (low * low)
  { total := s.total + p + q + r
    highLoss := s.highLoss + loss s.total p
    mixedLoss := s.mixedLoss + loss (s.total + p) q
    lowLoss := s.lowLoss + loss (s.total + p + q) r }

/-- The value of the sum, with what was lost. -/
def value (s : SquareSum) : Float := s.total - 1 + (s.highLoss + s.mixedLoss + s.lowLoss)

end SquareSum

/-- The power of two that takes a positive double into `[1/2, 1)`. It is finite
    for doubles from `2 ^ (-1024)` on. -/
def scale (x : Float) : Float :=
  let (num, den) := quotient x
  let e := binaryOrder num den + 1
  nearest false (Nat.pow 2 (-e).toNat) (Nat.pow 2 e.toNat)

/-- The length of the vector `(x, y)`, the coordinates of which are below
    one. -/
def unitLength (x y : Float) : Float :=
  let squares := (SquareSum.zero.plus 1 x).plus 1 y
  let root := squares.value.sqrt
  root + (squares.plus (-1) root).value / (2 * root)

/-- The length of the vector `(x, y)`, of which `size` is the greater
    coordinate. What is lost when the squares of the ratios are added is added
    in the end. -/
def tinyLength (x y size : Float) : Float :=
  let a := (x / size) * (x / size)
  let b := (y / size) * (y / size)
  size * (1 + a + b - 1 + (loss 1 a + loss (1 + a) b)).sqrt

/-- The place of `2 ^ (-1024)` among the doubles from zero upwards. -/
def tinyPlace : Nat := Nat.pow 2 50

/-- The length of the vector `(x, y)`. An infinite coordinate makes it infinite
    even if the other is no number. -/
def hypot (x y : Float) : Float :=
  if x.isInf || y.isInf then infinity
  else if x.isNaN || y.isNaN then notANumber
  else
    let greatest := max (place x) (place y)
    let size := ofPlace false greatest
    if greatest = 0 then 0
    else if greatest < tinyPlace then tinyLength x y size
    else unitLength (x * scale size) (y * scale size) / scale size

end AnchorLayout.Decimal
