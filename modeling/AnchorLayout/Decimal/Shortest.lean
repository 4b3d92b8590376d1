import AnchorLayout.Decimal.Basic

/-!
# The fewest digits that read back

`shortest x` is the decimal number with the fewest digits that reads back as
the double `x`, and of those the one nearest to `x`. For each number of digits
only the two neighbours of `x` on that decimal grid can do: if a point of the
grid lies in the interval that rounds to `x`, so does one of them. Seventeen
digits always suffice; the exact expansion (`exact`) stands behind them, so
that the result reads back whatever happens.
-/

namespace AnchorLayout.Decimal

/-- The exact decimal expansion of a finite double. -/
def exact (x : Float) : Decimal :=
  let (m, q) := magnitude x
  if 0 ≤ q then ⟨isNegative x, m * Nat.pow 2 q.toNat, 0⟩
  else ⟨isNegative x, m * Nat.pow 5 (-q).toNat, q⟩

/-- The `e` for which a positive quotient lies in `[10 ^ (e - 1), 10 ^ e)`. -/
def decimalOrder (num den : Nat) : Int :=
  if den ≤ num then digitCount (num / den)
  else 1 - (digitCount ((den + num - 1) / num - 1) : Int)

/-- Whether a decimal number reads back as the double `x`. -/
def readsAs (d : Decimal) (x : Float) : Bool := d.toFloat.toBits == x.toBits

/-- The multiple of `10 ^ g` that reads back as `x` and is next to it. Of two
    that are equally far the one with the even coefficient is taken. -/
def onGrid (x : Float) (g : Int) : Option Decimal :=
  let (num, den) := quotient x
  let low := num * Nat.pow 10 (-g).toNat / (den * Nat.pow 10 g.toNat)
  let below : Decimal := ⟨isNegative x, low, g⟩
  let above : Decimal := ⟨isNegative x, low + 1, g⟩
  match below.readsAs x, above.readsAs x with
  | true, true =>
    match compare (2 * num * Nat.pow 10 (-g).toNat) ((2 * low + 1) * den * Nat.pow 10 g.toNat) with
    | .lt => some below
    | .gt => some above
    | .eq => some (if low % 2 = 0 then below else above)
  | true, false => some below
  | false, true => some above
  | false, false => none

/-- The decimal number with the fewest digits that reads back as a finite
    double. -/
def shortest (x : Float) : Decimal :=
  let (num, den) := quotient x
  if num = 0 then ⟨isNegative x, 0, 0⟩ else
    let order := decimalOrder num den
    (((List.range 17).findSome? fun (n : Nat) => onGrid x (order - (n + 1))).getD (exact x)).trim

end AnchorLayout.Decimal
