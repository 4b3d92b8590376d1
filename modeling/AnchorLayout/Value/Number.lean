import AnchorLayout.Failure
import AnchorLayout.Decimal.Reading

/-!
# Data as numbers

How a datum becomes a double (`Value.toFloat`), and how it is written as a
number (`Value.numberText`). Integers, truth values and number texts count as
numbers.
-/

namespace AnchorLayout

namespace Value

/-- The double that a datum stands for. An array without dimensions stands for
    its number. -/
def toFloat : Value → Except Failure Float
  | .float x => .ok x
  | .int n =>
    match Decimal.ofInt? n with
    | some x => .ok x
    | none => .error .tooLarge
  | .bool b => .ok (if b then 1 else 0)
  | .text s =>
    match Decimal.readFloat? s with
    | some x => .ok x
    | none => .error (.notANumber s)
  | .array [] [x] => .ok x
  | .array _ _ => .error .arrayForNumber
  | v => .error (.noNumber v)

/-- The integer that a datum stands for whose value as a double is integral.
    How many digits a text begins with is looked at before what follows
    them. -/
def toInt (v : Value) (x : Float) : Except Failure Int :=
  match v with
  | .text s =>
    let count := Decimal.integerDigits s
    if Decimal.digitLimit < count then .error (.tooManyDigits count)
    else
      match Decimal.readInt? s with
      | some n => .ok n
      | none => .error (.notAnInteger s)
  | v => .ok ((v.integer?.or (Decimal.toInt? x)).getD 0)

/-- A datum written as a number: an integer with all its digits, any other
    number in positional form. -/
def numberText (v : Value) : Except Failure String := do
  let x ← v.toFloat
  match Decimal.toInt? x with
  | some _ => return toString (← v.toInt x)
  | none => return Decimal.plain x

end Value

end AnchorLayout
