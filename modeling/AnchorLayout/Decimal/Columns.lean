import AnchorLayout.Decimal.Written

/-!
# Numbers in columns

The numbers of an array are written alike: with their points below each other,
and either all in positional form or all with an exponent
(`Columns.ofNumbers`). Each takes the fewest digits that read back, of which
eight at most stand after the point, the last of them rounded. An exponent is
written where a number is large, where one is small, or where one is much
larger than another; all numbers then have as many digits as the one that takes
most, and the further ones are those of their exact value.
-/

namespace AnchorLayout.Decimal

/-- The multiple of `10 ^ g` nearest to a finite double, a half going to the
    even multiple. -/
def roundAt (x : Float) (g : Int) : Decimal :=
  let (num, den) := quotient x
  trim ⟨isNegative x, roundDiv (num * Nat.pow 10 (-g).toNat) (den * Nat.pow 10 g.toNat), g⟩

/-- The fewest digits that read back, rounded where some of them stand below
    `10 ^ g`. -/
def shortestAt (x : Float) (g : Int) : Decimal :=
  let d := shortest x
  if g ≤ d.exponent then d else roundAt x g

/-- The parts of a written number: what stands before its point, with its sign,
    what stands after it, and its exponent if it is written with one. -/
structure Parts where
  whole : List Char
  fraction : List Char
  exponent : Int := 0

/-- The parts of a number in positional form. -/
def positionalParts (x : Float) : Parts :=
  let d := shortestAt x (-8)
  let cs := digits d.coefficient
  let (whole, fraction) := positional cs (cs.length + d.exponent)
  { whole := (signed d.negative whole).toList, fraction }

/-- The number of digits before the point of the exact value of a double. -/
def exactOrder (x : Float) : Int := decimalOrder (quotient x).1 (quotient x).2

/-- The parts of a decimal number in scientific form, with one digit before the
    point. -/
def scientific (d : Decimal) : Parts :=
  let cs := digits d.coefficient
  { whole := (signed d.negative (cs.take 1)).toList
    fraction := cs.drop 1
    exponent := if d.coefficient = 0 then 0 else cs.length + d.exponent - 1 }

/-- The parts of a number in scientific form, with as few digits as it takes. -/
def scientificParts (x : Float) : Parts := scientific (shortestAt x (exactOrder x - 9))

/-- The parts of the exact value of a number in scientific form, with up to `n`
    digits after the point. -/
def exactParts (n : Nat) (x : Float) : Parts := scientific (roundAt x (exactOrder x - 1 - n))

/-- How the numbers of an array are laid out. -/
structure Columns where
  /-- Whether they are written with exponents. -/
  scientific : Bool
  /-- The width of what stands before the point. -/
  left : Nat
  /-- The width of what stands after the point and before an exponent. -/
  right : Nat
  /-- The number of digits of an exponent. -/
  exponentDigits : Nat := 0

namespace Columns

/-- Whether numbers are written with exponents: if one is `10 ^ 8` or more, one
    other than zero is less than `10 ^ (-4)`, or one is more than a thousand
    times another. -/
def needExponents (xs : List Float) : Bool :=
  match (xs.filter fun x => !(x == 0)).map Float.abs with
  | [] => false
  | y :: ys =>
    let least := ys.foldl (fun a b => if b < a then b else a) y
    let greatest := ys.foldl (fun a b => if a < b then b else a) y
    1e8 ≤ greatest || least < 1e-4 || 1000 < greatest / least

/-- The greatest of some widths. -/
def widest (ns : List Nat) : Nat := ns.foldl max 0

/-- The width of an exponent with its letter and its sign, if exponents are
    written. -/
def exponentWidth (c : Columns) : Nat := if c.scientific then c.exponentDigits + 2 else 0

/-- The layout of finite numbers. -/
def ofFinite (xs : List Float) : Columns :=
  let scientific := needExponents xs
  let parts := xs.map (if scientific then scientificParts else positionalParts)
  { scientific
    left := widest (parts.map (·.whole.length))
    right := widest (parts.map (·.fraction.length))
    exponentDigits := max 2 (widest (parts.map fun p => (digits p.exponent.natAbs).length)) }

/-- The layout of numbers. Those that have no digits take no part in it, except
    that there must be room for them. -/
def ofNumbers (xs : List Float) : Columns :=
  let c := ofFinite (xs.filter Float.isFinite)
  let others := (xs.filter fun x => !x.isFinite).map fun x => (special x).length
  { c with left := max c.left (widest others - (c.right + c.exponentWidth + 1)) }

/-- The text of a number in its column. -/
def cell (c : Columns) (x : Float) : List Char :=
  if x.isFinite then
    let p := if c.scientific then exactParts c.right x else positionalParts x
    let filling := if c.scientific then '0' else ' '
    p.whole.leftpad c.left ' ' ++ '.' :: p.fraction.rightpad c.right filling ++
      if c.scientific then
        ['e', if p.exponent < 0 then '-' else '+'] ++
          (digits p.exponent.natAbs).leftpad c.exponentDigits '0'
      else []
  else (special x).toList.leftpad (c.left + c.right + c.exponentWidth + 1) ' '

end Columns

end AnchorLayout.Decimal
