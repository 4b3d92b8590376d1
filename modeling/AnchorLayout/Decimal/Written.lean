import AnchorLayout.Decimal.Shortest

/-!
# Numbers as they are written

Two written forms of a double, both made of the fewest digits that read back:

* `plain`, the form of expressions, reports and diagnostics: positional
  throughout, because the language of expressions has no exponents; a double
  that is an integer is written as that integer, with all its digits and
  without a point, so `-0.0` is `0`;
* `literal`, the form in which data are shown: always with a point or an
  exponent, the latter below `10 ^ (-4)` and from `10 ^ 16` on, with a sign and
  two digits at least.
-/

namespace AnchorLayout.Decimal

/-- The decimal digits of a natural number. -/
def digits (n : Nat) : List Char := Nat.toDigits 10 n

/-- The digits `cs` with a point after the first `point` of them, filled with
    zeros on either side; nothing stands after the point if the digits end
    before it. -/
def positional (cs : List Char) (point : Int) : List Char × List Char :=
  if point ≤ 0 then (['0'], List.replicate (-point).toNat '0' ++ cs)
  else if cs.length ≤ point.toNat then (cs ++ List.replicate (point.toNat - cs.length) '0', [])
  else (cs.take point.toNat, cs.drop point.toNat)

/-- The exponent of a number in scientific form. -/
def exponentText (e : Int) : List Char :=
  let ds := digits e.natAbs
  'e' :: (if e < 0 then '-' else '+') :: (List.replicate (2 - ds.length) '0' ++ ds)

/-- The digits `cs` with a point after the first, if more follow. -/
def withPoint : List Char → List Char
  | [] => []
  | [d] => [d]
  | d :: ds => d :: '.' :: ds

/-- A sign, as it is written before a magnitude. -/
def signed (negative : Bool) (cs : List Char) : String :=
  String.ofList (if negative then '-' :: cs else cs)

/-- The text of a value that has no digits. -/
def special (x : Float) : String :=
  if x.isNaN then "nan" else signed (isNegative x) ['i', 'n', 'f']

/-- The fewest digits that read back, with the number of them that stand before
    the point. -/
def shortestDigits (x : Float) : List Char × Int :=
  let d := shortest x
  let cs := digits d.coefficient
  (cs, cs.length + d.exponent)

/-- A double in positional form, an integer without a point. -/
def plain (x : Float) : String :=
  match toInt? x with
  | some n => signed (n < 0) (digits n.natAbs)
  | none =>
    if x.isFinite then
      let (cs, point) := shortestDigits x
      let (whole, fraction) := positional cs point
      signed (isNegative x) (whole ++ '.' :: fraction)
    else special x

/-- A double as data show it: positional from `10 ^ (-4)` up to `10 ^ 16`,
    elsewhere with an exponent. -/
def literal (x : Float) : String :=
  if x.isFinite then
    let (cs, point) := shortestDigits x
    if place x = 0 then signed (isNegative x) ['0', '.', '0']
    else if -4 < point ∧ point ≤ 16 then
      let (whole, fraction) := positional cs point
      signed (isNegative x) (whole ++ '.' :: (if fraction.isEmpty then ['0'] else fraction))
    else signed (isNegative x) (withPoint cs ++ exponentText (point - 1))
  else special x

end AnchorLayout.Decimal
