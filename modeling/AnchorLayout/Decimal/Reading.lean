import AnchorLayout.Decimal.Basic
import AnchorLayout.Text.Character

/-!
# Reading numbers

Two grammars of numbers. A *numeral* is what expressions hold: digits with at
most one point among them, and a sign in front where the expression allows one
(`ofNumeral`). A *number text* is what data may hold where a number is asked
for (`readFloat?`, `readInt?`): blanks around it, a sign, digits of any script
with single low lines between them, a point, an exponent, or one of the words
`inf`, `infinity` and `nan` in either case.
-/

namespace AnchorLayout.Decimal

/-- The value of a list of ASCII digits. -/
def digitsValue (ds : List Char) : Nat := ds.foldl (fun n d => 10 * n + (d.toNat - 48)) 0

/-- The number with these digits before and after the point, times a power of
    ten. -/
def ofDigits (negative : Bool) (whole fraction : List Char) (exponent : Int) : Decimal :=
  ⟨negative, digitsValue (whole ++ fraction), exponent - fraction.length⟩

/-- A sign in front of a number, and what follows it. -/
def splitSign : List Char → Bool × List Char
  | '-' :: cs => (true, cs)
  | '+' :: cs => (false, cs)
  | cs => (false, cs)

/-- The number that a numeral stands for. -/
def ofNumeral (text : List Char) : Decimal :=
  let (negative, cs) := splitSign text
  ofDigits negative (cs.takeWhile Char.isDigit) ((cs.dropWhile Char.isDigit).drop 1) 0

/-- The digits at the start of a text, without the low lines that may stand one
    by one between them, and what follows. -/
def digitRun : List Char → List Char × List Char
  | [] => ([], [])
  | c :: cs =>
    if c.isDigit then
      match cs with
      | '_' :: d :: more =>
        if d.isDigit then
          let (ds, rest) := digitRun (d :: more)
          (c :: ds, rest)
        else ([c], cs)
      | cs =>
        let (ds, rest) := digitRun cs
        (c :: ds, rest)
    else ([], c :: cs)

/-- The exponent that ends a number text, zero if there is none. -/
def exponent? : List Char → Option Int
  | [] => some 0
  | c :: cs =>
    if c = 'e' ∨ c = 'E' then
      let (negative, cs) := splitSign cs
      match digitRun cs with
      | ([], _) => none
      | (ds, []) => some (if negative then -(digitsValue ds : Int) else digitsValue ds)
      | _ => none
    else none

/-- The number of a text of digits with a point and an exponent. -/
def unsigned? (negative : Bool) (cs : List Char) : Option Decimal :=
  let (whole, rest) := digitRun cs
  let (fraction, rest) := match rest with
    | '.' :: rest => digitRun rest
    | rest => ([], rest)
  if whole.isEmpty && fraction.isEmpty then none
  else (exponent? rest).map (ofDigits negative whole fraction)

/-- A number text without the blanks around it and with ASCII digits. -/
def folded (s : String) : List Char := (Text.trim s.toList).map Text.foldDigit

/-- The double that a number text stands for. -/
def readFloat? (s : String) : Option Float :=
  let (negative, cs) := splitSign (folded s)
  let word := String.ofList (cs.map Char.toLower)
  if word == "inf" || word == "infinity" then some (ofPlace negative infinityPlace)
  else if word == "nan" then some notANumber
  else (unsigned? negative cs).map toFloat

/-- The most digits that are read as an integer. -/
def digitLimit : Nat := 4300

/-- The number of digits that an integer text begins with. -/
def integerDigits (s : String) : Nat := (digitRun (splitSign (folded s)).2).1.length

/-- The integer that a number text without point and exponent stands for. -/
def readInt? (s : String) : Option Int :=
  let (negative, cs) := splitSign (folded s)
  match digitRun cs with
  | ([], _) => none
  | (ds, []) => some (if negative then -(digitsValue ds : Int) else digitsValue ds)
  | _ => none

end AnchorLayout.Decimal
