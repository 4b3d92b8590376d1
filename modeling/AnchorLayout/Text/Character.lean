/-!
# Blank characters and decimal digits

The characters of Unicode that count as white space. A text is cut into words
at all of them (`words`). Around a number the four separators `U+001C` to
`U+001F` do not count (`isMargin`, `trim`).

The decimal digits of Unicode come in runs of ten, from zero to nine
(`digitZeros` lists where each run starts). A number may be written with the
digits of any of them.
-/

namespace AnchorLayout.Text

/-! ## White space -/

/-- Whether a character is white space in Unicode, the information separators
    included. -/
def isBlank (c : Char) : Bool :=
  let n := c.toNat
  (0x09 ≤ n && n ≤ 0x0D) || (0x1C ≤ n && n ≤ 0x20) || n == 0x85 || n == 0xA0 || n == 0x1680 ||
    (0x2000 ≤ n && n ≤ 0x200A) || n == 0x2028 || n == 0x2029 || n == 0x202F || n == 0x205F ||
    n == 0x3000

/-- Whether a character may stand around a number. -/
def isMargin (c : Char) : Bool := isBlank c && !(0x1C ≤ c.toNat && c.toNat ≤ 0x1F)

/-- A text without the blanks that may stand around a number. -/
def trim (cs : List Char) : List Char :=
  ((cs.dropWhile isMargin).reverse.dropWhile isMargin).reverse

/-- The maximal runs of characters that are no separators, `current` being the
    run that has been entered, reversed. -/
def wordsFrom (separator : Char → Bool) (current : List Char) : List Char → List (List Char)
  | [] => if current.isEmpty then [] else [current.reverse]
  | c :: cs =>
    if separator c then
      if current.isEmpty then wordsFrom separator [] cs
      else current.reverse :: wordsFrom separator [] cs
    else wordsFrom separator (c :: current) cs

/-- The maximal runs of characters that are no separators, in order. -/
def words (separator : Char → Bool) (cs : List Char) : List (List Char) :=
  wordsFrom separator [] cs

/-! ## Digits -/

/-- The code points of the digits zero. -/
def digitZeros : List Nat :=
  [ 0x30, 0x660, 0x6F0, 0x7C0, 0x966, 0x9E6, 0xA66, 0xAE6, 0xB66, 0xBE6,
    0xC66, 0xCE6, 0xD66, 0xDE6, 0xE50, 0xED0, 0xF20, 0x1040, 0x1090, 0x17E0,
    0x1810, 0x1946, 0x19D0, 0x1A80, 0x1A90, 0x1B50, 0x1BB0, 0x1C40, 0x1C50, 0xA620,
    0xA8D0, 0xA900, 0xA9D0, 0xA9F0, 0xAA50, 0xABF0, 0xFF10, 0x104A0, 0x10D30, 0x11066,
    0x110F0, 0x11136, 0x111D0, 0x112F0, 0x11450, 0x114D0, 0x11650, 0x116C0, 0x11730, 0x118E0,
    0x11950, 0x11C50, 0x11D50, 0x11DA0, 0x16A60, 0x16AC0, 0x16B50, 0x1D7CE, 0x1D7D8, 0x1D7E2,
    0x1D7EC, 0x1D7F6, 0x1E140, 0x1E2F0, 0x1E950, 0x1FBF0 ]

/-- The value of a decimal digit of any script. -/
def digitValue? (c : Char) : Option Nat :=
  (digitZeros.find? fun z => z ≤ c.toNat && c.toNat ≤ z + 9).map (c.toNat - ·)

/-- A decimal digit of any script as an ASCII digit; other characters stay as
    they are. -/
def foldDigit (c : Char) : Char :=
  match digitValue? c with
  | some d => Char.ofNat (48 + d)
  | none => c

end AnchorLayout.Text
