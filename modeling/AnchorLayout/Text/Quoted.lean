import AnchorLayout.Text.Printable

/-!
# Quoted texts

How a text is shown as a datum: between quotation marks, with the characters
that cannot be shown written as escapes. The mark is the single one, unless the
text holds that and no double one.
-/

namespace AnchorLayout.Text

/-- The single quotation mark. -/
def singleQuote : Char := Char.ofNat 39

/-- The double quotation mark. -/
def doubleQuote : Char := Char.ofNat 34

/-- The backslash, which begins an escape. -/
def backslash : Char := Char.ofNat 92

/-- A number in `width` lower-case hexadecimal digits at least. -/
def hex (width n : Nat) : List Char :=
  let ds := Nat.toDigits 16 n
  List.replicate (width - ds.length) '0' ++ ds

/-- A character as it is shown between marks `mark`. -/
def escape (mark c : Char) : List Char :=
  if c = mark ∨ c = backslash then [backslash, c]
  else if c = '\n' then [backslash, 'n']
  else if c = '\r' then [backslash, 'r']
  else if c = '\t' then [backslash, 't']
  else if isPrintable c then [c]
  else if c.toNat < 0x100 then backslash :: 'x' :: hex 2 c.toNat
  else if c.toNat < 0x10000 then backslash :: 'u' :: hex 4 c.toNat
  else backslash :: 'U' :: hex 8 c.toNat

/-- The mark that a text is quoted with. -/
def markFor (cs : List Char) : Char :=
  if cs.contains singleQuote && !cs.contains doubleQuote then doubleQuote else singleQuote

/-- The quoted form of a text. -/
def quoteChars (cs : List Char) : List Char :=
  let mark := markFor cs
  mark :: (cs.flatMap (escape mark) ++ [mark])

/-- The quoted form of a text. -/
def quote (s : String) : String := String.ofList (quoteChars s.toList)

end AnchorLayout.Text
