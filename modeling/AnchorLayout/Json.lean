import AnchorLayout.Decimal.Reading
import AnchorLayout.Failure

/-!
# JSON documents

The text format of scenes. Numbers with a point or an exponent are doubles, all
others integers of any size; `NaN`, `Infinity` and `-Infinity` are numbers too.
Of members with one name the first keeps its place and the last its value.
Control characters must be escaped in texts, and nothing but white space may
surround the document.
-/

namespace AnchorLayout.Json

/-- Whether a character may stand between the parts of a document. -/
def isSpace (c : Char) : Bool := c == ' ' || c == '\t' || c == '\n' || c == '\r'

/-- A document from its next part on. -/
def skip (cs : List Char) : List Char := cs.dropWhile isSpace

/-- What is left of a text after the word it begins with. -/
def dropWord? (word : String) (cs : List Char) : Option (List Char) :=
  if word.toList.isPrefixOf cs then some (cs.drop word.length) else none

/-!
## Depth

Reading has a number of levels at its disposal, of which each list and each
mapping takes one until it is closed. Most faults of a document take some too
before they can be told. Where a level is missing the document is nested too
deep, whatever else is wrong with it.
-/

/-- The levels that a document has. -/
def depthLimit : Nat := 991

/-- The levels that it takes to tell what is wrong with a text, a list or a
    mapping. -/
def faultDepth : Nat := 3

/-- What is wrong with a text, a list or a mapping, if `depth` levels are
    left. -/
def fault (depth : Nat) : Failure := if depth < faultDepth then .tooDeep else .malformedJson

/-! ## Texts -/

/-- The value of a hexadecimal digit. -/
def hexValue? (c : Char) : Option Nat :=
  if c.isDigit then some (c.toNat - 48)
  else if 'a' ≤ c ∧ c ≤ 'f' then some (c.toNat - 87)
  else if 'A' ≤ c ∧ c ≤ 'F' then some (c.toNat - 55)
  else none

/-- The four hexadecimal digits at the start of a text. -/
def hexUnit? : List Char → Option (Nat × List Char)
  | a :: b :: c :: d :: cs => do
    let a ← hexValue? a
    let b ← hexValue? b
    let c ← hexValue? c
    let d ← hexValue? d
    some (((a * 16 + b) * 16 + c) * 16 + d, cs)
  | _ => none

/-- The character of two surrogates. -/
def surrogatePair (high low : Nat) : Char :=
  Char.ofNat (0x10000 + (high - 0xD800) * 0x400 + (low - 0xDC00))

/-- The character of a code unit. A surrogate without its partner is the
    replacement character. -/
def unitChar (n : Nat) : Char :=
  if 0xD800 ≤ n ∧ n < 0xE000 then Char.ofNat 0xFFFD else Char.ofNat n

/-- The code unit of an escape at the start of a text. -/
def unitEscape? : List Char → Option (Nat × List Char)
  | '\\' :: 'u' :: cs => hexUnit? cs
  | _ => none

/-- The character that is escaped with `u` at the start of a text, two escapes
    if it is a pair. -/
def escapedUnit? (cs : List Char) : Option (Char × List Char) := do
  let (n, rest) ← hexUnit? cs
  if 0xD800 ≤ n ∧ n < 0xDC00 then
    match unitEscape? rest with
    | some (m, after) =>
      if 0xDC00 ≤ m ∧ m < 0xE000 then return (surrogatePair n m, after)
    | none => pure ()
  return (unitChar n, rest)

/-- The character that is escaped by a single letter. -/
def escapedLetter? : Char → Option Char
  | '"' => some '"'
  | '\\' => some '\\'
  | '/' => some '/'
  | 'b' => some '\x08'
  | 'f' => some '\x0c'
  | 'n' => some '\n'
  | 'r' => some '\r'
  | 't' => some '\t'
  | _ => none

/-- The next character of a text in quotation marks: none at its end. -/
def nextChar? : List Char → Option (Option Char × List Char)
  | [] => none
  | '"' :: cs => some (none, cs)
  | '\\' :: 'u' :: cs => (escapedUnit? cs).map fun r => (some r.1, r.2)
  | '\\' :: c :: cs => (escapedLetter? c).map fun d => (some d, cs)
  | c :: cs => if c.toNat < 32 then none else some (some c, cs)

/-- The characters of a text up to its closing mark, and what follows. -/
def textChars? : Nat → List Char → Option (List Char × List Char)
  | 0, _ => none
  | fuel + 1, cs => do
    match ← nextChar? cs with
    | (none, rest) => return ([], rest)
    | (some c, rest) =>
      let (ds, rest) ← textChars? fuel rest
      return (c :: ds, rest)

/-- The text of which the opening mark has been read, and what follows. -/
def readText (depth : Nat) (cs : List Char) : Except Failure (String × List Char) :=
  match textChars? (cs.length + 1) cs with
  | some (ds, rest) => .ok (String.ofList ds, rest)
  | none => .error (fault depth)

/-! ## Numbers -/

/-- The digits before the point of a number: zero alone, or digits of which the
    first is not zero. -/
def wholePart (cs : List Char) : List Char × List Char :=
  match cs with
  | '0' :: rest => (['0'], rest)
  | cs => (cs.takeWhile Char.isDigit, cs.dropWhile Char.isDigit)

/-- The digits after the point of a number, if a point with digits follows. -/
def fractionPart (cs : List Char) : Option (List Char) × List Char :=
  match cs with
  | '.' :: rest =>
    let ds := rest.takeWhile Char.isDigit
    if ds.isEmpty then (none, cs) else (some ds, rest.dropWhile Char.isDigit)
  | cs => (none, cs)

/-- The exponent of a number, if one with digits follows. -/
def exponentPart (cs : List Char) : Option Int × List Char :=
  match cs with
  | [] => (none, [])
  | c :: rest =>
    if c = 'e' ∨ c = 'E' then
      let (negative, rest) := Decimal.splitSign rest
      let ds := rest.takeWhile Char.isDigit
      if ds.isEmpty then (none, cs)
      else
        let n : Int := Decimal.digitsValue ds
        (some (if negative then -n else n), rest.dropWhile Char.isDigit)
    else (none, cs)

/-- The number at the start of a text, its sign having been read. -/
def readNumber (negative : Bool) (cs : List Char) : Except Failure (Value × List Char) :=
  let (whole, rest) := wholePart cs
  let (fraction, rest) := fractionPart rest
  let (exponent, rest) := exponentPart rest
  if whole.isEmpty then .error .malformedJson
  else if fraction.isSome || exponent.isSome then
    let d := Decimal.ofDigits negative whole (fraction.getD []) (exponent.getD 0)
    .ok (.float d.toFloat, rest)
  else if Decimal.digitLimit < whole.length then .error (.tooManyDigits whole.length)
  else
    let n : Int := Decimal.digitsValue whole
    .ok (.int (if negative then -n else n), rest)

/-! ## Documents -/

/-- The words that stand for a value. -/
def words : List (String × Value) := [("null", .null), ("true", .bool true), ("false", .bool false)]

/-- The words that stand for what no digits can write. They take a level. -/
def numberWords : List (String × Value) :=
  [("NaN", .float Decimal.notANumber), ("Infinity", .float Decimal.infinity),
    ("-Infinity", .float (-Decimal.infinity))]

/-- The word at the start of a text, as the value that it stands for. -/
def readWord? (words : List (String × Value)) (cs : List Char) : Option (Value × List Char) :=
  words.findSome? fun w => (dropWord? w.1 cs).map fun rest => (w.2, rest)

mutual

/-- The value at the start of a text, and what follows, if `depth` levels are
    left. -/
def readValue : (fuel depth : Nat) → List Char → Except Failure (Value × List Char)
  | 0, _, _ => .error .malformedJson
  | fuel + 1, depth, cs =>
    match readWord? words cs, readWord? numberWords cs with
    | some r, _ => .ok r
    | none, some r => if depth = 0 then .error .tooDeep else .ok r
    | none, none =>
      match cs, depth with
      | '"' :: rest, _ => do
        let (s, rest) ← readText depth rest
        return (.text s, rest)
      | '[' :: _, 0 => .error .tooDeep
      | '[' :: rest, depth + 1 =>
        match skip rest with
        | ']' :: rest => .ok (.list [], rest)
        | rest => do
          let (vs, rest) ← readItems fuel depth rest
          return (.list vs, rest)
      | '\x7b' :: _, 0 => .error .tooDeep
      | '\x7b' :: rest, depth + 1 =>
        match skip rest with
        | '\x7d' :: rest => .ok (.mapping [], rest)
        | rest => do
          let (ms, rest) ← readMembers fuel depth rest
          return (.mapping (Table.ofEntries ms), rest)
      | '-' :: rest, _ => readNumber true rest
      | cs, _ => readNumber false cs

/-- The items of a list up to its closing bracket, of which there is one at
    least. -/
def readItems : (fuel depth : Nat) → List Char → Except Failure (List Value × List Char)
  | 0, _, _ => .error .malformedJson
  | fuel + 1, depth, cs => do
    let (v, rest) ← readValue fuel depth cs
    match skip rest with
    | ',' :: rest =>
      let (vs, rest) ← readItems fuel depth (skip rest)
      return (v :: vs, rest)
    | ']' :: rest => return ([v], rest)
    | _ => throw (fault depth)

/-- The members of a mapping up to its closing brace, of which there is one at
    least. -/
def readMembers : (fuel depth : Nat) → List Char →
    Except Failure (List (String × Value) × List Char)
  | 0, _, _ => .error .malformedJson
  | fuel + 1, depth, cs =>
    match cs with
    | '"' :: rest => do
      let (k, rest) ← readText depth rest
      match skip rest with
      | ':' :: rest =>
        let (v, rest) ← readValue fuel depth (skip rest)
        match skip rest with
        | ',' :: rest =>
          let (ms, rest) ← readMembers fuel depth (skip rest)
          return ((k, v) :: ms, rest)
        | '\x7d' :: rest => return ([(k, v)], rest)
        | _ => throw (fault depth)
      | _ => throw (fault depth)
    | _ => .error (fault depth)

end

/-- The value of a document. Each step of reading takes a character away or is
    followed by one that does, so twice their number bounds the steps. -/
def parse (text : String) : Except Failure Value := do
  let cs := skip text.toList
  let (v, rest) ← readValue (2 * cs.length + 2) depthLimit cs
  if (skip rest).isEmpty then return v else throw .malformedJson

end AnchorLayout.Json
