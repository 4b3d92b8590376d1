import AnchorLayout.Value.Basic
import AnchorLayout.Decimal.Columns
import AnchorLayout.Text.Quoted
import AnchorLayout.Text.Rows

/-!
# How data are shown

The text that stands for a datum in messages: brackets by the kind of
collection, texts in quotation marks, doubles with a point or an exponent,
points and expressions with the names of their parts, arrays in rows and
columns.
-/

namespace AnchorLayout

/-- Texts joined by commas. -/
def commaJoin (ts : List String) : String := String.intercalate ", " ts

namespace Value

/-- The text of a tuple of shown items, of which a single one keeps its
    comma. -/
def tupleText : List String → String
  | [t] => "(" ++ t ++ ",)"
  | ts => "(" ++ commaJoin ts ++ ")"

/-- The most numbers that an array shows all of, and how many it shows at
    either end of a dimension if it has more. -/
def shownNumbers : Nat := 1000
def edgeNumbers : Nat := 3

/-- The rows of an array, in lines of `width` characters. The first bracket
    stands behind `indent - 1` characters, and numbers on a line are kept apart
    by a comma, or what stands for it, and a blank. -/
def arrayRows (comma : List Char) (indent width : Nat) (shape : List Nat) (data : List Float) :
    List Char :=
  let edge := if shownNumbers < data.length then some edgeNumbers else none
  let columns := Decimal.Columns.ofNumbers (Grid.corners edge shape data)
  if data.isEmpty then ['[', ']']
  else Text.bracketed columns.cell comma edge indent width shape data

/-- What is told of an array beside its rows, because they do not show it: its
    shape, if it has none or too many numbers, and its type, if it has none. -/
def arrayNotes (shape : List Nat) (data : List Float) : List String :=
  (if data.isEmpty && shape != [0] || shownNumbers < data.length then
    ["shape=" ++ tupleText (shape.map fun n => toString n)] else []) ++
  (if data.isEmpty then ["dtype=float64"] else [])

/-- The text of an array, in lines of 75 characters with what stands around its
    rows. Its notes follow on the last line if they have room there, else on a
    line of their own. -/
def arrayText (shape : List Nat) (data : List Float) : String :=
  let rows := "array(".toList ++ arrayRows [','] 7 74 shape data
  let notes := arrayNotes shape data
  if notes.isEmpty then String.ofList rows ++ ")"
  else
    let last := (rows.reverse.takeWhile (· != '\n')).length + 1
    let notes := commaJoin notes ++ ")"
    let gap := if 75 < last + notes.length + 1 then "\n      " else " "
    String.ofList rows ++ "," ++ gap ++ notes

/-- An array as part of a sentence: the number that it is, or its rows without
    commas. -/
def arrayPlain : List Nat → List Float → String
  | [], [x] => Decimal.literal x
  | shape, data => String.ofList (arrayRows [] 1 75 shape data)

/-- The text of an operation with its shown operands. -/
def operationText (symbol left right : String) : String :=
  "BinOp(op=" ++ Text.quote symbol ++ ", left=" ++ left ++ ", right=" ++ right ++ ")"

mutual

/-- The text that stands for a datum. -/
def display : Value → String
  | .null => "None"
  | .bool b => if b then "True" else "False"
  | .int n => toString n
  | .float x => Decimal.literal x
  | .text s => Text.quote s
  | .list items => "[" ++ commaJoin (displayItems items) ++ "]"
  | .tuple items => tupleText (displayItems items)
  | .point p => "Point(x=" ++ Decimal.literal p.x ++ ", y=" ++ Decimal.literal p.y ++ ")"
  | .mapping members => "\x7b" ++ commaJoin (displayMembers members) ++ "\x7d"
  | .expr e => displayExpr e
  | .array shape data => arrayText shape data

/-- The texts of the items of a collection. -/
def displayItems : List Value → List String
  | [] => []
  | v :: vs => display v :: displayItems vs

/-- The texts of the members of a mapping. -/
def displayMembers : List (String × Value) → List String
  | [] => []
  | (k, v) :: ms => (Text.quote k ++ ": " ++ display v) :: displayMembers ms

/-- The text of an expression, by its parts. -/
def displayExpr : Expr Value → String
  | .literal x => "Literal(value=" ++ Decimal.literal x ++ ")"
  | .ref id anchor => "Ref(id=" ++ Text.quote id ++ ", anchor=" ++ Text.quote anchor ++ ")"
  | .selfRef anchor => "SelfRef(anchor=" ++ Text.quote anchor ++ ")"
  | .binary op l r => operationText op.symbol.toString (displayExpr l) (displayExpr r)
  | .unknown s l r => operationText s (displayExpr l) (displayExpr r)
  | .foreign v => display v

end

/-- A datum as part of a sentence: a text as it is, an array by its numbers
    alone, all else as it is shown. -/
def plainText : Value → String
  | .text s => s
  | .array shape data => arrayPlain shape data
  | v => v.display

end Value

end AnchorLayout
