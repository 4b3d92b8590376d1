import AnchorLayout.Expr.Basic
import AnchorLayout.Geometry
import AnchorLayout.Grid
import AnchorLayout.Table

/-!
# Values

The data that a scene and its callers hand over: what a property holds, what an
anchor is published with, what a call is traced with. Numbers come as integers
of any size and as doubles, and a mapping keeps the order of its members.
-/

namespace AnchorLayout

/-- A datum. -/
inductive Value where
  | null
  | bool (b : Bool)
  | int (n : Int)
  | float (x : Float)
  | text (s : String)
  | list (items : List Value)
  | tuple (items : List Value)
  | point (p : Point)
  | mapping (members : List (String × Value))
  | expr (e : Expr Value)
  /-- The numbers of an array of any number of dimensions, row by row. -/
  | array (shape : List Nat) (data : List Float)

/-- The properties of a shape, and whatever else is named by texts. -/
abbrev Members := Table String Value

namespace Value

/-- The name of the type of a datum. -/
def typeName : Value → String
  | .null => "NoneType"
  | .bool _ => "bool"
  | .int _ => "int"
  | .float _ => "float"
  | .text _ => "str"
  | .list _ => "list"
  | .tuple _ => "tuple"
  | .point _ => "Point"
  | .mapping _ => "dict"
  | .expr (.literal _) => "Literal"
  | .expr (.ref _ _) => "Ref"
  | .expr (.selfRef _) => "SelfRef"
  | .expr (.binary _ _ _) => "BinOp"
  | .expr (.unknown _ _ _) => "BinOp"
  | .expr (.foreign v) => v.typeName
  | .array _ _ => "numpy.ndarray"

/-- Whether a datum counts as given, if that can be said: zero, an empty text
    or list and the like do not. An array counts by its number, if it has a
    single one. -/
def truth? : Value → Option Bool
  | .null => some false
  | .bool b => some b
  | .int n => some (n != 0)
  | .float x => some !(x == 0)
  | .text s => some !s.isEmpty
  | .list items => some !items.isEmpty
  | .tuple items => some !items.isEmpty
  | .point _ => some true
  | .mapping members => some !members.isEmpty
  | .expr _ => some true
  | .array _ [x] => some !(x == 0)
  | .array _ _ => none

mutual

/-- The number of levels of a datum: its own, and those of the highest of its
    items or members. -/
def height : Value → Nat
  | .list items => heightOfItems items + 1
  | .tuple items => heightOfItems items + 1
  | .mapping members => heightOfMembers members + 1
  | _ => 1

/-- The number of levels of the highest of some data. -/
def heightOfItems : List Value → Nat
  | [] => 0
  | v :: vs => max (height v) (heightOfItems vs)

/-- The number of levels of the highest datum of some members. -/
def heightOfMembers : List (String × Value) → Nat
  | [] => 0
  | (_, v) :: ms => max (height v) (heightOfMembers ms)

end

/-- The rows of an array, down to its numbers. -/
def nest : List Nat → List Float → Value
  | [], data => .float (data.headD 0)
  | n :: shape, data => .list ((Grid.parts (Grid.count shape) n data).map (nest shape))

/-- The items that a datum can be gone through by, if it can. Those of an array
    are its rows, or its numbers if it is a single row. -/
def items? : Value → Option (List Value)
  | .list items => some items
  | .tuple items => some items
  | .text s => some (s.toList.map fun c => .text c.toString)
  | .mapping members => some (members.map fun m => .text m.1)
  | .point p => some [.float p.x, .float p.y]
  | .array [_] data => some (data.map .float)
  | .array (n :: shape) data => some ((Grid.parts (Grid.count shape) n data).map (.array shape))
  | _ => none

end Value

end AnchorLayout
