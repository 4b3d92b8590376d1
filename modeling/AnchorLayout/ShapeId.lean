import AnchorLayout.Value.Display

/-!
# Ids of shapes

A shape is known by its id. Nearly always that is a text (`text`), the only
kind of id that an expression can name; but any other datum may serve as one
(`datum`), such as a number. Whether two ids are the same is decided by their
values: the number one is the same id whether it is written as an integer, as a
double or as a truth value.

What is no number has no value to go by, and neither has an array, so there the
ids tell by a mark where they were given: a shape keeps to its id all the same,
and another that is no number either is another id.

Data that can change, lists and mappings and whatever holds one of them, may
stand for ids in messages, but nothing can be kept under them (`changeable?`).

A shape is declared by its kind, its id and its properties (`ShapeSpec`).
-/

namespace AnchorLayout

namespace Value

/-- The number that a datum is, if it is an integer in any form. -/
def integer? : Value → Option Int
  | .bool b => some (if b then 1 else 0)
  | .int n => some n
  | .float x => Decimal.toInt? x
  | _ => none

/-- Whether two doubles are the same number, `nan` telling whether what is no
    number is the same as itself. -/
def sameNumber (nan : Bool) (x y : Float) : Bool := x == y || (nan && x.isNaN && y.isNaN)

/-- Whether a datum is the number `x` in any form. -/
def isNumber (nan : Bool) (v : Value) (x : Float) : Bool :=
  match v with
  | .float y => sameNumber nan y x
  | v => v.integer?.isSome && v.integer? == Decimal.toInt? x

mutual

/-- Whether two data are the same, `nan` telling whether what has no value to
    go by is the same as itself. -/
def same (nan : Bool) : Value → Value → Bool
  | .text s, .text s' => s == s'
  | .null, .null => true
  | .tuple vs, .tuple ws => sameItems nan vs ws
  | .tuple [v, w], .point p => v.isNumber nan p.x && w.isNumber nan p.y
  | .point p, .tuple [v, w] => v.isNumber nan p.x && w.isNumber nan p.y
  | .point p, .point q => sameNumber nan p.x q.x && sameNumber nan p.y q.y
  | .list vs, .list ws => sameItems nan vs ws
  | .mapping ms, .mapping ns => ms.length == ns.length && sameMembers nan ns ms
  | .expr e, .expr e' => sameTree nan e e'
  | .float x, .float y => sameNumber nan x y
  | .array shape xs, .array shape' ys =>
    nan && shape == shape' && xs.length == ys.length &&
      (xs.zip ys).all fun p => sameNumber nan p.1 p.2
  | v, w =>
    match v.integer?, w.integer? with
    | some n, some k => n == k
    | _, _ => false

/-- Whether two lists of data are the same, item by item. -/
def sameItems (nan : Bool) : List Value → List Value → Bool
  | [], [] => true
  | v :: vs, w :: ws => same nan v w && sameItems nan vs ws
  | _, _ => false

/-- Whether members are the same in the mapping `ns`. -/
def sameMembers (nan : Bool) (ns : Members) : List (String × Value) → Bool
  | [] => true
  | (k, v) :: ms =>
    (match ns.get? k with
      | some w => same nan v w
      | none => false) && sameMembers nan ns ms

/-- Whether two expressions are the same. -/
def sameTree (nan : Bool) : Expr Value → Expr Value → Bool
  | .literal x, .literal y => sameNumber nan x y
  | .ref id anchor, .ref id' anchor' => id == id' && anchor == anchor'
  | .selfRef anchor, .selfRef anchor' => anchor == anchor'
  | .binary op l r, .binary op' l' r' => op == op' && sameTree nan l l' && sameTree nan r r'
  | .unknown s l r, .unknown s' l' r' => s == s' && sameTree nan l l' && sameTree nan r r'
  | .foreign v, .foreign w => same nan v w
  | _, _ => false

end

mutual

/-- The first part of a datum that can change, if there is one. -/
def changeable? : Value → Option Value
  | .list items => some (.list items)
  | .mapping members => some (.mapping members)
  | .array shape data => some (.array shape data)
  | .tuple items => changeableItem? items
  | .expr e => changeableLeaf? e
  | _ => none

/-- The first part of the items of a tuple that can change. -/
def changeableItem? : List Value → Option Value
  | [] => none
  | v :: vs => (changeable? v).or (changeableItem? vs)

/-- The first part of an expression that can change. -/
def changeableLeaf? : Expr Value → Option Value
  | .binary _ l r => (changeableLeaf? l).or (changeableLeaf? r)
  | .unknown _ l r => (changeableLeaf? l).or (changeableLeaf? r)
  | .foreign v => changeable? v
  | _ => none

end

end Value

/-- The id of a shape. -/
inductive ShapeId where
  | text (name : String)
  /-- A datum other than a text, with the mark of where it was given. -/
  | datum (v : Value) (mark : Nat)

namespace ShapeId

/-- The id that a datum is. -/
def ofDatum : Value → ShapeId
  | .text s => .text s
  | v => .datum v 0

/-- The datum that an id is. -/
def toValue : ShapeId → Value
  | .text s => .text s
  | .datum v _ => v

/-- The id, unless it is null: a shape can be kept under null, but as the shape
    that an expression belongs to, null stands for none. -/
def given? : ShapeId → Option ShapeId
  | .datum .null _ => none
  | id => some id

/-- Every text is an id, the empty one among them; only null stands for
    none. -/
@[simp] theorem given?_text (s : String) : (text s).given? = some (text s) := rfl

/-- Whether two ids are the same. -/
def same : ShapeId → ShapeId → Bool
  | .text s, .text s' => s == s'
  | .datum v mark, .datum w mark' => v.same (mark == mark') w
  | _, _ => false

instance : BEq ShapeId := ⟨same⟩

/-- The first part of an id that can change, if there is one. -/
def changeable? (id : ShapeId) : Option Value := id.toValue.changeable?

@[simp] theorem changeable?_text (s : String) : (text s).changeable? = none := rfl

/-- An id as it stands in a sentence. -/
def plainText (id : ShapeId) : String := id.toValue.plainText

/-- An id as it is shown as a datum. -/
def display (id : ShapeId) : String := id.toValue.display

end ShapeId

/-! ## Shapes as they are declared -/

/-- A shape as a scene declares it: its kind, its id, which is null for a shape
    without one, and its properties. -/
structure ShapeSpec where
  kind : String
  id : ShapeId
  props : Members

namespace ShapeSpec

/-- The text that stands for a declared shape in messages. -/
def display (s : ShapeSpec) : String :=
  "ShapeSpec(kind=" ++ Text.quote s.kind ++ ", id=" ++ s.id.display ++ ", props=" ++
    (Value.mapping s.props).display ++ ")"

/-- The most levels that the id and the properties of a shape may have for a
    log to show them. -/
def shownLevels : Nat := 981

/-- The text that stands for a declared shape in a log. One that has too many
    levels is told by an address of twelve digits, which are left open. -/
def logText (s : ShapeSpec) : String :=
  if shownLevels < max s.id.toValue.height (Value.mapping s.props).height then
    "<ShapeSpec instance at 0x000000000000>"
  else s.display

end ShapeSpec

end AnchorLayout
