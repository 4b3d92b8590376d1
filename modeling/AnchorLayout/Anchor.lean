import AnchorLayout.Value.Number

/-!
# Anchors

An anchor is a named number or point of a shape. Shapes publish their anchors
as data, which become anchors one by one (`Anchor.ofValue`).
-/

namespace AnchorLayout

/-- A number or a point that a shape offers to the shapes after it. -/
inductive Anchor where
  | number (x : Float)
  | point (p : Point)
  deriving DecidableEq

/-- The anchors of a shape, by name. -/
abbrev Anchors := Table String Anchor

namespace Anchor

/-- The point of two data that stand for numbers. -/
def ofCoordinates (x y : Value) : Except Failure Anchor := do
  let x ← x.toFloat
  let y ← y.toFloat
  return .point ⟨x, y⟩

/-- The anchor that a datum stands for: a point, a mapping of just `x` and `y`,
    a pair, or a number, which a truth value is not. The shape and the name are
    those that an error tells. -/
def ofValue (id : ShapeId) (name : String) : Value → Except Failure Anchor
  | .point p => .ok (.point p)
  | .list [x, y] => ofCoordinates x y
  | .tuple [x, y] => ofCoordinates x y
  | .int n => do return .number (← (Value.int n).toFloat)
  | .float x => .ok (.number x)
  | .mapping members =>
    match members, Table.get? members "x", Table.get? members "y" with
    | [_, _], some x, some y => ofCoordinates x y
    | _, _, _ => .error (.invalidAnchor id name (.mapping members))
  | v => .error (.invalidAnchor id name v)

/-- An anchor as a datum. -/
def toValue : Anchor → Value
  | .number x => .float x
  | .point p => .point p

/-- An anchor as a report writes it. -/
def text : Anchor → String
  | .number x => Decimal.plain x
  | .point p => "(" ++ Decimal.plain p.x ++ ", " ++ Decimal.plain p.y ++ ")"

end Anchor

namespace Anchors

/-- The anchors that published data stand for, name by name. The first datum
    that is none is the error. -/
def ofMembers (id : ShapeId) : Members → Except Failure Anchors
  | [] => .ok []
  | (name, v) :: rest => do
    let a ← Anchor.ofValue id name v
    let as ← ofMembers id rest
    return (name, a) :: as

end Anchors

end AnchorLayout
