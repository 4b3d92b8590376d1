import AnchorLayout.Registry.Operations

/-!
# Builders

A builder is the view that one shape has of the registry while it is realized.
It reads the properties of the shape, resolving expressions with the shape as
what `$self` stands for, and publishes its anchors: first perhaps some of them,
so that the remaining properties can refer to these, then the final ones.
Either way what was published before is replaced as a whole.
-/

namespace AnchorLayout

/-- A shape that is being realized. -/
structure Builder where
  id : ShapeId
  /-- What has been published last, as it was given. -/
  published : Members := []
  /-- Whether the final anchors have been published. -/
  isFinal : Bool := false

namespace Members

/-- A property that is present and not null. -/
def given? (props : Members) (name : String) : Option Value :=
  match props.get? name with
  | some .null => none
  | v => v

end Members

namespace Builder

/-- The name of a property in messages. -/
def label (property : Option String) : String := property.getD "None"

/-- The name of a property in warnings, where an empty one does not count. -/
def warningLabel : Option String → String
  | none => "?"
  | some name => if name.isEmpty then "?" else name

/-- The number that a datum stands for: itself, or the value of an expression,
    whose references are checked against the axis if there is one. -/
def value (b : Builder) (raw : Value) (axis property : Option String) : Action Registry Float :=
  match raw with
  | .bool _ => throw (.truthProperty b.id (label property))
  | .int n => Action.ofExcept (Value.int n).toFloat
  | .float x => pure x
  | .text s =>
    match axis with
    | some axis => Registry.resolveOnAxis s axis (warningLabel property) b.id (.byName b.id)
    | none => Registry.resolve s (.byName b.id)
  | v => throw (.invalidProperty b.id (label property) v)

/-- The number that the first of several properties stands for that is given. -/
def optional (b : Builder) (props : Members) (names : List String) (axis : Option String) :
    Action Registry (Option Float) :=
  match names.find? fun name => (props.given? name).isSome with
  | none => pure none
  | some name => do
    return some (← b.value ((props.given? name).getD .null) axis (some name))

/-- The point of two data that stand for its coordinates. -/
def coordinates (b : Builder) (x y : Value) (property : Option String) :
    Action Registry Point := do
  let x ← b.value x (some "x") (some (label property ++ ".x"))
  let y ← b.value y (some "y") (some (label property ++ ".y"))
  return ⟨x, y⟩

/-- The point that a datum stands for: itself, a bare reference, a mapping of
    `x` and `y`, or a pair. -/
def point (b : Builder) (raw : Value) (property : Option String) : Action Registry Point :=
  match raw with
  | .point p => pure p
  | .text s => Registry.resolvePoint s
  | .list [x, y] => b.coordinates x y property
  | .tuple [x, y] => b.coordinates x y property
  | .mapping members =>
    match Table.get? members "x", Table.get? members "y" with
    | some x, some y => b.coordinates x y property
    | _, _ => throw (.notAPoint b.id (label property) raw)
  | _ => throw (.notAPoint b.id (label property) raw)

/-- Publishes the anchors that are known so far. -/
def publishPartial (b : Builder) (members : Members) : Action Registry Builder := do
  Registry.register b.id members
  return { b with published := members }

/-- Publishes the final anchors. -/
def publish (b : Builder) (members : Members) : Action Registry Builder := do
  let b ← b.publishPartial members
  return { b with isFinal := true }

/-- Adds a warning on the shape. -/
def warn (b : Builder) (message : String) : Action Registry Unit :=
  Registry.report ⟨.warning, b.id, message⟩

/-- Warns of the edges of the shape that lie beyond the view box. -/
def checkBounds (b : Builder) (bounds : Bounds) : Action Registry Unit :=
  Registry.checkBounds b.id bounds

end Builder

end AnchorLayout
