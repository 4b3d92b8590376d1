import AnchorLayout.Builder
import AnchorLayout.Decimal.Length

/-!
# Kinds of shapes

A kind of shape is known by its realizer, which resolves the properties of a
shape, publishes its anchors and gives back the properties that the shape is
drawn with. Properties that are not part of the geometry of a kind are handed
on as they are.

* A dot is a single point.
* A circle has a radius and a centre, of which the radius is published first,
  so that the centre may refer to it.
* Each end of a line is given by a point or by two coordinates, of which the
  point has precedence.
* A rectangle is placed along each axis by any of its start, its end and its
  size (`span`). The width and then the height are published before the
  positions are read, so that these may refer to them. A rectangle may be
  turned about its centre; its anchors are those of the upright one.

A scene may use these four unless another choice is made (`kinds`).
-/

namespace AnchorLayout

/-- What a kind of shape does with the properties of a shape: the builder after
    its anchors have been published, and the properties that the shape is drawn
    with. -/
abbrev Realizer := Builder → Members → Action Registry (Builder × Members)

/-- The realizers of the kinds of shapes, by name. -/
abbrev RealizerTable := Table String Realizer

namespace Shape

/-- A number, or zero if there is none or it is the negative zero. -/
def orZero (x : Option Float) : Float :=
  match x with
  | some x => if x == 0 then 0 else x
  | none => 0

/-- Properties that are drawn, with the given ones that are not part of the
    geometry written over them. -/
def withOthers (drawn props : Members) (geometry : List String) : Members :=
  drawn.merge (props.filter fun p => !geometry.contains p.1)

/-- A pair of numbers as a datum. -/
def pair (x y : Float) : Value := .tuple [.float x, .float y]

/-! ## Dots -/

/-- The properties that place a dot. -/
def dotGeometry : List String := ["x", "y"]

/-- The anchors of a dot. -/
def dotAnchors (x y : Float) : Members :=
  [("x", .float x), ("y", .float y), ("centerX", .float x), ("centerY", .float y),
    ("center", pair x y)]

/-- Realizes a dot. -/
def dot : Realizer := fun b props => do
  let x := orZero (← b.optional props ["x"] (some "x"))
  let y := orZero (← b.optional props ["y"] (some "y"))
  let b ← b.publish (dotAnchors x y)
  b.checkBounds ⟨x, x, y, y⟩
  return (b, withOthers [("cx", .float x), ("cy", .float y)] props dotGeometry)

/-! ## Circles -/

/-- The properties that place a circle. -/
def circleGeometry : List String := ["centerX", "centerY", "r", "rotation"]

/-- The anchors of a circle. -/
def circleAnchors (cx cy r : Float) : Members :=
  [("centerX", .float cx), ("centerY", .float cy), ("r", .float r), ("left", .float (cx - r)),
    ("right", .float (cx + r)), ("top", .float (cy - r)), ("bottom", .float (cy + r)),
    ("width", .float (2 * r)), ("height", .float (2 * r)), ("center", pair cx cy)]

/-- Realizes a circle. -/
def circle : Realizer := fun b props => do
  let r := orZero (← b.optional props ["r"] none)
  let b ← b.publishPartial [("r", .float r)]
  let cx := orZero (← b.optional props ["centerX"] (some "x"))
  let cy := orZero (← b.optional props ["centerY"] (some "y"))
  let b ← b.publish (circleAnchors cx cy r)
  b.checkBounds ⟨cx - r, cx + r, cy - r, cy + r⟩
  return (b,
    withOthers [("cx", .float cx), ("cy", .float cy), ("r", .float r)] props circleGeometry)

/-! ## Lines -/

/-- The properties that place a line. -/
def lineGeometry : List String := ["x1", "y1", "x2", "y2", "from", "to"]

/-- The warning that coordinates are not needed beside a point. -/
def coordinatesIgnored (point x y : String) : String :=
  "Conflicting positioning: \"" ++ point ++ "\" overrides \"" ++ x ++ "\"/\"" ++ y ++ "\""

/-- An end of a line. -/
def lineEnd (b : Builder) (props : Members) (point x y : String) : Action Registry Point := do
  match props.given? point with
  | some v =>
    if (props.given? x).isSome || (props.given? y).isSome then
      b.warn (coordinatesIgnored point x y)
    b.point v (some point)
  | none =>
    let px := orZero (← b.optional props [x] (some "x"))
    let py := orZero (← b.optional props [y] (some "y"))
    return ⟨px, py⟩

/-- The anchors of a line. -/
def lineAnchors (p q : Point) : Members :=
  let mx := (p.x + q.x) / 2
  let my := (p.y + q.y) / 2
  let dx := q.x - p.x
  let dy := q.y - p.y
  [("startX", .float p.x), ("startY", .float p.y), ("endX", .float q.x), ("endY", .float q.y),
    ("start", pair p.x p.y), ("end", pair q.x q.y), ("length", .float (Decimal.hypot dx dy)),
    ("angle", .float (Float.atan2 dy dx * Rotation.degreesPerRadian)), ("midpoint", pair mx my),
    ("centerX", .float mx), ("centerY", .float my)]

/-- The lesser of two numbers, the first of them unless the second is less. -/
def lesser (a b : Float) : Float := if b < a then b else a

/-- The greater of two numbers, the first of them unless the second is
    greater. -/
def greater (a b : Float) : Float := if a < b then b else a

/-- Realizes a line. -/
def line : Realizer := fun b props => do
  let p ← lineEnd b props "from" "x1" "y1"
  let q ← lineEnd b props "to" "x2" "y2"
  let b ← b.publish (lineAnchors p q)
  b.checkBounds ⟨lesser p.x q.x, greater p.x q.x, lesser p.y q.y, greater p.y q.y⟩
  return (b, withOthers
    [("x1", .float p.x), ("y1", .float p.y), ("x2", .float q.x), ("y2", .float q.y)]
    props lineGeometry)

/-! ## Rectangles -/

/-- Where a shape starts and how long it is along an axis. -/
structure Extent where
  start : Float
  size : Float

/-- The warning that the end of a shape is not needed. -/
def endIgnored (start stop size : String) : String :=
  "Conflicting positioning: \"" ++ start ++ "\", \"" ++ stop ++ "\" and \"" ++ size ++
    "\" are all set; \"" ++ stop ++ "\" is ignored"

/-- The warning that the second of two names of a property is not needed. -/
def aliasIgnored (name other : String) : String :=
  "Conflicting positioning: \"" ++ name ++ "\" and \"" ++ other ++ "\" are both set; \"" ++ other ++
    "\" is ignored"

/-- The extent of a shape of which any of start, end and size are given. Start
    and size settle it; what is missing is zero. -/
def extent : (start stop size : Option Float) → Extent
  | some a, _, some n => ⟨a, n⟩
  | some a, some b, none => ⟨a, b - a⟩
  | some a, none, none => ⟨a, 0⟩
  | none, some b, some n => ⟨b - n, n⟩
  | none, some b, none => ⟨b - 0, 0⟩
  | none, none, some n => ⟨0, n⟩
  | none, none, none => ⟨0, 0⟩

/-- The extent of a shape, with a warning if more is given than is needed. -/
def span (b : Builder) (start stop size : Option Float) (names : String × String × String) :
    Action Registry Extent := do
  if start.isSome && stop.isSome && size.isSome then
    b.warn (endIgnored names.1 names.2.1 names.2.2)
  return extent start stop size

/-- The number that a property with two names stands for, with a warning if
    both are given. -/
def aliased (b : Builder) (props : Members) (name other axis : String) :
    Action Registry (Option Float) := do
  if (props.given? name).isSome && (props.given? other).isSome then
    b.warn (aliasIgnored name other)
  b.optional props [name, other] (some axis)

/-- Publishes a size as soon as it is known, with what else is known already. -/
def publishSize (b : Builder) (known : Members) (name : String) :
    Option Float → Action Registry Builder
  | some x => b.publishPartial (known.insert name (.float x))
  | none => pure b

/-- The properties that place a rectangle. -/
def rectGeometry : List String :=
  ["x", "left", "right", "width", "y", "top", "bottom", "height", "rotation"]

/-- The anchors of a rectangle. -/
def rectAnchors (h v : Extent) (rotation : Float) : Members :=
  let right := h.start + h.size
  let bottom := v.start + v.size
  let cx := h.start + h.size / 2
  let cy := v.start + v.size / 2
  [("left", .float h.start), ("right", .float right), ("top", .float v.start),
    ("bottom", .float bottom), ("width", .float h.size), ("height", .float v.size),
    ("centerX", .float cx), ("centerY", .float cy), ("center", pair cx cy),
    ("topLeft", pair h.start v.start), ("topRight", pair right v.start),
    ("bottomLeft", pair h.start bottom), ("bottomRight", pair right bottom),
    ("rotation", .float rotation)]

/-- Whether a shape is turned at all. -/
def isTurned (rotation : Float) : Bool := !(rotation == 0)

/-- The properties that a rectangle is drawn with. -/
def rectDrawn (h v : Extent) (rotation : Float) : Members :=
  let cx := h.start + h.size / 2
  let cy := v.start + v.size / 2
  [("x", .float h.start), ("y", .float v.start), ("width", .float h.size),
    ("height", .float v.size)] ++
  if isTurned rotation then
    [("transform", .text ("rotate(" ++ Decimal.plain rotation ++ ", " ++ Decimal.plain cx ++ ", " ++
      Decimal.plain cy ++ ")"))]
  else []

/-- Warns of the parts of a rectangle that lie beyond the view box. -/
def checkRect (b : Builder) (h v : Extent) (rotation : Float) : Action Registry Unit :=
  if isTurned rotation then
    Registry.checkTurnedBounds b.id (Bounds.corners h.start v.start h.size v.size) rotation
      ⟨h.start + h.size / 2, v.start + v.size / 2⟩
  else
    b.checkBounds ⟨h.start, h.start + h.size, v.start, v.start + v.size⟩

/-- Realizes a rectangle. -/
def rect : Realizer := fun b props => do
  let width ← b.optional props ["width"] (some "x")
  let b ← publishSize b [] "width" width
  let height ← b.optional props ["height"] (some "y")
  let b ← publishSize b b.published "height" height
  let left ← aliased b props "x" "left" "x"
  let right ← b.optional props ["right"] (some "x")
  let top ← aliased b props "y" "top" "y"
  let bottom ← b.optional props ["bottom"] (some "y")
  let rotation := orZero (← b.optional props ["rotation"] none)
  let h ← span b left right width ("x", "right", "width")
  let v ← span b top bottom height ("y", "bottom", "height")
  let b ← b.publish (rectAnchors h v rotation)
  checkRect b h v rotation
  return (b, withOthers (rectDrawn h v rotation) props rectGeometry)

/-! ## The kinds that a scene may use -/

/-- The kinds that a scene may use unless another choice is made. -/
def kinds : RealizerTable :=
  [("rect", rect), ("circle", circle), ("point", dot), ("line", line)]

end Shape

end AnchorLayout
