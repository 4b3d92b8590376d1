/-!
# Points, rotations and bounding boxes

Points of the plane, rotation about a pivot, and the box around a set of
points. Each coordinate is computed in the order written here, with every
operation rounded on its own.
-/

namespace AnchorLayout

/-- A point of the plane, the second coordinate growing downwards. -/
structure Point where
  x : Float
  y : Float
  deriving DecidableEq

/-- The edges of a box. -/
structure Bounds where
  left : Float
  right : Float
  top : Float
  bottom : Float

/-- The cosine and sine of an angle. -/
structure Rotation where
  cos : Float
  sin : Float

namespace Rotation

/-- The number of radians of a degree. -/
def radiansPerDegree : Float := Float.ofBits 0x3F91DF46A2529D39

/-- The number of degrees of a radian. -/
def degreesPerRadian : Float := Float.ofBits 0x404CA5DC1A63C1F8

/-- The rotation by an angle in degrees, which must not be infinite. -/
def ofDegrees? (degrees : Float) : Option Rotation :=
  let angle := degrees * radiansPerDegree
  if angle.isInf then none else some ⟨angle.cos, angle.sin⟩

/-- The rows of the matrix of a rotation. -/
def matrix (r : Rotation) : List (List Float) := [[r.cos, -r.sin], [r.sin, r.cos]]

/-- A point turned about a pivot. The sums begin with zero, so none of them is
    the negative zero. -/
def apply (r : Rotation) (pivot p : Point) : Point :=
  let dx := p.x - pivot.x
  let dy := p.y - pivot.y
  ⟨pivot.x + (0 + dx * r.cos + dy * -r.sin), pivot.y + (0 + dx * r.sin + dy * r.cos)⟩

end Rotation

namespace Bounds

/-- The lesser of two numbers, the second of them if they are equal, as the two
    zeros are. What is no number wins. -/
def least (a b : Float) : Float :=
  if a.isNaN then a else if b.isNaN then b else if a < b then a else b

/-- The greater of two numbers, the second of them if they are equal, as the
    two zeros are. What is no number wins. -/
def greatest (a b : Float) : Float :=
  if a.isNaN then a else if b.isNaN then b else if b < a then a else b

/-- The box around a point and a list of further points. -/
def around (p : Point) (ps : List Point) : Bounds where
  left := (ps.map Point.x).foldl least p.x
  right := (ps.map Point.x).foldl greatest p.x
  top := (ps.map Point.y).foldl least p.y
  bottom := (ps.map Point.y).foldl greatest p.y

/-- The box around a list of points, if there are any. -/
def ofPoints? : List Point → Option Bounds
  | [] => none
  | p :: ps => some (around p ps)

/-- The corners of an upright rectangle, clockwise from the left upper one. -/
def corners (left top width height : Float) : List Point :=
  let right := left + width
  let bottom := top + height
  [⟨left, top⟩, ⟨right, top⟩, ⟨right, bottom⟩, ⟨left, bottom⟩]

end Bounds

end AnchorLayout
