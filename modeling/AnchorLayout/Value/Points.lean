import AnchorLayout.Geometry
import AnchorLayout.Value.Number

/-!
# Data as points

Points may be given as pairs in any arrangement: a list of pairs, a nest of
such lists, or a flat list of numbers. What counts is that the nest is
rectangular, not too deep, and holds an even number of numbers, which are then
taken two by two (`Value.toPoints`).
-/

namespace AnchorLayout

namespace Value

/-- The extent of what is put one upon the other, if all of it has one
    extent. -/
def stack? : List (List Nat) → Option (List Nat)
  | [] => some [0]
  | e :: es => if es.all (· == e) then some ((es.length + 1) :: e) else none

mutual

/-- The extent of a nest in each of its dimensions, if it is rectangular. -/
def extent? : Value → Option (List Nat)
  | .list items => do stack? (← extents? items)
  | .tuple items => do stack? (← extents? items)
  | .point _ => some [2]
  | .array shape _ => some shape
  | _ => some []

/-- The extents of data that are rectangular nests. -/
def extents? : List Value → Option (List (List Nat))
  | [] => some []
  | v :: vs => do
    let e ← extent? v
    let es ← extents? vs
    return e :: es

end

mutual

/-- The numbers of a nest, in order. What is missing is no number. -/
def numbers : Value → Except Failure (List Float)
  | .list items => numbersOf items
  | .tuple items => numbersOf items
  | .point p => .ok [p.x, p.y]
  | .array _ data => .ok data
  | .null => .ok [Decimal.notANumber]
  | v => do return [← v.toFloat]

/-- The numbers of data, in order. -/
def numbersOf : List Value → Except Failure (List Float)
  | [] => .ok []
  | v :: vs => do
    let xs ← numbers v
    let ys ← numbersOf vs
    return xs ++ ys

end

/-- Numbers taken two by two. -/
def pairs : List Float → Except Failure (List Point)
  | [] => .ok []
  | [_] => .error .raggedPoints
  | x :: y :: rest => (pairs rest).map (⟨x, y⟩ :: ·)

/-- The most dimensions that a nest of numbers may have. -/
def maxDimensions : Nat := 64

/-- The points that a datum stands for. Whether it is rectangular is looked at
    first. -/
def toPoints (v : Value) : Except Failure (List Point) :=
  match v.extent? with
  | some extent =>
    if maxDimensions < extent.length then .error .raggedPoints else do pairs (← v.numbers)
  | none => .error .raggedPoints

/-- The points that the items of a datum stand for together. -/
def itemPoints (v : Value) : Except Failure (List Point) :=
  match v.items? with
  | some items => (Value.list items).toPoints
  | none => .error (.notIterable v)

end Value

namespace Rotation

/-- The rotation by an angle in degrees. -/
def ofDegrees (degrees : Float) : Except Failure Rotation :=
  match ofDegrees? degrees with
  | some r => .ok r
  | none => .error .infiniteAngle

/-- Points turned about a pivot by an angle in degrees. -/
def turn (degrees : Float) (pivot : Point) (ps : List Point) : Except Failure (List Point) := do
  let r ← ofDegrees degrees
  return ps.map (r.apply pivot)

end Rotation

namespace Bounds

/-- The box around a list of points. -/
def ofPoints (ps : List Point) : Except Failure Bounds :=
  match ofPoints? ps with
  | some b => .ok b
  | none => .error .emptyPointSet

end Bounds

end AnchorLayout
