import AnchorLayout.ViewBox

/-!
# Scenes

A scene is a mapping with the list of its shapes and its view box, either of
which may be missing. A shape is a mapping in turn: its `type` is its kind, its
`id` its id, and all else are its properties, in their order.
-/

namespace AnchorLayout

/-- The shapes and the view box of a scene. -/
structure Scene where
  shapes : List ShapeSpec
  viewBox : Option ViewBox

namespace Scene

/-- The shape that a datum declares at a place of a scene. -/
def shape (index : Nat) : Value → Except Failure ShapeSpec
  | .mapping members =>
    match Table.get? members "type" with
    | some (.text kind) =>
      let props := Table.erase members "type"
      .ok ⟨kind, .ofDatum ((props.get? "id").getD .null), props.erase "id"⟩
    | _ => .error (.shapeWithoutKind index)
  | v => .error (.shapeNotMapping index v)

/-- The data that a list of shapes holds. The numbers of an array are no
    shapes. -/
def entries : Value → Except Failure (List Value)
  | .array [_] (x :: _) => .error (.shapeIsNumber 0 x)
  | listed =>
    match listed.items? with
    | some items => .ok items
    | none => .error (.notIterable listed)

/-- The shapes that data declare, from a place of a scene on. -/
def shapesFrom (index : Nat) : List Value → Except Failure (List ShapeSpec)
  | [] => .ok []
  | v :: vs => do
    let s ← shape index v
    let rest ← shapesFrom (index + 1) vs
    return s :: rest

/-- The scene that a datum is. The view box is looked at first. -/
def ofValue : Value → Except Failure Scene
  | .mapping members => do
    let viewBox ← match Table.get? members "viewBox" with
      | none | some .null => pure none
      | some v => some <$> ViewBox.ofValue v
    let listed := (Table.get? members "shapes").getD (.list [])
    return ⟨← shapesFrom 0 (← entries listed), viewBox⟩
  | v => .error (.sceneNotMapping v)

end Scene

end AnchorLayout
