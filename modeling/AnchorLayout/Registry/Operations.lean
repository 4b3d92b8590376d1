import AnchorLayout.Journal
import AnchorLayout.Registry.Basic
import AnchorLayout.Value.Points

/-!
# Operations on the registry

What a pass does with the registry: to publish anchors and record shapes, to
resolve expressions, to check bounds against the view box. Anchors change
through `register` alone, records through `registerShape`, the view box through
`setViewBox`; everything else can add diagnostics at most. The operations that
resolve something are traced.
-/

namespace AnchorLayout

namespace Registry

/-- How an operation of the registry is traced: without the registry itself,
    which comes first. -/
def tracing (operation : String) : Tracing where
  logger := "anchorscript.registry"
  name := "AnchorRegistry." ++ operation
  skipFirst := true

/-- Publishes the anchors of a shape in the place of all that it had. If one of
    the data is no anchor, nothing changes. -/
def register (id : ShapeId) (members : Members) : Action Registry Unit := do
  let as ← Action.ofExcept (Anchors.ofMembers id members)
  let key ← Action.ofExcept id.asKey
  Action.change fun r => { r with anchors := r.anchors.insert key as }
  Action.note (.registered members.length id)

/-- Records a shape. -/
def registerShape (id : ShapeId) (record : ShapeRecord) : Action Registry Unit := do
  let key ← Action.ofExcept id.asKey
  Action.change fun r => { r with shapes := r.shapes.insert key record }

/-- All anchors of a shape. -/
def anchorsFor (id : ShapeId) : Action Registry Anchors := do
  Action.ofExcept ((← Action.read).anchorsOf id)

/-- Adds a diagnostic. -/
def report (d : Diagnostic) : Action Registry Unit := do
  Action.change fun r => { r with diagnostics := r.diagnostics ++ [d] }
  Action.note (.diagnosed d)

/-- Adds a diagnostic of a severity that is given by name. -/
def addDiagnostic (severity : String) (id : ShapeId) (message : String) : Action Registry Unit :=
  match Severity.ofName? severity with
  | some severity => report ⟨severity, id, message⟩
  | none => throw (.invalidSeverity severity)

/-- Adds warnings on a shape, one after the other. -/
def warnAll (id : ShapeId) : List String → Action Registry Unit
  | [] => pure ()
  | message :: rest => do
    report ⟨.warning, id, message⟩
    warnAll id rest

/-- Sets the view box. -/
def setViewBox (v : Option ViewBox) : Action Registry Unit :=
  Action.change fun r => { r with viewBox := v }

/-- Forgets all shapes, anchors and diagnostics. -/
def reset : Action Registry Unit := Action.change cleared

/-! ## Resolution -/

/-- How the shape that an expression belongs to is handed to a call: by place,
    where a missing one shows as null, or by name. -/
inductive SelfArgument where
  | byPlace (id : Option ShapeId)
  | byName (id : ShapeId)

namespace SelfArgument

/-- The shape that the expression belongs to, if it belongs to one. -/
def id? : SelfArgument → Option ShapeId
  | .byPlace id => id.bind ShapeId.given?
  | .byName id => id.given?

/-- The argument as one given by place. -/
def placed : SelfArgument → List Argument
  | .byPlace id => [.id id]
  | .byName _ => []

/-- The argument as one given by name. -/
def named : SelfArgument → List (String × Argument)
  | .byPlace _ => []
  | .byName id => [("self_id", .id (some id))]

end SelfArgument

/-- The value of an expression. -/
def resolve (text : String) (self : SelfArgument) : Action Registry Float :=
  (tracing "resolve").call ([.registry, .text text] ++ self.placed) self.named
    (fun x => .value (.float x)) do
    Action.ofExcept ((← Action.read).valueOf self.id? text)

/-- The point that a bare reference stands for. -/
def resolvePoint (text : String) : Action Registry Point :=
  (tracing "resolve_point").call [.registry, .text text] [] (fun p => .value (.point p)) do
    Action.ofExcept ((← Action.read).pointOf text)

/-- The value of an expression for a property of a shape along an axis.
    References to anchors of the other axis are warned of, also if the value
    cannot be told. -/
def resolveOnAxis (text axis property : String) (id : ShapeId) (self : SelfArgument) :
    Action Registry Float :=
  (tracing "resolve_with_axis_check").call
    ([.registry, .text text, .text axis, .text property, .id (some id)] ++ self.placed) self.named
    (fun x => .value (.float x)) do
    let some axis := Axis.ofName? axis | throw (.invalidAxis axis)
    let e ← Action.ofExcept (expression text)
    warnAll id (mismatches (← Action.read).config axis property text e)
    Action.ofExcept ((← Action.read).evaluate self.id? e)

/-! ## Bounds -/

/-- Warns of the edges of a box that lie beyond the view box, if there is
    one. -/
def checkBounds (id : ShapeId) (b : Bounds) : Action Registry Unit := do
  match (← Action.read).viewBox with
  | none => pure ()
  | some v => warnAll id (outsideWarnings v b)

/-- Warns of the edges of a box that is given by its edges. Missing ones are an
    error only where there is a view box. -/
def checkEdges (id : ShapeId) (edges : Table String Float) : Action Registry Unit := do
  match (← Action.read).viewBox with
  | none => pure ()
  | some v => warnAll id (outsideWarnings v (← Action.ofExcept (Bounds.ofEdges edges)))

/-- The corners of a shape, each a point or, if all are, a number, of which two
    make a point. -/
def cornerPoints (id : ShapeId) (corners : List Value) : Except Failure (List Point) := do
  let as ← corners.mapM (Anchor.ofValue id "corner")
  (Value.list (as.map Anchor.toValue)).toPoints

/-- Warns of the edges of the box around points that are turned about a
    pivot. -/
def checkTurnedBounds (id : ShapeId) (ps : List Point) (degrees : Float) (pivot : Point) :
    Action Registry Unit := do
  let turned ← Action.ofExcept (Rotation.turn degrees pivot ps)
  checkBounds id (← Action.ofExcept (Bounds.ofPoints turned))

/-- Warns of the edges of the box around corners that are turned about a
    pivot. -/
def checkRotatedBounds (id : ShapeId) (corners : Value) (degrees : Float) (pivot : Point) :
    Action Registry Unit := do
  let some items := corners.items? | throw (.notIterable corners)
  checkTurnedBounds id (← Action.ofExcept (cornerPoints id items)) degrees pivot

end Registry

end AnchorLayout
