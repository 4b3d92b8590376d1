import AnchorLayout.Anchor
import AnchorLayout.Axis
import AnchorLayout.Diagnostic
import AnchorLayout.Expr.Evaluate
import AnchorLayout.Expr.Parser
import AnchorLayout.Geometry
import AnchorLayout.Reference
import AnchorLayout.ViewBox

/-!
# The registry

What is known of the shapes of a pass: the anchors that have been published,
the shapes that have been realized, the diagnostics, and the view box. This
module holds the state and the questions that are put to it; none of them
changes it.

An expression is resolved against the published anchors (`Registry.evaluate`),
where a reference to the shape itself stands for its id (`Registry.scalar`).
-/

namespace AnchorLayout

/-- A shape that has been realized, with the properties that it is drawn
    with. -/
structure ShapeRecord where
  kind : String
  id : ShapeId
  /-- Whether the id was made up, because none was declared. -/
  autoId : Bool
  props : Members

/-- The state of a pass. -/
structure Registry where
  config : AxisConfig := .standard
  anchors : Table ShapeId Anchors := []
  shapes : Table ShapeId ShapeRecord := []
  diagnostics : List Diagnostic := []
  viewBox : Option ViewBox := none

namespace Registry

/-- The shapes that have been realized, in the order of their first
    registration. -/
def records (r : Registry) : List ShapeRecord := r.shapes.map Prod.snd

/-- The registry without shapes, anchors and diagnostics. The view box stays. -/
def cleared (r : Registry) : Registry := { r with anchors := [], shapes := [], diagnostics := [] }

/-! ## Anchors -/

/-- All anchors of a shape. -/
def anchorsOf (r : Registry) (id : ShapeId) : Except Failure Anchors := do
  match r.anchors.get? (← id.asKey) with
  | some as => return as
  | none => throw (.noAnchors id)

/-- An anchor of a shape. -/
def anchor (r : Registry) (id : ShapeId) (name : String) : Except Failure Anchor := do
  match r.anchors.get? (← id.asKey) with
  | none => throw (.shapeNotFound id name)
  | some as =>
    match as.get? name with
    | none => throw (.anchorNotFound id name)
    | some a => return a

/-- An anchor of a shape that is a number. -/
def number (r : Registry) (id : ShapeId) (name : String) : Except Failure Float := do
  match ← r.anchor id name with
  | .number x => return x
  | .point _ => throw (.anchorIsPoint id name)

/-- An anchor of a shape that is a point. -/
def point (r : Registry) (id : ShapeId) (name : String) : Except Failure Point := do
  match ← r.anchor id name with
  | .point p => return p
  | .number _ => throw (.anchorIsNumber id name)

/-! ## Expressions -/

/-- The number that a reference stands for, `self` being the shape that the
    expression belongs to, if it belongs to one. -/
def scalar (r : Registry) (self : Option ShapeId) : Target → String → Except Failure Float
  | .shape id, name => r.number (.text id) name
  | .self, name =>
    match self with
    | some id => r.number id name
    | none => .error (.selfUnknown name)

/-- The value of an expression. -/
def evaluate (r : Registry) (self : Option ShapeId) (e : Expr Value) : Except Failure Float :=
  e.evaluate (fun flaw => .error (.notEvaluable flaw)) (r.scalar self)

/-- The expression of a text. -/
def expression (text : String) : Except Failure (Expr Value) :=
  match Expr.parse text with
  | .ok e => .ok e
  | .error e => .error (.misread e)

/-- The value of an expression that is given as a text. -/
def valueOf (r : Registry) (self : Option ShapeId) (text : String) : Except Failure Float := do
  r.evaluate self (← expression text)

/-- The point that a bare reference stands for. -/
def pointOf (r : Registry) (text : String) : Except Failure Point := do
  let ref ← Reference.ofText text
  r.point (.text ref.id) ref.anchor

/-! ## Warnings -/

/-- The warnings on an expression for a property along an axis: one for each
    reference, from left to right, whose anchor belongs to the other axis. -/
def mismatches (config : AxisConfig) (axis : Axis) (property text : String) (e : Expr Value) :
    List String :=
  e.anchors.filterMap fun anchor =>
    match config.axisOf anchor with
    | none => none
    | some other =>
      if other = axis then none
      else some ("Property \"" ++ property ++ "\" expects " ++ axis.withArticle ++
        " value but \"" ++ text ++ "\" uses " ++ other.name ++ "-axis anchor \"" ++ anchor ++ "\"")

/-- The warning on an edge that lies beyond that of the view box, whose name is
    `limitName`. -/
def edgeWarning (edge : String) (x : Float) (relation limitName : String) (limit : Float) :
    String :=
  edge ++ " edge (" ++ Decimal.plain x ++ ") " ++ relation ++ " viewBox (" ++ limitName ++ "=" ++
    Decimal.plain limit ++ ")"

/-- The warnings on a box that is not within the view box: at most one for each
    edge. -/
def outsideWarnings (v : ViewBox) (b : Bounds) : List String :=
  (if b.left < v.minX then [edgeWarning "Left" b.left "is outside" "minX" v.minX] else []) ++
  (if b.top < v.minY then [edgeWarning "Top" b.top "is outside" "minY" v.minY] else []) ++
  (if v.maxX < b.right then [edgeWarning "Right" b.right "extends beyond" "maxX" v.maxX] else []) ++
  (if v.maxY < b.bottom then [edgeWarning "Bottom" b.bottom "extends beyond" "maxY" v.maxY] else [])

end Registry

namespace Bounds

/-- An edge of a box that is given by its edges. -/
def edge (edges : Table String Float) (name : String) : Except Failure Float :=
  match edges.get? name with
  | some x => .ok x
  | none => .error (.missingKey name)

/-- The box of a table of its edges. -/
def ofEdges (edges : Table String Float) : Except Failure Bounds := do
  let left ← edge edges "left"
  let right ← edge edges "right"
  let top ← edge edges "top"
  let bottom ← edge edges "bottom"
  return ⟨left, right, top, bottom⟩

end Bounds

end AnchorLayout
