import AnchorLayout.Shape

/-!
# Passes

A pass realizes the shapes of a list one after the other in an empty registry.
A shape can refer to those before it only. Each is known by its declared id, or
by one made up of its kind and a count (`idFor`), and no two have the same. The
first failure ends the pass; what has been realized up to then stays in the
registry.
-/

namespace AnchorLayout

namespace Pass

/-- What a pass remembers of the shapes before the one at hand: how many of
    each kind had no id, and all ids. -/
structure Progress where
  counts : Table String Nat := []
  ids : List ShapeId := []

/-- The number of shapes of a kind without an id, the one at hand included. -/
def Progress.nextCount (p : Progress) (kind : String) : Nat := (p.counts.get? kind).getD 0 + 1

/-- The id of a shape, whether it is made up, and what is remembered of it. -/
def idFor (p : Progress) (s : ShapeSpec) : ShapeId × Bool × Progress :=
  if s.id.toValue.truth?.getD false then (s.id, false, p)
  else
    let n := p.nextCount s.kind
    (.text (s.kind ++ "-" ++ toString n), true, { p with counts := p.counts.insert s.kind n })

/-- Realizes a shape under its id. -/
def realize (run : Realizer) (kind : String) (id : ShapeId) (autoId : Bool) (props : Members) :
    Action Registry Unit := do
  let (b, drawn) ← run { id := id } props
  unless b.isFinal do throw (.notPublished kind id)
  Registry.registerShape id ⟨kind, id, autoId, drawn⟩
  Action.note (.realized kind id)

/-- Realizes a shape of a pass. -/
def step (table : RealizerTable) (p : Progress) (s : ShapeSpec) : Action Registry Progress := do
  let some run := table.get? s.kind | throw (.unknownKind s.kind)
  if let .array _ data := s.id.toValue then
    if s.id.toValue.truth?.isNone then throw (.noTruth data.length)
  let (id, autoId, p) := idFor p s
  let key ← Action.ofExcept id.asKey
  if p.ids.contains key then throw (.duplicateId id)
  realize run s.kind id autoId s.props
  return { p with ids := p.ids ++ [key] }

/-- Realizes shapes one after the other. -/
def steps (table : RealizerTable) (p : Progress) : List ShapeSpec → Action Registry Progress
  | [] => pure p
  | s :: rest => do steps table (← step table p s) rest

/-- Realizes shapes in an empty registry, with a new view box if there is
    one. -/
def run (table : RealizerTable) (shapes : List ShapeSpec) (viewBox : Option ViewBox) :
    Action Registry (List ShapeRecord) := do
  Registry.reset
  if viewBox.isSome then Registry.setViewBox viewBox
  let p ← steps table {} shapes
  let r ← Action.read
  Action.note (.completed p.ids.length r.diagnostics.length)
  return r.records

/-- How passes are traced: without the records that they give back. -/
def tracing : Tracing where
  logger := "anchorscript.scene"
  name := "run_pass"
  showResult := false

end Pass

/-- A pass over shapes with the usual kinds. -/
def runPass (shapes : List ShapeSpec) (viewBox : Option ViewBox) :
    Action Registry (List ShapeRecord) :=
  Pass.tracing.call [.registry, .specs shapes, .viewBox viewBox] [] (fun _ => .value .null)
    (Pass.run Shape.kinds shapes viewBox)

/-- A pass over shapes with a table of kinds, or the usual ones. -/
def runPassWith (shapes : List ShapeSpec) (viewBox : Option ViewBox)
    (table : Option RealizerTable) : Action Registry (List ShapeRecord) :=
  Pass.tracing.call
    [.registry, .specs shapes, .viewBox viewBox, .realizers (table.map Table.keys)] []
    (fun _ => .value .null) (Pass.run (table.getD Shape.kinds) shapes viewBox)

end AnchorLayout
