import AnchorLayout.Pass
import AnchorLayout.Scene

/-!
# Sessions

A session works on registries by commands: one registry at a time, with
builders that keep to the registry for which they were made. `Session.perform`
carries out a command; what a failed one has changed stays changed.

The axes that anchor names belong to are configured for the session as a whole.
A registry takes the configuration over when it is made, and later changes do
not reach it.

Each id that a session is given is marked with a number of its own
(`Session.receive`).
-/

namespace AnchorLayout

/-- Registries and builders at work. -/
structure Session where
  /-- The configuration that new registries take over. -/
  config : AxisConfig := .standard
  /-- The registries that were replaced, the latest first. -/
  replaced : List Registry := []
  registry : Registry := {}
  /-- The builders, each with the number of registries that had been replaced
      when it was made. -/
  builders : Table String (Builder × Nat) := []
  /-- The number of ids that have been marked. -/
  marks : Nat := 0

namespace Session

/-- What can be asked of a session. -/
inductive Command where
  /-- Replaces the registry, with a configuration of its own if one is given. -/
  | newRegistry (config : Option AxisConfig)
  /-- The configuration of the registry. -/
  | registryConfig
  /-- The configuration of the session. -/
  | sessionConfig
  /-- Sets the configuration of the session. -/
  | setConfig (config : AxisConfig)
  /-- A copy of the configuration of the session with other horizontal names. -/
  | editedConfig (horizontal : List String)
  | register (id : ShapeId) (members : Members)
  | registerShape (id : ShapeId) (record : ShapeRecord)
  | anchorsFor (id : ShapeId)
  | records
  | diagnostics
  | viewBox
  | setViewBox (v : Option ViewBox)
  | resolve (text : String) (self : Option ShapeId)
  | resolvePoint (text : String)
  | resolveOnAxis (text axis property : String) (id : ShapeId) (self : Option ShapeId)
  | checkEdges (id : ShapeId) (edges : Table String Float)
  | checkRotatedBounds (id : ShapeId) (corners : Value) (degrees : Float) (pivot : Point)
  | addDiagnostic (severity : String) (id : ShapeId) (message : String)
  | reset
  /-- Makes a builder for a shape. -/
  | newBuilder (name : String) (id : ShapeId)
  | value (builder : String) (raw : Value) (axis property : Option String)
  | optional (builder : String) (props : Members) (names : List String) (axis : Option String)
  | point (builder : String) (raw : Value) (property : Option String)
  | publishPartial (builder : String) (members : Members)
  | publish (builder : String) (members : Members)
  | warn (builder : String) (message : String)
  | checkBounds (builder : String) (bounds : Bounds)
  | checkTurned (builder : String) (corners : Value) (degrees : Float) (pivot : Point)
  | builder (name : String)
  /-- Realizes one shape of a kind. -/
  | realize (kind : String) (id : ShapeId) (props : Members)
  /-- A pass over shapes, with a table of kinds or the usual ones. -/
  | pass (shapes : List ShapeSpec) (viewBox : Option ViewBox) (table : Option RealizerTable)
  /-- A pass over the shapes of a scene. -/
  | scene (data : Value)
  | wholeState

/-- What a command answers. -/
inductive Answer where
  | nothing
  | config (c : AxisConfig)
  | anchors (as : Anchors)
  | records (rs : List ShapeRecord)
  | texts (ts : List String)
  | viewBox (v : Option ViewBox)
  | number (x : Option Float)
  | point (p : Point)
  | builder (b : Builder)
  | members (ms : Members)
  | registry (r : Registry)

/-- The registry that a builder was made for, `age` registries having been
    replaced before. -/
def registryOf (s : Session) (age : Nat) : Registry :=
  if age < s.replaced.length then s.replaced.reverse.getD age s.registry else s.registry

/-- The session with another state of that registry. -/
def setRegistryOf (s : Session) (age : Nat) (r : Registry) : Session :=
  if age < s.replaced.length then
    { s with replaced := (s.replaced.reverse.set age r).reverse }
  else { s with registry := r }

/-- An operation on the registry. -/
def onRegistry {α : Type} (a : Action Registry α) : Action Session α :=
  Action.zoom Session.registry (fun s r => { s with registry := r }) a

/-- An operation of a builder on its registry. -/
def onBuilder {α : Type} (name : String) (f : Builder → Action Registry α) :
    Action Session α := do
  match (← Action.read).builders.get? name with
  | none => throw (.missingKey name)
  | some (b, age) => Action.zoom (·.registryOf age) (·.setRegistryOf age) (f b)

/-- An operation of a builder that changes the builder. -/
def changeBuilder (name : String) (f : Builder → Action Registry Builder) :
    Action Session Unit := do
  let b ← onBuilder name f
  Action.change fun s => match s.builders.get? name with
    | some (_, age) => { s with builders := s.builders.insert name (b, age) }
    | none => s

/-- An id as it is given now. -/
def receive : ShapeId → Action Session ShapeId
  | .text s => return .text s
  | .datum v _ => do
    let mark := (← Action.read).marks
    Action.change fun s => { s with marks := mark + 1 }
    return .datum v mark

/-- Declared shapes with their ids as they are given now. -/
def receiveShapes : List ShapeSpec → Action Session (List ShapeSpec)
  | [] => return []
  | s :: rest => do
    let id ← receive s.id
    return { s with id } :: (← receiveShapes rest)

/-- The shape that an expression belongs to, if one is given. -/
def receiveSelf : Option ShapeId → Action Session Registry.SelfArgument
  | none => return .byPlace none
  | some id => return .byPlace (some (← receive id))

/-- Realizes a shape of a kind. -/
def realizeShape (kind : String) (id : ShapeId) (props : Members) : Action Registry Members :=
  match Shape.kinds.get? kind with
  | none => throw (.missingKey kind)
  | some run => do return (← run { id := id } props).2

/-- Carries out a command. -/
def perform : Command → Action Session Answer
  | .newRegistry config => do
    Action.change fun s =>
      { s with
        replaced := s.registry :: s.replaced
        registry := { config := config.getD s.config } }
    return .nothing
  | .registryConfig => do return .config (← Action.read).registry.config
  | .sessionConfig => do return .config (← Action.read).config
  | .setConfig config => do
    Action.change fun s => { s with config }
    return .nothing
  | .editedConfig horizontal => do return .config { (← Action.read).config with horizontal }
  | .register id members => do
    onRegistry (Registry.register (← receive id) members)
    return .nothing
  | .registerShape id record => do
    onRegistry (Registry.registerShape (← receive id) record)
    return .nothing
  | .anchorsFor id => do return .anchors (← onRegistry (Registry.anchorsFor (← receive id)))
  | .records => do return .records (← Action.read).registry.records
  | .diagnostics => do return .texts ((← Action.read).registry.diagnostics.map Diagnostic.text)
  | .viewBox => do return .viewBox (← Action.read).registry.viewBox
  | .setViewBox v => do
    onRegistry (Registry.setViewBox v)
    return .nothing
  | .resolve text self => do
    return .number (← onRegistry (Registry.resolve text (← receiveSelf self)))
  | .resolvePoint text => do return .point (← onRegistry (Registry.resolvePoint text))
  | .resolveOnAxis text axis property id self => do
    let id ← receive id
    let self ← receiveSelf self
    return .number (← onRegistry (Registry.resolveOnAxis text axis property id self))
  | .checkEdges id edges => do
    onRegistry (Registry.checkEdges (← receive id) edges)
    return .nothing
  | .checkRotatedBounds id corners degrees pivot => do
    onRegistry (Registry.checkRotatedBounds (← receive id) corners degrees pivot)
    return .nothing
  | .addDiagnostic severity id message => do
    onRegistry (Registry.addDiagnostic severity (← receive id) message)
    return .nothing
  | .reset => do
    onRegistry Registry.reset
    return .nothing
  | .newBuilder name id => do
    let id ← receive id
    Action.change fun s =>
      { s with builders := s.builders.insert name ({ id := id }, s.replaced.length) }
    return .nothing
  | .value builder raw axis property => do
    return .number (← onBuilder builder (·.value raw axis property))
  | .optional builder props names axis => do
    return .number (← onBuilder builder (·.optional props names axis))
  | .point builder raw property => do return .point (← onBuilder builder (·.point raw property))
  | .publishPartial builder members => do
    changeBuilder builder (·.publishPartial members)
    return .nothing
  | .publish builder members => do
    changeBuilder builder (·.publish members)
    return .nothing
  | .warn builder message => do
    onBuilder builder (·.warn message)
    return .nothing
  | .checkBounds builder bounds => do
    onBuilder builder (·.checkBounds bounds)
    return .nothing
  | .checkTurned builder corners degrees pivot => do
    onBuilder builder fun b => Registry.checkRotatedBounds b.id corners degrees pivot
    return .nothing
  | .builder name => do return .builder (← onBuilder name pure)
  | .realize kind id props => do
    return .members (← onRegistry (realizeShape kind (← receive id) props))
  | .pass shapes viewBox table => do
    return .records (← onRegistry (runPassWith (← receiveShapes shapes) viewBox table))
  | .scene data => do
    let scene ← Action.ofExcept (Scene.ofValue data)
    return .records (← onRegistry (runPass (← receiveShapes scene.shapes) scene.viewBox))
  | .wholeState => do return .registry (← Action.read).registry

end Session

end AnchorLayout
