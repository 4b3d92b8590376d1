import AnchorLayout.Proofs.Pass.Step
import AnchorLayout.Proofs.Registry.Effects

/-!
# What is done to a registry

Builders, shapes and passes do to a registry what its operations do, and
nothing else. So a fact that holds of the operations, and of whatever is put
together from them, holds of all that is ever done to a registry. As for shapes
(`Realizing`), such a fact is a class of actions that is closed in this way
(`Registry.Operating`); then it has in it every question, every realizer and
every pass.

Where a fact holds of some calls only, it is enough for the course of a pass
that it holds of those that shapes make and of what the pass does between them
(`Registry.Driving`).

A pass can be given realizers of its own. Those work on the registry by means
of the builder that they are handed (`Realizer.ThroughBuilder`), as the usual
ones do.
-/

namespace AnchorLayout

open AnchorLayout.Action

/-- An event that tells of no fault. -/
def Event.IsRoutine (e : Event) : Prop := e.level = .debug ∨ e.level = .info

/-- A class of actions that has in it the operations on a registry that leave
    its anchors and its shapes alone, traced or not, and what is put together
    from such actions. -/
structure Registry.Keeping (D : ∀ ⦃α : Type⦄, Action Registry α → Prop) : Prop where
  pure : ∀ {α : Type} (x : α), D (pure x : Action Registry α)
  throw : ∀ {α : Type} (e : Failure), D (throw e : Action Registry α)
  bind : ∀ {α β : Type} {a : Action Registry α} {f : α → Action Registry β},
    D a → (∀ x, D (f x)) → D (a >>= f)
  call : ∀ {α : Type} {body : Action Registry α}, D body → ∀ t args named result,
    D (Tracing.call t args named result body)
  read : D Action.read
  note : ∀ e, e.IsRoutine → D (Action.note e)
  report : ∀ d, D (Registry.report d)
  setViewBox : ∀ v, D (Registry.setViewBox v)

/-- A class of actions that has in it the operations on a registry, traced or
    not, and what is put together from such actions. -/
structure Registry.Operating (D : ∀ ⦃α : Type⦄, Action Registry α → Prop) : Prop
    extends Registry.Keeping D where
  register : ∀ id members, D (Registry.register id members)
  reset : D Registry.reset

/-- A class of actions that has in it all that a shape does before it is
    recorded, what a pass does beside, and what is put together from such
    actions. -/
structure Registry.Driving (D : ∀ ⦃α : Type⦄, Action Registry α → Prop) : Prop where
  pure : ∀ {α : Type} (x : α), D (pure x : Action Registry α)
  throw : ∀ {α : Type} (e : Failure), D (throw e : Action Registry α)
  bind : ∀ {α β : Type} {a : Action Registry α} {f : α → Action Registry β},
    D a → (∀ x, D (f x)) → D (a >>= f)
  realizing : ∀ id, Realizing D (fun _ => True) id
  read : D Action.read
  realized : ∀ kind id, D (Action.note (.realized kind id))
  completed : ∀ shapes diagnostics, D (Action.note (.completed shapes diagnostics))
  setViewBox : ∀ v, D (Registry.setViewBox v)
  reset : D Registry.reset

/-- Shapes may be recorded under an id, as far as a class of actions goes. -/
def Registry.CanRecord (D : ∀ ⦃α : Type⦄, Action Registry α → Prop) (id : ShapeId) : Prop :=
  ∀ record, D (Registry.registerShape id record)

/-- A realizer that works on the registry through its builder: whatever holds
    of all that the builder offers, and of what is put together from it, holds
    of the realizer. -/
def Realizer.ThroughBuilder (run : Realizer) : Prop :=
  ∀ (C : ∀ ⦃α : Type⦄, Action Registry α → Prop) (b : Builder) (props : Members),
    Realizing C (fun _ => True) b.id → C (run b props)

/-- A table of such realizers. -/
def RealizerTable.ThroughBuilder (table : RealizerTable) : Prop :=
  ∀ ⦃kind run⦄, Table.get? table kind = some run → Realizer.ThroughBuilder run

/-- The usual realizers work through their builders. -/
theorem throughBuilder_kinds : RealizerTable.ThroughBuilder Shape.kinds :=
  fun _ _ hk _ _ props h => h.realizer hk props fun _ _ => trivial

/-- A table of such realizers, or the usual ones. -/
theorem throughBuilder_getD {table : Option RealizerTable}
    (h : ∀ t ∈ table, RealizerTable.ThroughBuilder t) :
    RealizerTable.ThroughBuilder (table.getD Shape.kinds) := by
  cases table with
  | none => exact throughBuilder_kinds
  | some t => exact h t rfl

/-! ## The course of a pass -/

namespace Registry.Driving

variable {D : ∀ ⦃α : Type⦄, Action Registry α → Prop} (h : Driving D)
include h

variable {table : RealizerTable}

/-- A shape is recorded after its realizer has published the final anchors. -/
theorem realize {run : Realizer} (hrun : run.ThroughBuilder) {id : ShapeId} (hid : CanRecord D id)
    (kind : String) (autoId : Bool) (props : Members) :
    D (Pass.realize run kind id autoId props) := by
  refine h.bind (hrun D { id := id } props (h.realizing id)) fun ⟨b, drawn⟩ => ?_
  have hend : D (do
      Registry.registerShape id ⟨kind, id, autoId, drawn⟩
      Action.note (.realized kind id)) :=
    h.bind (hid _) fun _ => h.realized _ _
  dsimp only
  split_ifs
  · exact hend
  · exact h.bind (h.throw _) fun _ => hend

/-- A shape that is refused does nothing to the registry. -/
theorem step (ht : RealizerTable.ThroughBuilder table) (p : Pass.Progress) {d : ShapeSpec}
    (hd : ∀ n, CanRecord D (d.idAs n)) : D (Pass.step table p d) := by
  rcases Pass.step_cases table p d with ⟨e, he⟩ | ⟨run, key, hk, -, -, he⟩ <;> rw [he]
  · exact h.throw e
  · rw [Pass.idFor_fst]
    exact h.bind (h.realize (ht hk) (hd _) _ _ _) fun _ => h.pure _

theorem steps (ht : RealizerTable.ThroughBuilder table) {shapes : List ShapeSpec}
    (hd : ∀ d ∈ shapes, ∀ n, CanRecord D (d.idAs n)) (p : Pass.Progress) :
    D (Pass.steps table p shapes) := by
  induction shapes generalizing p with
  | nil => exact h.pure p
  | cons d rest ih =>
    obtain ⟨hd, hrest⟩ := List.forall_mem_cons.1 hd
    exact h.bind (h.step ht p hd) fun p => ih hrest p

/-- A pass empties the registry before its first shape. -/
theorem run (ht : RealizerTable.ThroughBuilder table) {shapes : List ShapeSpec}
    (hd : ∀ d ∈ shapes, ∀ n, CanRecord D (d.idAs n)) (viewBox : Option ViewBox) :
    D (Pass.run table shapes viewBox) := by
  have hsteps : D (do
      let p ← Pass.steps table {} shapes
      let r ← Action.read
      Action.note (.completed p.ids.length r.diagnostics.length)
      return r.records : Action Registry (List ShapeRecord)) :=
    h.bind (h.steps ht hd {}) fun p => h.bind h.read fun r =>
      h.bind (h.completed _ _) fun _ => h.pure _
  refine h.bind h.reset fun _ => ?_
  split_ifs
  · exact h.bind (h.setViewBox _) fun _ => hsteps
  · exact hsteps

end Registry.Driving

/-! ## What leaves the shapes alone -/

namespace Registry.Keeping

variable {D : ∀ ⦃α : Type⦄, Action Registry α → Prop} {α : Type} (h : Keeping D)
include h

theorem ofExcept (r : Except Failure α) : D (Action.ofExcept r : Action Registry α) := by
  cases r with
  | ok x => exact h.pure x
  | error e => exact h.throw e

/-- A question that is put to the registry. -/
theorem ask (f : Registry → Except Failure α) :
    D (do Action.ofExcept (f (← Action.read)) : Action Registry α) :=
  h.bind h.read fun _ => h.ofExcept _

/-! ### Operations that are put together from others -/

/-- Warnings are added one after the other. -/
theorem warnAll (id : ShapeId) (messages : List String) : D (Registry.warnAll id messages) := by
  induction messages with
  | nil => exact h.pure ()
  | cons message rest ih => exact h.bind (h.report _) fun _ => ih

/-- A diagnostic of a severity that there is not is refused. -/
theorem addDiagnostic (severity : String) (id : ShapeId) (message : String) :
    D (Registry.addDiagnostic severity id message) := by
  unfold Registry.addDiagnostic
  split
  · exact h.report _
  · exact h.throw _

theorem resolve (text : String) (self : SelfArgument) : D (Registry.resolve text self) :=
  h.call (h.ask _) _ _ _ _

theorem resolvePoint (text : String) : D (Registry.resolvePoint text) :=
  h.call (h.ask _) _ _ _ _

/-- An expression for an axis warns of its references before it is evaluated. -/
theorem resolveOnAxis (text axis property : String) (id : ShapeId) (self : SelfArgument) :
    D (Registry.resolveOnAxis text axis property id self) := by
  obtain ⟨t, args, named, result, body, he, hbody⟩ :=
    Registry.resolveOnAxis_cases text axis property id self
  rw [he]
  refine h.call ?_ t args named result
  obtain ⟨e, -, rfl⟩ | ⟨e, known, -, rfl⟩ := hbody
  · exact h.throw e
  · exact h.bind (h.bind h.read fun _ => h.warnAll _ _) fun _ => h.ask _

/-- A check against the view box does no more than warn. -/
theorem checkBounds (id : ShapeId) (b : Bounds) : D (Registry.checkBounds id b) := by
  refine h.bind h.read fun r => ?_
  cases r.viewBox with
  | none => exact h.pure ()
  | some v => exact h.warnAll _ _

/-- Where there is a view box, an edge that is missing is a failure before any
    warning. -/
theorem checkEdges (id : ShapeId) (edges : Table String Float) :
    D (Registry.checkEdges id edges) := by
  refine h.bind h.read fun r => ?_
  cases r.viewBox with
  | none => exact h.pure ()
  | some v => exact h.bind (h.ofExcept _) fun _ => h.warnAll _ _

/-- All that a shape does before it publishes its anchors. -/
theorem reading (id : ShapeId) : Reading D (fun _ => True) id where
  pure := h.pure
  throw := h.throw
  bind := h.bind
  report _ := h.report _
  checkBounds b := h.checkBounds id b
  resolve text _ := h.resolve text _
  resolveOnAxis text axis property _ := h.resolveOnAxis text axis property id _
  resolvePoint text _ := h.resolvePoint text

/-- Corners that are no points are refused before anything is checked. -/
theorem checkRotatedBounds (id : ShapeId) (corners : Value) (degrees : Float) (pivot : Point) :
    D (Registry.checkRotatedBounds id corners degrees pivot) := by
  unfold Registry.checkRotatedBounds
  cases corners.items? with
  | none => exact h.throw _
  | some items =>
    exact h.bind (h.ofExcept _) fun _ => (h.reading id).check (Shape.isCheck_turned ..)

end Registry.Keeping

/-! ## All that is done -/

namespace Registry.Operating

variable {D : ∀ ⦃α : Type⦄, Action Registry α → Prop} {α : Type} (h : Operating D)
include h

/-- All that a shape does before it is recorded. -/
theorem realizing (id : ShapeId) : Realizing D (fun _ => True) id where
  toReading := h.reading id
  register members := h.register id members

theorem publishPartial (b : Builder) (members : Members) : D (b.publishPartial members) :=
  h.bind (h.register _ _) fun _ => h.pure _

/-- Final anchors are published as any others are; that they are final is known
    to the builder only. -/
theorem publish (b : Builder) (members : Members) : D (b.publish members) :=
  h.bind (h.publishPartial _ _) fun _ => h.pure _

/-- Whatever holds of all operations holds of those between the shapes of a
    pass. -/
theorem driving : Driving D where
  pure := h.pure
  throw := h.throw
  bind := h.bind
  realizing := h.realizing
  read := h.read
  realized _ _ := h.note _ (.inl rfl)
  completed _ _ := h.note _ (.inr rfl)
  setViewBox := h.setViewBox
  reset := h.reset

/-! ## Passes -/

/-- A pass, with realizers of its own or the usual ones. -/
theorem runPassWith {shapes : List ShapeSpec} (hd : ∀ d ∈ shapes, ∀ n, CanRecord D (d.idAs n))
    (viewBox : Option ViewBox) {table : Option RealizerTable}
    (ht : ∀ t ∈ table, RealizerTable.ThroughBuilder t) :
    D (AnchorLayout.runPassWith shapes viewBox table) :=
  h.call (h.driving.run (throughBuilder_getD ht) hd viewBox) _ _ _ _

theorem runPass {shapes : List ShapeSpec} (hd : ∀ d ∈ shapes, ∀ n, CanRecord D (d.idAs n))
    (viewBox : Option ViewBox) : D (AnchorLayout.runPass shapes viewBox) :=
  h.call (h.driving.run throughBuilder_kinds hd viewBox) _ _ _ _

end Registry.Operating

/-! ## The journal -/

/-- No operation looks at the journal. -/
theorem Registry.operating_transparent :
    Registry.Operating fun ⦃_⦄ a => Transparent a where
  pure := agrees_pure
  throw := agrees_throw
  bind := Agrees.bind
  call := Agrees.call
  read := transparent_read
  note e _ := agrees_note e
  report _ := (transparent_change _).bind fun _ => agrees_note _
  register id members := by
    obtain ⟨e, he⟩ | ⟨as, -, -, he⟩ := register_cases id members
    · rw [he]
      exact agrees_throw e
    · exact he.agrees fun _ _ => congrArg _
  setViewBox _ := transparent_change _
  reset := transparent_change _

/-- Nor does the recording of shapes, under whatever id. -/
theorem Registry.canRecord_transparent (id : ShapeId) :
    CanRecord (fun ⦃_⦄ a => Transparent a) id := by
  intro record
  obtain ⟨e, he⟩ | ⟨-, he⟩ := registerShape_cases id record
  · rw [he]
    exact agrees_throw e
  · exact he.agrees fun _ _ => congrArg _

end AnchorLayout
