import AnchorLayout.Proofs.Registry.Operating
import AnchorLayout.Session

/-!
# What commands do

A command does something to the registry of the session, or to that of a
builder, or it replaces the registry, or it changes what the session remembers
beside its registries. Which operations it does to a registry is no matter:
these are all in a class of actions on registries (`Registry.Operating`). So a
fact on actions of a session holds of every command (`Session.Serving.perform`)
if it holds of these few.

Most commands publish nothing, record nothing and forget nothing
(`Session.Command.Keeps`). For them it is enough that the class has the
operations in it that leave anchors and shapes alone
(`Session.Attending.perform`).

The ids of a command are marked as they come in (`ShapeId.marked`): the session
only counts its marks (`Session.receive_apply`).
-/

namespace AnchorLayout

open AnchorLayout.Action

/-- An id with another mark. -/
def ShapeId.marked (mark : ℕ) : ShapeId → ShapeId
  | .text name => .text name
  | .datum v _ => .datum v mark

/-- A declared shape with another mark on its id. -/
def ShapeSpec.marked (mark : ℕ) (d : ShapeSpec) : ShapeSpec := { d with id := d.id.marked mark }

namespace Session

/-- The session with a new registry in the place of the last one. -/
def renewed (config : Option AxisConfig) (s : Session) : Session :=
  { s with
    replaced := s.registry :: s.replaced
    registry := { config := config.getD s.config } }

/-- A change of what a session remembers beside its registries. -/
def KeepsRegistries (f : Session → Session) : Prop :=
  ∀ s, (f s).registry = s.registry ∧ (f s).replaced = s.replaced

/-- A class of actions that has in it what is done to a session as long as its
    registry is not replaced, where `D` has in it what is done to registries,
    and what is put together from such actions. -/
structure Attending (D : ∀ ⦃α : Type⦄, Action Registry α → Prop)
    (C : ∀ ⦃α : Type⦄, Action Session α → Prop) : Prop where
  pure : ∀ {α : Type} (x : α), C (pure x : Action Session α)
  throw : ∀ {α : Type} (e : Failure), C (throw e : Action Session α)
  bind : ∀ {α β : Type} {a : Action Session α} {f : α → Action Session β},
    C a → (∀ x, C (f x)) → C (a >>= f)
  read : C Action.read
  change : ∀ f, KeepsRegistries f → C (Action.change f)
  onRegistry : ∀ {α : Type} {a : Action Registry α}, D a → C (onRegistry a)
  /-- What a builder does to its registry. -/
  onAged : ∀ {α : Type} {a : Action Registry α} (age : ℕ), D a →
    C (Action.zoom (·.registryOf age) (·.setRegistryOf age) a)

/-- A class of actions that has in it what is done to a session, where `D` has
    in it what is done to registries, and what is put together from such
    actions. -/
structure Serving (D : ∀ ⦃α : Type⦄, Action Registry α → Prop)
    (C : ∀ ⦃α : Type⦄, Action Session α → Prop) : Prop extends Attending D C where
  renew : ∀ config, C (Action.change (renewed config))

namespace Command

/-- A command that publishes nothing, records no shape and forgets none. -/
def Keeps : Command → Prop
  | .newRegistry _ | .register _ _ | .registerShape _ _ | .reset | .publishPartial _ _
  | .publish _ _ | .realize _ _ _ | .pass _ _ _ | .scene _ => False
  | _ => True

/-- A command whose realizers, if it brings any, work through their builders. -/
def ThroughBuilder : Command → Prop
  | .pass _ _ table => ∀ t ∈ table, RealizerTable.ThroughBuilder t
  | _ => True

/-- A command that may be given, as far as a class of actions on registries
    goes: its shapes may be recorded under their ids, and its realizers work
    through their builders. -/
def Fits (D : ∀ ⦃α : Type⦄, Action Registry α → Prop) : Command → Prop
  | .registerShape id _ => ∀ mark, Registry.CanRecord D (id.marked mark)
  | .pass shapes _ table =>
    (∀ d ∈ shapes, ∀ mark n, Registry.CanRecord D ((d.marked mark).idAs n)) ∧
      ∀ t ∈ table, RealizerTable.ThroughBuilder t
  | .scene data => ∀ scene, Scene.ofValue data = .ok scene →
    ∀ d ∈ scene.shapes, ∀ mark n, Registry.CanRecord D ((d.marked mark).idAs n)
  | _ => True

end Command

/-- A shape that is realized by itself does what its realizer does. -/
theorem realizeShape_mem {D : ∀ ⦃α : Type⦄, Action Registry α → Prop} (hD : Registry.Operating D)
    (kind : String) (id : ShapeId) (props : Members) : D (realizeShape kind id props) := by
  rw [realizeShape]
  cases hk : Shape.kinds.get? kind with
  | none => exact hD.throw _
  | some run =>
    exact hD.bind (throughBuilder_kinds hk D { id := id } props (hD.realizing id)) fun _ =>
      hD.pure _

/-! ## Ids -/

/-- An id is marked as it comes in. Of the session only the number of marks
    changes. -/
theorem receive_apply (id : ShapeId) (s : Journaled Session) :
    ∃ marks, receive id s =
      (.ok (id.marked s.state.marks), ⟨{ s.state with marks }, s.journal⟩) := by
  cases id with
  | text name => exact ⟨s.state.marks, rfl⟩
  | datum v mark => exact ⟨s.state.marks + 1, rfl⟩

/-- So are the ids of shapes, one after the other. -/
theorem receiveShapes_apply (shapes : List ShapeSpec) (s : Journaled Session) :
    ∃ received marks, receiveShapes shapes s =
        (.ok received, ⟨{ s.state with marks }, s.journal⟩) ∧
      ∀ d' ∈ received, ∃ d ∈ shapes, ∃ mark, d' = d.marked mark := by
  induction shapes generalizing s with
  | nil => exact ⟨[], s.state.marks, rfl, nofun⟩
  | cons d rest ih =>
    obtain ⟨marks, hid⟩ := receive_apply d.id s
    obtain ⟨received, marks', hrest, hmarked⟩ := ih ⟨{ s.state with marks }, s.journal⟩
    refine ⟨d.marked s.state.marks :: received, marks', ?_, fun d' hd' => ?_⟩
    · rw [receiveShapes, bind_apply, hid]
      dsimp only
      rw [bind_apply, hrest]
      rfl
    · rcases List.mem_cons.1 hd' with rfl | hd'
      · exact ⟨d, List.mem_cons_self, s.state.marks, rfl⟩
      · obtain ⟨d₀, hd₀, hmark⟩ := hmarked d' hd'
        exact ⟨d₀, List.mem_cons_of_mem d hd₀, hmark⟩

namespace Attending

variable {D : ∀ ⦃α : Type⦄, Action Registry α → Prop} {C : ∀ ⦃α : Type⦄, Action Session α → Prop}
  {α : Type} (h : Attending D C)
include h

/-! ### Ids -/

/-- What is done with an id is done whichever mark it gets. -/
theorem receive_bind {id : ShapeId} {f : ShapeId → Action Session α}
    (hf : ∀ mark, C (f (id.marked mark))) : C (receive id >>= f) := by
  cases id with
  | text name => exact hf 0
  | datum v mark =>
    simp only [receive, bind_assoc, pure_bind]
    exact h.bind h.read fun s => h.bind (h.change _ fun _ => ⟨rfl, rfl⟩) fun _ => hf s.marks

/-- So it is with declared shapes, whose ids are marked one by one. -/
theorem receiveShapes_bind {shapes : List ShapeSpec} {f : List ShapeSpec → Action Session α}
    (hf : ∀ received, (∀ d' ∈ received, ∃ d ∈ shapes, ∃ mark, d' = d.marked mark) →
      C (f received)) : C (receiveShapes shapes >>= f) := by
  induction shapes generalizing f with
  | nil => exact hf [] nofun
  | cons d rest ih =>
    simp only [receiveShapes, bind_assoc, pure_bind]
    refine h.receive_bind fun mark => ih fun received hreceived => hf _ fun d' hd' => ?_
    rcases List.mem_cons.1 hd' with rfl | hd'
    · exact ⟨d, List.mem_cons_self, mark, rfl⟩
    · obtain ⟨d₀, hd₀, hmark⟩ := hreceived d' hd'
      exact ⟨d₀, List.mem_cons_of_mem d hd₀, hmark⟩

theorem receiveSelf (self : Option ShapeId) : C (receiveSelf self) := by
  cases self with
  | none => exact h.pure _
  | some id => exact h.receive_bind fun _ => h.pure _

/-! ### Builders -/

/-- A builder that there is not is refused; any other works on the registry it
    was made for. -/
theorem onBuilder {f : Builder → Action Registry α} (hf : ∀ b, D (f b)) (name : String) :
    C (onBuilder name f) := by
  refine h.bind h.read fun s => ?_
  split
  · exact h.throw _
  · exact h.onAged _ (hf _)

theorem changeBuilder {f : Builder → Action Registry Builder} (hf : ∀ b, D (f b))
    (name : String) : C (changeBuilder name f) := by
  refine h.bind (h.onBuilder hf name) fun b => h.change _ fun s => ?_
  split <;> exact ⟨rfl, rfl⟩

/-! ### Commands -/

/-- An answer after something has been done. -/
theorem answer {a : Action Session α} (ha : C a) (f : α → Answer) :
    C (do return f (← a)) :=
  h.bind ha fun _ => h.pure _

/-- What is done by a command that leaves anchors and shapes alone. -/
theorem perform (hD : Registry.Keeping D) {c : Command} (hc : c.Keeps) : C (perform c) := by
  have hreading : ∀ id, Reading D (fun _ => True) id := hD.reading
  cases c with
  | newRegistry | register | registerShape | reset | publishPartial | publish | realize | pass
  | scene => exact hc.elim
  | registryConfig | sessionConfig | editedConfig | records | diagnostics | viewBox | wholeState =>
    exact h.answer h.read _
  | setConfig config =>
    exact h.answer (h.change (fun s => { s with config }) fun _ => ⟨rfl, rfl⟩) _
  | anchorsFor id => exact h.receive_bind fun _ => h.answer (h.onRegistry (hD.ask _)) _
  | setViewBox v => exact h.answer (h.onRegistry (hD.setViewBox v)) _
  | resolve text self =>
    exact h.bind (h.receiveSelf self) fun _ => h.answer (h.onRegistry (hD.resolve _ _)) _
  | resolvePoint text => exact h.answer (h.onRegistry (hD.resolvePoint text)) _
  | resolveOnAxis text axis property id self =>
    exact h.receive_bind fun _ => h.bind (h.receiveSelf self) fun _ =>
      h.answer (h.onRegistry (hD.resolveOnAxis _ _ _ _ _)) _
  | checkEdges id edges =>
    exact h.receive_bind fun _ => h.answer (h.onRegistry (hD.checkEdges _ _)) _
  | checkRotatedBounds id corners degrees pivot =>
    exact h.receive_bind fun _ => h.answer (h.onRegistry (hD.checkRotatedBounds _ _ _ _)) _
  | addDiagnostic severity id message =>
    exact h.receive_bind fun _ => h.answer (h.onRegistry (hD.addDiagnostic _ _ _)) _
  | newBuilder name id =>
    refine h.receive_bind fun mark => h.bind (h.change (fun s => { s with
      builders := s.builders.insert name ({ id := id.marked mark }, s.replaced.length) }) ?_)
        fun _ => h.pure _
    exact fun _ => ⟨rfl, rfl⟩
  | value builder raw axis property =>
    exact h.answer (h.onBuilder (fun b => (hreading b.id).gathering.value raw axis property) _) _
  | optional builder props names axis =>
    exact h.answer (h.onBuilder (fun b => (hreading b.id).gathering.optional props names axis) _) _
  | point builder raw property =>
    exact h.answer (h.onBuilder (fun b =>
      (hreading b.id).gathering.point raw property fun _ _ => trivial) _) _
  | warn builder message => exact h.answer (h.onBuilder (fun b => hD.report _) _) _
  | checkBounds builder bounds => exact h.answer (h.onBuilder (fun b => hD.checkBounds _ _) _) _
  | checkTurned builder corners degrees pivot =>
    exact h.answer (h.onBuilder (fun b => hD.checkRotatedBounds _ _ _ _) _) _
  | builder name => exact h.answer (h.onBuilder hD.pure _) _

end Attending

/-- What is done by a command, whatever it does to the registry. -/
theorem Serving.perform {D : ∀ ⦃α : Type⦄, Action Registry α → Prop}
    {C : ∀ ⦃α : Type⦄, Action Session α → Prop} (h : Serving D C) (hD : Registry.Operating D)
    {c : Command} (hc : c.Fits D) : C (perform c) := by
  cases c with
  | newRegistry config => exact h.answer (h.renew config) _
  | register id members =>
    exact h.receive_bind fun _ => h.answer (h.onRegistry (hD.register _ _)) _
  | registerShape id record =>
    exact h.receive_bind fun mark => h.answer (h.onRegistry (hc mark record)) _
  | reset => exact h.answer (h.onRegistry hD.reset) _
  | publishPartial builder members =>
    exact h.answer (h.changeBuilder (fun b => hD.publishPartial b members) _) _
  | publish builder members =>
    exact h.answer (h.changeBuilder (fun b => hD.publish b members) _) _
  | realize kind id props =>
    exact h.receive_bind fun _ => h.answer (h.onRegistry (realizeShape_mem hD kind _ props)) _
  | pass shapes viewBox table =>
    refine h.receiveShapes_bind fun received hreceived =>
      h.answer (h.onRegistry (hD.runPassWith (fun d' hd' n => ?_) viewBox hc.2)) _
    obtain ⟨d, hd, mark, rfl⟩ := hreceived d' hd'
    exact hc.1 d hd mark n
  | scene data =>
    simp only [Session.perform]
    cases hscene : Scene.ofValue data with
    | error e => exact h.throw e
    | ok scene =>
      refine h.receiveShapes_bind fun received hreceived =>
        h.answer (h.onRegistry (hD.runPass (fun d' hd' n => ?_) scene.viewBox)) _
      obtain ⟨d, hd, mark, rfl⟩ := hreceived d' hd'
      exact hc scene hscene d hd mark n
  | _ => exact h.toAttending.perform hD.toKeeping trivial

end Session

end AnchorLayout
