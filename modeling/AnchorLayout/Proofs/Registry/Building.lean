import AnchorLayout.Proofs.Registry.Footprint
import AnchorLayout.Proofs.Registry.History

/-!
# Builders in step with the registry

What a shape has published is kept twice: by its builder as it was given, and
by the registry as anchors. A builder is at work while others work on the
registry too (`Builder.Work`), and some of its calls fail. As long as nobody
else registers its id, it stays in step with the registry (`Builder.InStep`):
both hold what the last call that published anything has published, and the
builder is final once a call has published the final anchors. Each step keeps
to this (`Builder.InStep.step`), and so do all of them
(`Builder.inStep_after`).
-/

namespace AnchorLayout

open AnchorLayout.Action

namespace Builder

/-! ## Calls -/

/-- A call of an operation on a builder. -/
inductive Call where
  | value (raw : Value) (axis property : Option String)
  | optional (props : Members) (names : List String) (axis : Option String)
  | point (raw : Value) (property : Option String)
  | publishPartial (members : Members)
  | publish (members : Members)
  | warn (message : String)
  | checkBounds (bounds : Bounds)
  | checkRotatedBounds (corners : Value) (degrees : Float) (pivot : Point)

namespace Call

/-- Makes a call, and gives the builder back as it is then. -/
def run (b : Builder) : Call → Action Registry Builder
  | value raw axis property => do
    let _ ← b.value raw axis property
    return b
  | optional props names axis => do
    let _ ← b.optional props names axis
    return b
  | point raw property => do
    let _ ← b.point raw property
    return b
  | publishPartial members => b.publishPartial members
  | publish members => b.publish members
  | warn message => do
    b.warn message
    return b
  | checkBounds bounds => do
    b.checkBounds bounds
    return b
  | checkRotatedBounds corners degrees pivot => do
    Registry.checkRotatedBounds b.id corners degrees pivot
    return b

/-- What a call publishes, if it is there to publish. -/
def members? : Call → Option Members
  | publishPartial members | publish members => some members
  | _ => none

/-- Whether a call publishes the final anchors. -/
def isFinal : Call → Bool
  | publish _ => true
  | _ => false

end Call

theorem Call.exists_isFinal_iff {cs : List Call} :
    (∃ c ∈ cs, c.isFinal = true) ↔ ∃ members, .publish members ∈ cs := by
  constructor
  · rintro ⟨c, hc, hfinal⟩
    cases c with
    | publish members => exact ⟨members, hc⟩
    | _ => cases hfinal
  · rintro ⟨members, hc⟩
    exact ⟨_, hc, rfl⟩

/-- The anchors of the registry are the same as before. -/
def KeepsAnchors (r r' : Registry) : Prop := r'.anchors = r.anchors

instance : IsPreorder Registry KeepsAnchors where
  refl _ := rfl
  trans _ _ _ h h' := h'.trans h

/-- An action that leaves the anchors alone and then gives the builder back. -/
theorem keeps_bind {α : Type} {b : Builder} {a : Action Registry α} (ha : Frames KeepsAnchors a)
    (s : Journaled Registry) :
    KeepsAnchors s.state ((a >>= fun _ => pure b) s).2.state ∧
      ∀ b', ((a >>= fun _ => pure b) s).1 = .ok b' → b' = b := by
  refine ⟨ha.bind (fun _ => frames_pure b) s, fun b' hb' => ?_⟩
  obtain ⟨x, s₁, -, hpure⟩ := bind_eq_ok.1 (Prod.ext hb' rfl)
  cases hpure
  rfl

/-- A call that is not there to publish leaves the anchors and the builder
    alone. -/
theorem Call.run_of_members?_eq_none {b : Builder} {c : Call} (hc : c.members? = none)
    (s : Journaled Registry) :
    (c.run b s).2.state.anchors = s.state.anchors ∧ ∀ b', (c.run b s).1 = .ok b' → b' = b := by
  have h : Reading (fun ⦃_⦄ a => Frames KeepsAnchors a) (fun _ => True) b.id :=
    frames_reading fun _ _ => rfl
  cases c with
  | value raw axis property => exact keeps_bind (h.gathering.value raw axis property) s
  | optional props names axis => exact keeps_bind (h.gathering.optional props names axis) s
  | point raw property => exact keeps_bind (h.gathering.point raw property fun _ _ => trivial) s
  | publishPartial | publish => cases hc
  | warn message => exact keeps_bind (h.report message) s
  | checkBounds bounds => exact keeps_bind (h.checkBounds bounds) s
  | checkRotatedBounds corners degrees pivot =>
    refine keeps_bind (fun s => ?_) s
    have hcall := Registry.Call.effects_run (.checkRotatedBounds b.id corners degrees pivot) s
    exact hcall.frame.anchors nofun

/-- A call that is there to publish registers the data first. -/
theorem Call.run_eq_register {b : Builder} {c : Call} {members : Members}
    (hc : c.members? = some members) : c.run b = (do
      Registry.register b.id members
      return { b with published := members, isFinal := b.isFinal || c.isFinal }) := by
  cases c with
  | publishPartial =>
    cases hc
    exact (Bool.or_false b.isFinal).symm ▸ rfl
  | publish =>
    cases hc
    simp only [run, Builder.publish, Builder.publishPartial, isFinal, Bool.or_true, bind_assoc,
      pure_bind]
  | _ => cases hc

/-- A call that is there to publish fails and changes nothing, or it puts the
    anchors that the data stand for in the place of all that the shape had. -/
theorem Call.run_of_members?_eq_some {b : Builder} {c : Call} {members : Members}
    (hc : c.members? = some members) (s : Journaled Registry) :
    (∃ e, c.run b s = (.error e, s)) ∨
    ∃ as j, Registry.Publishes b.id members as ∧ b.id.asKey = .ok b.id ∧ c.run b s =
      (.ok { b with published := members, isFinal := b.isFinal || c.isFinal },
        ⟨s.state.published b.id as, j⟩) := by
  rw [run_eq_register hc]
  obtain ⟨e, he⟩ | ⟨as, has, hkey, hdoes⟩ := Registry.register_cases b.id members
  · exact .inl ⟨e, by rw [he]; rfl⟩
  · obtain ⟨j, hj⟩ := hdoes s
    exact .inr ⟨as, j, Registry.publishes_of_ofMembers has, hkey, by rw [bind_apply, hj]; rfl⟩

/-! ## Builders at work -/

/-- A builder and the registry that it works on, while others work on the
    registry too. -/
structure Work where
  builder : Builder
  registry : Journaled Registry
  /-- The calls of the builder that have not failed. -/
  succeeded : List Call := []

/-- A step of the work: a call of the builder, or one that somebody else
    makes. -/
inductive Step where
  | own (c : Call)
  | other (c : Registry.Call)

namespace Work

/-- Takes a step, which may fail. -/
def step (w : Work) : Step → Work
  | .own c =>
    match c.run w.builder w.registry with
    | (.ok b, s) => ⟨b, s, w.succeeded ++ [c]⟩
    | (.error _, s) => { w with registry := s }
  | .other c => { w with registry := (c.run w.registry).2 }

/-- Takes steps, one after the other. -/
def after : List Step → Work → Work
  | [], w => w
  | x :: xs, w => after xs (w.step x)

/-- What has been published last. -/
def lastPublished (w : Work) : Option Members := (w.succeeded.filterMap Call.members?).getLast?

theorem lastPublished_eq_none {w : Work} :
    w.lastPublished = none ↔ ∀ c ∈ w.succeeded, c.members? = none := by
  rw [lastPublished, List.getLast?_eq_none_iff, List.filterMap_eq_nil_iff]

end Work

/-- The builder of a shape and the registry hold the same: what has been
    published last, as it was given and as anchors, and whether that was
    final. -/
structure InStep (id : ShapeId) (w : Work) : Prop where
  owner : w.builder.id = id
  published : w.builder.published = w.lastPublished.getD []
  anchors : Option.Rel (Registry.Publishes id) w.lastPublished (w.registry.state.anchors.get? id)
  isFinal : w.builder.isFinal = w.succeeded.any Call.isFinal

namespace InStep

variable {id : ShapeId} {w : Work}

/-- They stay in step where the anchors of the shape stay. -/
theorem of_get?_eq (h : InStep id w) {s : Journaled Registry}
    (hs : s.state.anchors.get? id = w.registry.state.anchors.get? id) :
    InStep id { w with registry := s } where
  owner := h.owner
  published := h.published
  anchors := hs ▸ h.anchors
  isFinal := h.isFinal

/-- They stay in step under a call that publishes nothing. -/
theorem succeed_of_members?_eq_none (h : InStep id w) {c : Call} (hc : c.members? = none) :
    InStep id { w with succeeded := w.succeeded ++ [c] } := by
  have hlast : Work.lastPublished { w with succeeded := w.succeeded ++ [c] } = w.lastPublished := by
    simp [Work.lastPublished, hc]
  have hfinal : c.isFinal = false := by cases c <;> first | rfl | cases hc
  refine ⟨h.owner, by rw [hlast]; exact h.published, by rw [hlast]; exact h.anchors, ?_⟩
  simp [hfinal, h.isFinal]

/-- They are in step again once something has been published. -/
theorem succeed_of_members?_eq_some (h : InStep id w) {c : Call} {members : Members}
    (hc : c.members? = some members) {s : Journaled Registry} {as : Anchors}
    (hs : s.state.anchors.get? id = some as) (has : Registry.Publishes id members as) :
    InStep id ⟨{ w.builder with published := members, isFinal := w.builder.isFinal || c.isFinal },
      s, w.succeeded ++ [c]⟩ where
  owner := h.owner
  published := by simp [Work.lastPublished, hc]
  anchors := by
    simp only [Work.lastPublished, List.filterMap_append, List.filterMap_cons, hc,
      List.filterMap_nil, List.getLast?_concat, hs]
    exact .some has
  isFinal := by simp [h.isFinal]

/-- Every step keeps them in step, unless somebody else registers the shape. -/
theorem step (h : InStep id w) (x : Step)
    (hother : ∀ key members, x = .other (.register key members) → (key == id) = false) :
    InStep id (w.step x) := by
  cases x with
  | other c =>
    exact h.of_get?_eq (Registry.Call.get?_anchors_run c w.registry fun key members hc =>
      hother key members (hc ▸ rfl))
  | own c =>
    rw [Work.step]
    cases hc : c.members? with
    | none =>
      obtain ⟨hanchors, hbuilder⟩ := Call.run_of_members?_eq_none (b := w.builder) hc w.registry
      split
      · next b s hrun =>
        rw [hrun] at hanchors hbuilder
        obtain rfl := hbuilder b rfl
        exact (h.of_get?_eq (congrArg (Table.get? · id) hanchors)).succeed_of_members?_eq_none hc
      · next e s hrun =>
        rw [hrun] at hanchors
        exact h.of_get?_eq (congrArg (Table.get? · id) hanchors)
    | some members =>
      obtain ⟨e, hrun⟩ | ⟨as, j, has, hkey, hrun⟩ :=
        Call.run_of_members?_eq_some (b := w.builder) hc w.registry
      · rw [hrun]
        exact h
      · rw [hrun]
        rw [h.owner] at has hkey
        refine h.succeed_of_members?_eq_some hc ?_ has
        rw [← h.owner] at hkey ⊢
        exact Table.get?_insert_of_beq _ as (ShapeId.beq_self hkey)

/-- All steps keep them in step. -/
theorem after (h : InStep id w) (xs : List Step)
    (hother : ∀ key members, .other (.register key members) ∈ xs → (key == id) = false) :
    InStep id (Work.after xs w) := by
  induction xs generalizing w with
  | nil => exact h
  | cons x xs ih =>
    have hstep := h.step x fun key members hx => hother key members (hx ▸ List.mem_cons_self)
    exact ih hstep fun key members hx => hother key members (List.mem_cons_of_mem x hx)

/-- A builder starts in step with a registry that holds no anchors of its
    shape. -/
theorem fresh {s : Journaled Registry} (h : s.state.anchors.get? id = none) :
    InStep id ⟨{ id }, s, []⟩ where
  owner := rfl
  published := rfl
  anchors := h ▸ .none
  isFinal := rfl

end InStep

/-- Whatever a builder is asked for, failed calls among them, and whatever
    others do but register its shape: the registry holds anchors of the shape
    once a call has published any, and these are name by name what the builder
    has published; the builder is final once a call has published the final
    anchors. A call that fails to publish changes neither of them. -/
theorem inStep_after (id : ShapeId) (s : Journaled Registry) (xs : List Step)
    (habsent : s.state.anchors.get? id = none)
    (hother : ∀ key members, .other (.register key members) ∈ xs → (key == id) = false) :
    let w := Work.after xs ⟨{ id }, s, []⟩
    let anchors := w.registry.state.anchors.get? id
    (∀ as, anchors = some as → Registry.Publishes id w.builder.published as) ∧
    (anchors = none ↔ ∀ c ∈ w.succeeded, c.members? = none) ∧
    (w.builder.isFinal = true ↔ ∃ members, .publish members ∈ w.succeeded) ∧
    ∀ c members e, c.members? = some members → (c.run w.builder w.registry).1 = .error e →
      w.step (.own c) = w := by
  intro w anchors
  have h : InStep id w := (InStep.fresh habsent).after xs hother
  have hanchors : Option.Rel (Registry.Publishes id) w.lastPublished anchors := h.anchors
  refine ⟨fun as has => ?_, ?_, ?_, fun c members e hc he => ?_⟩
  · rw [has] at hanchors
    rw [h.published]
    cases hlast : w.lastPublished with
    | none =>
      rw [hlast] at hanchors
      cases hanchors
    | some members =>
      rw [hlast] at hanchors
      exact Option.rel_some_some.1 hanchors
  · rw [← Work.lastPublished_eq_none]
    generalize anchors = found, w.lastPublished = last at hanchors ⊢
    cases hanchors with
    | some => exact ⟨nofun, nofun⟩
    | none => exact ⟨fun _ => rfl, fun _ => rfl⟩
  · rw [h.isFinal, List.any_eq_true]
    exact Call.exists_isFinal_iff
  · obtain ⟨e', hrun⟩ | ⟨as, j, -, -, hrun⟩ :=
      Call.run_of_members?_eq_some (b := w.builder) hc w.registry
    · rw [Work.step, hrun]
    · rw [hrun] at he
      cases he

/-- A shape that publishes in part, fails to publish what is no anchor, and
    then publishes, while another shape is registered. -/
theorem inStep_after_failed :
    let s : Journaled Registry := ⟨{}, {}⟩
    let xs : List Step := [.own (.publishPartial [("w", .float 1)]),
      .other (.register (.text "t") [("w", .float 2)]), .own (.publish [("w", .text "wide")]),
      .own (.publish [("h", .float 3)])]
    let w := Work.after xs ⟨{ id := .text "s" }, s, []⟩
    let anchors := w.registry.state.anchors.get? (.text "s")
    (anchors = some [("h", .number 3)] ∧ w.succeeded.length = 2) ∧
    (∀ as, anchors = some as → Registry.Publishes (.text "s") w.builder.published as) ∧
    (anchors = none ↔ ∀ c ∈ w.succeeded, c.members? = none) ∧
    (w.builder.isFinal = true ↔ ∃ members, .publish members ∈ w.succeeded) ∧
    ∀ c members e, c.members? = some members → (c.run w.builder w.registry).1 = .error e →
      w.step (.own c) = w := by
  intro s xs
  refine ⟨⟨rfl, rfl⟩, inStep_after (.text "s") s xs rfl fun key members hmem => ?_⟩
  have hkey : key = .text "t" := by
    simp only [xs, List.mem_cons, List.not_mem_nil, reduceCtorEq, or_false, false_or,
      Step.other.injEq, Registry.Call.register.injEq] at hmem
    exact hmem.1
  rw [hkey]
  decide

end Builder

end AnchorLayout
