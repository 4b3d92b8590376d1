import AnchorLayout.Proofs.Journal.Action
import AnchorLayout.Proofs.Shape.Questions

/-!
# What shapes are made of

A shape is realized in two stages. First it gathers its numbers: it asks for
its properties, warns of those that are not needed, and may publish some
anchors. Then it concludes: it publishes its final anchors, is checked against
the view box, and gives back what it is drawn with (`Shape.conclude`). Many
facts hold of a realizer because they hold of the few actions of each stage and
of whatever is put together from them. Such a fact is a class of actions that
is closed in this way: one for what is asked (`Asking`), one for what is
gathered (`Gathering`) and one for all of it (`Staging`); then it has the
questions of a builder in it, or all realizers (`Staging.realizer`).

Where the stages need not be told apart, one class will do (`Reading`,
`Realizing`).

A fact may hold of some questions only. Then it holds of a shape that asks
nothing else.
-/

namespace AnchorLayout

/-- A failure that a shape can meet. That two shapes have one id is met by a
    pass only. -/
def Failure.IsOfShape (e : Failure) : Prop := ∀ id, e ≠ .duplicateId id

namespace Shape

/-- The warnings on properties that are not needed beside others. -/
inductive IsConflict : String → Prop
  | alias (name other : String) : IsConflict (aliasIgnored name other)
  | stop (start stop size : String) : IsConflict (endIgnored start stop size)
  | coordinates (point x y : String) : IsConflict (coordinatesIgnored point x y)

/-- The names of the final anchors of a shape of a kind, in order. -/
def anchorNames : String → List String
  | "rect" =>
    ["left", "right", "top", "bottom", "width", "height", "centerX", "centerY", "center", "topLeft",
      "topRight", "bottomLeft", "bottomRight", "rotation"]
  | "circle" =>
    ["centerX", "centerY", "r", "left", "right", "top", "bottom", "width", "height", "center"]
  | "point" => ["x", "y", "centerX", "centerY", "center"]
  | "line" =>
    ["startX", "startY", "endX", "endY", "start", "end", "length", "angle", "midpoint", "centerX",
      "centerY"]
  | _ => []

/-- How a shape is checked against the view box: a box is, or there is none to
    be told. -/
inductive IsCheck (id : ShapeId) : Action Registry Unit → Prop
  | bounds (b : Bounds) : IsCheck id (Registry.checkBounds id b)
  | failed {e : Failure} (he : e.IsOfShape) : IsCheck id (throw e)

/-- The second stage of a shape. -/
def conclude (id : ShapeId) (members drawn : Members) (check : Action Registry Unit) :
    Action Registry (Builder × Members) := do
  Registry.register id members
  check
  return ({ id, published := members, isFinal := true }, drawn)

/-- The builder that publishes the final anchors is settled by them, so a
    realizer ends in one and the same way, whichever builder it has got to. -/
theorem conclude_eq (b : Builder) (members drawn : Members)
    (check : Builder → Action Registry Unit) :
    (do
      let b ← b.publish members
      check b
      return (b, drawn)) =
      conclude b.id members drawn
        (check { id := b.id, published := members, isFinal := true }) := by
  simp only [Builder.publish, Builder.publishPartial, conclude, bind_assoc, pure_bind]

/-- What is turned by an angle that is infinite, or has no corners, has no
    box. -/
theorem isCheck_turned (id : ShapeId) (ps : List Point) (degrees : Float) (pivot : Point) :
    IsCheck id (Registry.checkTurnedBounds id ps degrees pivot) := by
  unfold Registry.checkTurnedBounds
  rw [Rotation.turn, Rotation.ofDegrees]
  cases Rotation.ofDegrees? degrees with
  | none => exact .failed nofun
  | some r =>
    simp only [Bounds.ofPoints]
    cases ps with
    | nil => exact .failed nofun
    | cons p ps => exact .bounds _

/-- A rectangle is checked as it is, or by its corners where it is turned. -/
theorem isCheck_rect (b : Builder) (x y : Extent) (rotation : Float) :
    IsCheck b.id (checkRect b x y rotation) := by
  unfold checkRect
  split_ifs
  · exact isCheck_turned ..
  · exact .bounds _

end Shape

/-! ## Asking -/

/-- A class of actions that has in it what the shape `id` asks for, as far as
    these are the questions `T` only, and what is put together from such
    actions. -/
structure Asking (C : ∀ ⦃α : Type⦄, Action Registry α → Prop) (T : Question → Prop)
    (id : ShapeId) : Prop where
  pure : ∀ {α : Type} (x : α), C (pure x : Action Registry α)
  throw : ∀ {α : Type} (e : Failure), e.IsOfShape → C (throw e : Action Registry α)
  bind : ∀ {α β : Type} {a : Action Registry α} {f : α → Action Registry β},
    C a → (∀ x, C (f x)) → C (a >>= f)
  resolve : ∀ text, T (.value text id.given?) → C (Registry.resolve text (.byName id))
  resolveOnAxis : ∀ text axis property, T (.value text id.given?) →
    C (Registry.resolveOnAxis text axis property id (.byName id))
  resolvePoint : ∀ text, T (.point text) → C (Registry.resolvePoint text)

namespace Asking

variable {C : ∀ ⦃α : Type⦄, Action Registry α → Prop} {T : Question → Prop} {b : Builder}
  (h : Asking C T b.id)
include h

/-! ### Builders

A class that has all questions in it needs no more than this. -/

/-- A datum that is no text stands for its number without a question. -/
theorem value (raw : Value) (axis property : Option String)
    (hT : ∀ q ∈ Question.ofNumber b.id.given? raw, T q := by exact fun _ _ => trivial) :
    C (b.value raw axis property) := by
  unfold Builder.value
  split
  · exact h.throw _ nofun
  · next n =>
    rw [Value.toFloat]
    cases Decimal.ofInt? n with
    | some x => exact h.pure x
    | none => exact h.throw _ nofun
  · exact h.pure _
  · have hs := hT _ List.mem_cons_self
    split
    · exact h.resolveOnAxis _ _ _ hs
    · exact h.resolve _ hs
  · exact h.throw _ nofun

/-- Only the first property that is given is read. -/
theorem optional (props : Members) (names : List String) (axis : Option String)
    (hT : ∀ q ∈ Question.ofProperty b.id.given? props names, T q := by exact fun _ _ => trivial) :
    C (b.optional props names axis) := by
  unfold Builder.optional
  unfold Question.ofProperty at hT
  split
  · exact h.pure _
  · next heq =>
    rw [heq] at hT
    exact h.bind (h.value _ _ _ hT) fun _ => h.pure _

theorem coordinates (x y : Value) (property : Option String)
    (hT : ∀ q ∈ Question.ofNumber b.id.given? x ++ Question.ofNumber b.id.given? y, T q) :
    C (b.coordinates x y property) := by
  obtain ⟨hx, hy⟩ := List.forall_mem_append.1 hT
  exact h.bind (h.value _ _ _ hx) fun _ => h.bind (h.value _ _ _ hy) fun _ => h.pure _

/-- A point is given as one, by a bare reference, or by two coordinates. -/
theorem point (raw : Value) (property : Option String)
    (hT : ∀ q ∈ Question.ofPoint b.id.given? raw, T q) : C (b.point raw property) := by
  unfold Builder.point
  split
  · exact h.pure _
  · exact h.resolvePoint _ (hT _ List.mem_cons_self)
  · exact h.coordinates _ _ _ hT
  · exact h.coordinates _ _ _ hT
  · rw [Question.ofPoint] at hT
    split
    · next hx hy =>
      rw [hx, hy] at hT
      exact h.coordinates _ _ _ hT
    · exact h.throw _ nofun
  · exact h.throw _ nofun

end Asking

/-! ## Gathering -/

/-- A class of actions that has in it what the shape `id` does to gather its
    numbers: it asks, and it warns of what is not needed. -/
structure Gathering (C : ∀ ⦃α : Type⦄, Action Registry α → Prop) (T : Question → Prop)
    (id : ShapeId) : Prop extends Asking C T id where
  report : ∀ message, Shape.IsConflict message → C (Registry.report ⟨.warning, id, message⟩)

namespace Gathering

variable {C : ∀ ⦃α : Type⦄, Action Registry α → Prop} {T : Question → Prop} {b : Builder}
  {α : Type} (h : Gathering C T b.id)
include h

/-- A warning that is given on a condition only. -/
theorem warnIf {c : Prop} [Decidable c] {message : String} (hm : Shape.IsConflict message)
    {f : Unit → Action Registry α} (hf : C (f ())) :
    C (if c then b.warn message >>= f else f ()) := by
  split_ifs
  · exact h.bind (h.report message hm) fun _ => hf
  · exact hf

/-! ### Shapes -/

/-- Coordinates beside a point are warned of and not asked for. -/
theorem lineEnd (props : Members) (point x y : String)
    (hT : ∀ q ∈ Question.ofEnd b.id.given? props point x y, T q := by exact fun _ _ => trivial) :
    C (Shape.lineEnd b props point x y) := by
  unfold Shape.lineEnd
  unfold Question.ofEnd at hT
  split
  · next heq =>
    rw [heq] at hT
    exact h.warnIf (.coordinates ..) (h.point _ _ hT)
  · next heq =>
    rw [heq] at hT
    obtain ⟨hx, hy⟩ := List.forall_mem_append.1 hT
    exact h.bind (h.optional _ _ _ hx) fun _ => h.bind (h.optional _ _ _ hy) fun _ => h.pure _

theorem span (start stop size : Option Float) (names : String × String × String) :
    C (Shape.span b start stop size names) := by
  unfold Shape.span
  exact h.warnIf (.stop ..) (h.pure _)

/-- Of two names for one property the second is warned of. -/
theorem aliased (props : Members) (name other axis : String)
    (hT : ∀ q ∈ Question.ofProperty b.id.given? props [name, other], T q := by
      exact fun _ _ => trivial) :
    C (Shape.aliased b props name other axis) := by
  unfold Shape.aliased
  exact h.warnIf (.alias ..) (h.optional _ _ _ hT)

end Gathering

/-! ## The two stages -/

/-- A class `C` of actions that has in it what the shape `id` of a kind does to
    gather its numbers and publish some anchors, and a class `C'` that has in it
    how it concludes, and what is gathered before that. -/
structure Staging (C : ∀ ⦃α : Type⦄, Action Registry α → Prop)
    (C' : Action Registry (Builder × Members) → Prop) (T : Question → Prop) (kind : String)
    (id : ShapeId) : Prop extends Gathering C T id where
  register : ∀ members, C (Registry.register id members)
  before : ∀ {α : Type} {a : Action Registry α} {f : α → Action Registry (Builder × Members)},
    C a → (∀ x, C' (f x)) → C' (a >>= f)
  conclude : ∀ {members check}, Table.keys members = Shape.anchorNames kind →
    Shape.IsCheck id check → ∀ drawn, C' (Shape.conclude id members drawn check)

namespace Staging

variable {C : ∀ ⦃α : Type⦄, Action Registry α → Prop}
  {C' : Action Registry (Builder × Members) → Prop} {T : Question → Prop} {b : Builder}

section

variable {kind : String} (h : Staging C C' T kind b.id)
include h

/-- The builder changes when anchors are published, but it stays that of the
    same shape. -/
theorem publishPartial_before {members : Members}
    {f : Builder → Action Registry (Builder × Members)} (hf : ∀ b', b'.id = b.id → C' (f b')) :
    C' (b.publishPartial members >>= f) := by
  rw [Builder.publishPartial, bind_assoc]
  refine h.before (h.register members) fun _ => ?_
  rw [pure_bind]
  exact hf _ rfl

/-- A size that is not known is not published, and the builder stays as it
    is. -/
theorem publishSize_before {known : Members} {name : String} {size : Option Float}
    {f : Builder → Action Registry (Builder × Members)} (hf : ∀ b', b'.id = b.id → C' (f b')) :
    C' (Shape.publishSize b known name size >>= f) := by
  cases size with
  | none =>
    rw [Shape.publishSize, pure_bind]
    exact hf b rfl
  | some x => exact h.publishPartial_before hf

/-- The check may ask for the builder as it is after publication. -/
theorem publish {members drawn : Members} {check : Builder → Action Registry Unit}
    (hm : Table.keys members = Shape.anchorNames kind)
    (hc : ∀ b', Shape.IsCheck b'.id (check b')) :
    C' (do
      let b ← b.publish members
      check b
      return (b, drawn)) := by
  rw [Shape.conclude_eq]
  exact h.conclude hm (hc { id := b.id, published := members, isFinal := true }) drawn

end

/-! ### Realizers -/

/-- The radius comes before the centre, which may refer to it. -/
theorem circle (h : Staging C C' T "circle" b.id) (props : Members)
    (hT : ∀ q ∈ Question.ofShape b.id.given? "circle" props, T q) : C' (Shape.circle b props) := by
  simp only [Question.ofShape, String.reduceEq, if_false, Question.readBy, List.flatMap_cons,
    List.forall_mem_append] at hT
  obtain ⟨hr, hx, hy, -⟩ := hT
  refine h.before (h.optional _ _ _ hr) fun _ => h.publishPartial_before fun b₁ hb₁ => ?_
  rw [← hb₁] at h hx hy
  exact h.before (h.optional _ _ _ hx) fun _ => h.before (h.optional _ _ _ hy) fun _ =>
    h.publish rfl fun _ => .bounds _

theorem dot (h : Staging C C' T "point" b.id) (props : Members)
    (hT : ∀ q ∈ Question.ofShape b.id.given? "point" props, T q) : C' (Shape.dot b props) := by
  simp only [Question.ofShape, String.reduceEq, if_false, Question.readBy, List.flatMap_cons,
    List.forall_mem_append] at hT
  obtain ⟨hx, hy, -⟩ := hT
  exact h.before (h.optional _ _ _ hx) fun _ => h.before (h.optional _ _ _ hy) fun _ =>
    h.publish rfl fun _ => .bounds _

theorem line (h : Staging C C' T "line" b.id) (props : Members)
    (hT : ∀ q ∈ Question.ofShape b.id.given? "line" props, T q) : C' (Shape.line b props) := by
  obtain ⟨hp, hq⟩ := List.forall_mem_append.1 hT
  exact h.before (h.lineEnd _ _ _ _ hp) fun _ => h.before (h.lineEnd _ _ _ _ hq) fun _ =>
    h.publish rfl fun _ => .bounds _

/-- Both sizes come before the positions, which may refer to them. -/
theorem rect (h : Staging C C' T "rect" b.id) (props : Members)
    (hT : ∀ q ∈ Question.ofShape b.id.given? "rect" props, T q) : C' (Shape.rect b props) := by
  simp only [Question.ofShape, String.reduceEq, if_false, Question.readBy, List.flatMap_cons,
    List.forall_mem_append] at hT
  obtain ⟨hwidth, hheight, hleft, hright, htop, hbottom, hrotation, -⟩ := hT
  -- From each publication on, the builder that it
  -- gives back takes the place of the last one.
  refine h.before (h.optional _ _ _ hwidth) fun _ => h.publishSize_before fun b₁ hb₁ => ?_
  rw [← hb₁] at h hheight hleft hright htop hbottom hrotation
  refine h.before (h.optional _ _ _ hheight) fun _ => h.publishSize_before fun b₂ hb₂ => ?_
  rw [← hb₂] at h hleft hright htop hbottom hrotation
  exact h.before (h.aliased _ _ _ _ hleft) fun _ => h.before (h.optional _ _ _ hright) fun _ =>
    h.before (h.aliased _ _ _ _ htop) fun _ => h.before (h.optional _ _ _ hbottom) fun _ =>
    h.before (h.optional _ _ _ hrotation) fun _ => h.before (h.span _ _ _ _) fun _ =>
    h.before (h.span _ _ _ _) fun _ => h.publish rfl fun _ => Shape.isCheck_rect ..

/-- All that a shape of one of the usual kinds does. -/
theorem realizer {kind : String} {run : Realizer} (h : Staging C C' T kind b.id)
    (hr : Shape.kinds.get? kind = some run) (props : Members)
    (hT : ∀ q ∈ Question.ofShape b.id.given? kind props, T q) : C' (run b props) := by
  simp only [Shape.kinds, Table.get?, beq_iff_eq] at hr
  split_ifs at hr with hrect hcircle hdot hline <;> cases hr
  · subst hrect
    exact h.rect props hT
  · subst hcircle
    exact h.circle props hT
  · subst hdot
    exact h.dot props hT
  · subst hline
    exact h.line props hT

end Staging

/-! ## One class for both stages -/

/-- A class of actions that has in it what the shape `id` does before it
    publishes its anchors, as far as it asks the questions `T` only, and what is
    put together from such actions. -/
structure Reading (C : ∀ ⦃α : Type⦄, Action Registry α → Prop) (T : Question → Prop)
    (id : ShapeId) : Prop where
  pure : ∀ {α : Type} (x : α), C (pure x : Action Registry α)
  throw : ∀ {α : Type} (e : Failure), C (throw e : Action Registry α)
  bind : ∀ {α β : Type} {a : Action Registry α} {f : α → Action Registry β},
    C a → (∀ x, C (f x)) → C (a >>= f)
  report : ∀ message, C (Registry.report ⟨.warning, id, message⟩)
  checkBounds : ∀ bounds, C (Registry.checkBounds id bounds)
  resolve : ∀ text, T (.value text id.given?) → C (Registry.resolve text (.byName id))
  resolveOnAxis : ∀ text axis property, T (.value text id.given?) →
    C (Registry.resolveOnAxis text axis property id (.byName id))
  resolvePoint : ∀ text, T (.point text) → C (Registry.resolvePoint text)

/-- A class of actions that has in it all that the shape `id` does, as far as it
    asks the questions `T` only. -/
structure Realizing (C : ∀ ⦃α : Type⦄, Action Registry α → Prop) (T : Question → Prop)
    (id : ShapeId) : Prop extends Reading C T id where
  register : ∀ members, C (Registry.register id members)

namespace Reading

variable {C : ∀ ⦃α : Type⦄, Action Registry α → Prop} {T : Question → Prop} {id : ShapeId}
  (h : Reading C T id)
include h

/-- What is asked for in the first stage is asked for in one class as well. -/
theorem gathering : Gathering C T id where
  pure := h.pure
  throw e _ := h.throw e
  bind := h.bind
  report message _ := h.report message
  resolve := h.resolve
  resolveOnAxis := h.resolveOnAxis
  resolvePoint := h.resolvePoint

theorem check {check : Action Registry Unit} (hc : Shape.IsCheck id check) : C check := by
  cases hc with
  | bounds b => exact h.checkBounds b
  | failed => exact h.throw _

end Reading

namespace Realizing

variable {C : ∀ ⦃α : Type⦄, Action Registry α → Prop} {T : Question → Prop} {b : Builder}
  {α : Type} (h : Realizing C T b.id)
include h

theorem publish_bind {members : Members} {f : Builder → Action Registry α}
    (hf : ∀ b', b'.id = b.id → C (f b')) : C (b.publish members >>= f) := by
  simp only [Builder.publish, Builder.publishPartial, bind_assoc, pure_bind]
  exact h.bind (h.register members) fun _ => hf _ rfl

/-- One class for both stages is a case of two classes, the stages not being
    told apart. -/
theorem staging (kind : String) : Staging C (fun a => C a) T kind b.id where
  toGathering := h.gathering
  register := h.register
  before := h.bind
  conclude _ hc _ := h.bind (h.register _) fun _ => h.bind (h.check hc) fun _ => h.pure _

/-- All that a shape of one of the usual kinds does. -/
theorem realizer {kind : String} {run : Realizer} (hr : Shape.kinds.get? kind = some run)
    (props : Members) (hT : ∀ q ∈ Question.ofShape b.id.given? kind props, T q) :
    C (run b props) :=
  (h.staging kind).realizer hr props hT

end Realizing

end AnchorLayout
