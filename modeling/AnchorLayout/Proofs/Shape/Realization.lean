import AnchorLayout.Proofs.Pass.Placing
import AnchorLayout.Proofs.Registry.Sameness
import AnchorLayout.Proofs.Shape.Inputs

/-!
# Realizing a shape

A shape of one of the usual kinds first gathers its inputs (`Shape.gather`).
They settle all the rest: the final anchors, what the shape is drawn with, and
how it is checked against the view box (`Shape.realizer_eq`). Which inputs are
gathered is settled by the properties and the anchors (`Inputs.Read`): sizes and
radii are published as soon as they are known, so the other properties are read
with these among the anchors (`Shape.gather_eq_ok_iff`).
-/

namespace AnchorLayout

open AnchorLayout.Action

/-! ## Inputs -/

/-- What a shape has read from its properties, and nothing for a number that is
    not given. -/
inductive Shape.Inputs where
  | rect (left right width top bottom height rotation : Option Float)
  | circle (cx cy r : Option Float)
  | dot (x y : Option Float)
  | line (p q : Point)

namespace Shape.Inputs

/-- The kind of a shape with these inputs. -/
def kind : Inputs → String
  | rect .. => "rect"
  | circle .. => "circle"
  | dot .. => "point"
  | line .. => "line"

/-- A rectangle has seven numbers for inputs. -/
theorem exists_rect {i : Inputs} (h : i.kind = "rect") : ∃ left right width top bottom height
    rotation, i = rect left right width top bottom height rotation := by
  cases i <;> simp_all [kind]

theorem exists_circle {i : Inputs} (h : i.kind = "circle") : ∃ cx cy r, i = circle cx cy r := by
  cases i <;> simp_all [kind]

theorem exists_dot {i : Inputs} (h : i.kind = "point") : ∃ x y, i = dot x y := by
  cases i <;> simp_all [kind]

theorem exists_line {i : Inputs} (h : i.kind = "line") : ∃ p q, i = line p q := by
  cases i <;> simp_all [kind]

/-- All numbers that have been read. -/
def numbers : Inputs → List Float
  | rect left right width top bottom height rotation =>
    [left, right, width, top, bottom, height, rotation].filterMap fun x => x
  | circle cx cy r => [cx, cy, r].filterMap fun x => x
  | dot x y => [x, y].filterMap fun x => x
  | line p q => [p.x, p.y, q.x, q.y]

/-- The final anchors of a shape. -/
def anchors : Inputs → Members
  | rect left right width top bottom height rotation =>
    rectAnchors (extent left right width) (extent top bottom height) (orZero rotation)
  | circle cx cy r => circleAnchors (orZero cx) (orZero cy) (orZero r)
  | dot x y => dotAnchors (orZero x) (orZero y)
  | line p q => lineAnchors p q

/-- The properties that a shape is drawn with, others apart. -/
def drawn : Inputs → Members
  | rect left right width top bottom height rotation =>
    rectDrawn (extent left right width) (extent top bottom height) (orZero rotation)
  | circle cx cy r => [("cx", .float (orZero cx)), ("cy", .float (orZero cy)),
      ("r", .float (orZero r))]
  | dot x y => [("cx", .float (orZero x)), ("cy", .float (orZero y))]
  | line p q => [("x1", .float p.x), ("y1", .float p.y), ("x2", .float q.x), ("y2", .float q.y)]

/-- The edges of a shape that is not turned. -/
def bounds : Inputs → Bounds
  | rect left right width top bottom height _ =>
    let h := extent left right width
    let v := extent top bottom height
    ⟨h.start, h.start + h.size, v.start, v.start + v.size⟩
  | circle cx cy r =>
    ⟨orZero cx - orZero r, orZero cx + orZero r, orZero cy - orZero r, orZero cy + orZero r⟩
  | dot x y => ⟨orZero x, orZero x, orZero y, orZero y⟩
  | line p q => ⟨lesser p.x q.x, greater p.x q.x, lesser p.y q.y, greater p.y q.y⟩

/-- The angle by which a shape is turned. -/
def rotation : Inputs → Float
  | rect _ _ _ _ _ _ rotation => orZero rotation
  | _ => 0

/-- How a shape is checked against the view box. -/
def check (b : Builder) : Inputs → Action Registry Unit
  | rect left right width top bottom height rotation =>
    checkRect b (extent left right width) (extent top bottom height) (orZero rotation)
  | i => b.checkBounds i.bounds

end Shape.Inputs

/-- The properties that place a shape of a kind. -/
def Shape.geometry : String → List String
  | "rect" => rectGeometry
  | "circle" => circleGeometry
  | "point" => dotGeometry
  | "line" => lineGeometry
  | _ => []

/-! ## Reading them -/

/-- The sizes of a rectangle that are given, as anchors. -/
def Shape.sizeAnchors (width height : Option Float) : Anchors :=
  (width.toList.map fun w => ("width", .number w)) ++
    height.toList.map fun h => ("height", .number h)

/-- The registry once the sizes of a rectangle are known: those that are given
    have been published. -/
def Registry.measured (r : Registry) (id : ShapeId) (width height : Option Float) : Registry :=
  if width.isSome ∨ height.isSome then r.published id (Shape.sizeAnchors width height) else r

/-- What the properties of a shape stand for, each read with those anchors that
    are published when its turn comes. -/
def Shape.Inputs.Read (r : Registry) (id : ShapeId) (props : Members) : Inputs → Prop
  | rect left right width top bottom height rotation =>
    let r' := r.measured id width height
    r.Reads id props ["width"] width ∧
    (r.measured id width none).Reads id props ["height"] height ∧
    r'.Reads id props ["x", "left"] left ∧ r'.Reads id props ["right"] right ∧
    r'.Reads id props ["y", "top"] top ∧ r'.Reads id props ["bottom"] bottom ∧
    r'.Reads id props ["rotation"] rotation
  | circle cx cy radius =>
    let r' := r.published id [("r", .number (orZero radius))]
    r.Reads id props ["r"] radius ∧ r'.Reads id props ["centerX"] cx ∧
    r'.Reads id props ["centerY"] cy
  | dot x y => r.Reads id props ["x"] x ∧ r.Reads id props ["y"] y
  | line p q => r.ReadsEnd id props "from" "x1" "y1" p ∧ r.ReadsEnd id props "to" "x2" "y2" q

/-! ## Gathering them -/

/-- The sizes of a rectangle, which are published as soon as they are known. -/
def Shape.gatherSizes (b : Builder) (props : Members) :
    Action Registry (Builder × Option Float × Option Float) := do
  let width ← b.optional props ["width"] (some "x")
  let b ← publishSize b [] "width" width
  let height ← b.optional props ["height"] (some "y")
  let b ← publishSize b b.published "height" height
  return (b, width, height)

/-- What places a rectangle of known sizes. -/
def Shape.gatherPlace (props : Members) (b : Builder) (width height : Option Float) :
    Action Registry Inputs := do
  let left ← aliased b props "x" "left" "x"
  let right ← b.optional props ["right"] (some "x")
  let top ← aliased b props "y" "top" "y"
  let bottom ← b.optional props ["bottom"] (some "y")
  let rotation ← b.optional props ["rotation"] none
  let _ ← span b left right width ("x", "right", "width")
  let _ ← span b top bottom height ("y", "bottom", "height")
  return .rect left right width top bottom height rotation

def Shape.gatherRect (b : Builder) (props : Members) : Action Registry Inputs := do
  let (b, width, height) ← gatherSizes b props
  gatherPlace props b width height

/-- The centre of a circle of a known radius. -/
def Shape.gatherCentre (props : Members) (b : Builder) (radius : Option Float) :
    Action Registry Inputs := do
  let cx ← b.optional props ["centerX"] (some "x")
  let cy ← b.optional props ["centerY"] (some "y")
  return .circle cx cy radius

def Shape.gatherCircle (b : Builder) (props : Members) : Action Registry Inputs := do
  let r ← b.optional props ["r"] none
  let b ← b.publishPartial [("r", .float (orZero r))]
  gatherCentre props b r

def Shape.gatherDot (b : Builder) (props : Members) : Action Registry Inputs := do
  let x ← b.optional props ["x"] (some "x")
  let y ← b.optional props ["y"] (some "y")
  return .dot x y

def Shape.gatherLine (b : Builder) (props : Members) : Action Registry Inputs := do
  let p ← lineEnd b props "from" "x1" "y1"
  let q ← lineEnd b props "to" "x2" "y2"
  return .line p q

/-- The inputs of a shape of a kind. -/
def Shape.gather : String → Builder → Members → Action Registry Inputs
  | "rect" => gatherRect
  | "circle" => gatherCircle
  | "point" => gatherDot
  | "line" => gatherLine
  | kind => fun _ _ => throw (.unknownKind kind)

/-- The inputs settle how a shape concludes. -/
def Shape.concludeWith (id : ShapeId) (kind : String) (props : Members) (i : Inputs) :
    Action Registry (Builder × Members) :=
  conclude id i.anchors (withOthers i.drawn props (geometry kind))
    (i.check { id, published := i.anchors, isFinal := true })

namespace Shape

/-- The warning of a span is given before its extent is used, which does not
    depend on it. -/
theorem span_bind {α : Type} (b : Builder) (start stop size : Option Float)
    (names : String × String × String) (f : Extent → Action Registry α) :
    (span b start stop size names >>= f) =
      span b start stop size names >>= fun _ => f (extent start stop size) := by
  unfold span
  split_ifs <;> simp only [bind_assoc, pure_bind]

/-- The builder changes when a size is published, but it stays that of the same
    shape. -/
theorem publishSize_bind_congr {α : Type} {b : Builder} {known : Members} {name : String}
    {size : Option Float} {f g : Builder → Action Registry α}
    (h : ∀ b', b'.id = b.id → f b' = g b') :
    publishSize b known name size >>= f = publishSize b known name size >>= g := by
  cases size with
  | none =>
    simp only [publishSize, pure_bind]
    exact h b rfl
  | some x =>
    simp only [publishSize, Builder.publishPartial, bind_assoc, pure_bind]
    exact bind_congr fun _ => h _ rfl

/-- A rectangle is settled by its seven numbers, its warnings apart. -/
theorem rect_eq (b : Builder) (props : Members) :
    rect b props = gatherRect b props >>= concludeWith b.id "rect" props := by
  simp only [rect, gatherRect, gatherSizes, gatherPlace, bind_assoc, pure_bind]
  refine bind_congr fun width => publishSize_bind_congr fun b₁ hb₁ => bind_congr fun height =>
    publishSize_bind_congr fun b₂ hb₂ => bind_congr fun left => bind_congr fun right =>
    bind_congr fun top => bind_congr fun bottom => bind_congr fun rotation => ?_
  rw [span_bind]
  refine bind_congr fun _ => ?_
  rw [span_bind]
  refine bind_congr fun _ => ?_
  rw [conclude_eq, concludeWith, hb₂, hb₁]
  rfl

theorem circle_eq (b : Builder) (props : Members) :
    circle b props = gatherCircle b props >>= concludeWith b.id "circle" props := by
  simp only [circle, gatherCircle, gatherCentre, bind_assoc, pure_bind, Builder.publish,
    Builder.publishPartial]
  rfl

theorem dot_eq (b : Builder) (props : Members) :
    dot b props = gatherDot b props >>= concludeWith b.id "point" props := by
  simp only [dot, gatherDot, bind_assoc, pure_bind, Builder.publish, Builder.publishPartial]
  rfl

theorem line_eq (b : Builder) (props : Members) :
    line b props = gatherLine b props >>= concludeWith b.id "line" props := by
  simp only [line, gatherLine, bind_assoc, pure_bind, Builder.publish, Builder.publishPartial]
  rfl

/-- A shape gathers its inputs and concludes with them. -/
theorem realizer_eq {kind : String} {run : Realizer} (hk : kinds.get? kind = some run) (b : Builder)
    (props : Members) : run b props = gather kind b props >>= concludeWith b.id kind props := by
  simp only [kinds, Table.get?, beq_iff_eq] at hk
  split_ifs at hk with hrect hcircle hdot hline <;> cases hk
  · exact hrect ▸ rect_eq b props
  · exact hcircle ▸ circle_eq b props
  · exact hdot ▸ dot_eq b props
  · exact hline ▸ line_eq b props

/-! ## What is gathered -/

variable {b : Builder} {props : Members} {s s' : Journaled Registry}

/-- Anchors that can be told, under an id that can be kept, are published. -/
theorem register_apply {id : ShapeId} (hid : id.asKey = .ok id) {members : Members} {as : Anchors}
    (has : Anchors.ofMembers id members = .ok as) (s : Journaled Registry) :
    ∃ j, Registry.register id members s = (.ok (), ⟨s.state.published id as, j⟩) := by
  rw [Registry.register, has, hid]
  exact ⟨_, rfl⟩

theorem publishPartial_apply (hid : b.id.asKey = .ok b.id) {members : Members} {as : Anchors}
    (has : Anchors.ofMembers b.id members = .ok as) (s : Journaled Registry) :
    ∃ j, b.publishPartial members s =
      (.ok { b with published := members }, ⟨s.state.published b.id as, j⟩) := by
  obtain ⟨j, hj⟩ := register_apply hid has s
  refine ⟨j, ?_⟩
  rw [Builder.publishPartial, bind_apply, hj]
  rfl

/-- A size is published, together with what has been published before, if it is
    given. -/
theorem publishSize_apply (hid : b.id.asKey = .ok b.id) (name : String) (size : Option Float)
    {as : Anchors} (has : Anchors.ofMembers b.id (sized b.published name size) = .ok as)
    (s : Journaled Registry) :
    ∃ b' s', publishSize b b.published name size s = (.ok b', s') ∧ b'.id = b.id ∧
      b'.published = sized b.published name size ∧
      s'.state = if size.isSome then s.state.published b.id as else s.state := by
  cases size with
  | none => exact ⟨b, s, rfl, rfl, rfl, rfl⟩
  | some x =>
    obtain ⟨j, hj⟩ := publishPartial_apply hid has s
    exact ⟨_, _, hj, rfl, rfl, rfl⟩

/-- The sizes that are given are anchors of a shape as they are. -/
theorem ofMembers_sized (id : ShapeId) (width height : Option Float) :
    Anchors.ofMembers id (sized (sized [] "width" width) "height" height) =
      .ok (sizeAnchors width height) := by
  cases width <;> cases height <;> rfl

theorem anchors_measured_width {id : ShapeId} {r r₁ : Registry} (width : Option Float)
    (h : r₁.anchors = r.anchors) :
    (if width.isSome then r₁.published id (sizeAnchors width none) else r₁).anchors =
      (r.measured id width none).anchors := by
  cases width <;> simp [Registry.measured, Registry.published, h]

/-- Anchors that have been published are replaced when anchors are published
    again. -/
theorem anchors_measured {id : ShapeId} (hid : id.asKey = .ok id) {r r₁ : Registry}
    (width height : Option Float) (h : r₁.anchors = (r.measured id width none).anchors) :
    (if height.isSome then r₁.published id (sizeAnchors width height) else r₁).anchors =
      (r.measured id width height).anchors := by
  cases width <;> cases height <;>
    simp_all [Registry.measured, Registry.published,
      Table.insert_insert _ _ _ (ShapeId.beq_self hid)]

/-- The sizes are gathered if they can be read, the height with the width among
    the anchors. -/
theorem gatherSizes_apply (hid : b.id.asKey = .ok b.id) (hb : b.published = [])
    {width height : Option Float} (hwidth : s.state.Reads b.id props ["width"] width)
    (hheight : (s.state.measured b.id width none).Reads b.id props ["height"] height) :
    ∃ b' s', gatherSizes b props s = (.ok (b', width, height), s') ∧ b'.id = b.id ∧
      s'.state.anchors = (s.state.measured b.id width height).anchors ∧
      s'.state.config = s.state.config := by
  obtain ⟨s₁, hw, hs₁⟩ := (Gets.optional b props ["width"] (some .x)).exists_apply_eq_ok hwidth
  obtain ⟨b₁, s₂, hp, hb₁, hp₁, hs₂⟩ := publishSize_apply hid "width" width
    (by rw [hb]; exact ofMembers_sized b.id width none) s₁
  have h₂ : s₂.state.anchors = (s.state.measured b.id width none).anchors :=
    hs₂ ▸ anchors_measured_width width hs₁.anchors
  rw [← Registry.reads_of_anchors_eq b.id h₂, ← hb₁] at hheight
  obtain ⟨s₃, hh, hs₃⟩ := (Gets.optional b₁ props ["height"] (some .y)).exists_apply_eq_ok hheight
  obtain ⟨b₂, s₄, hp', hb₂, hp₂, hs₄⟩ := publishSize_apply (hb₁ ▸ hid) "height" height
    (by rw [hp₁, hb]; exact ofMembers_sized b₁.id width height) s₃
  refine ⟨b₂, s₄, ?_, hb₂.trans hb₁, ?_, ?_⟩
  · rw [hb] at hp
    exact bind_eq_ok.2 ⟨_, _, hw, bind_eq_ok.2 ⟨_, _, hp, bind_eq_ok.2 ⟨_, _, hh,
      bind_eq_ok.2 ⟨_, _, hp', rfl⟩⟩⟩⟩
  · rw [hs₄, hb₁]
    exact anchors_measured hid width height (hs₃.anchors.trans h₂)
  · calc s₄.state.config = s₃.state.config := by rw [hs₄]; split_ifs <;> rfl
      _ = s₂.state.config := hs₃.config
      _ = s₁.state.config := by rw [hs₂]; split_ifs <;> rfl
      _ = s.state.config := hs₁.config

/-- Sizes that are gathered are those that can be read. -/
theorem gatherSizes_eq_ok (hid : b.id.asKey = .ok b.id) (hb : b.published = [])
    {b' : Builder} {width height : Option Float}
    (h : gatherSizes b props s = (.ok (b', width, height), s')) :
    s.state.Reads b.id props ["width"] width ∧
      (s.state.measured b.id width none).Reads b.id props ["height"] height ∧ b'.id = b.id ∧
      s'.state.anchors = (s.state.measured b.id width height).anchors ∧
      s'.state.config = s.state.config := by
  obtain ⟨w, s₁, hw, ht⟩ := bind_eq_ok.1 h
  obtain ⟨hwidth, hs₁⟩ := (Gets.optional b props ["width"] (some .x)).apply_eq_ok hw
  obtain ⟨b₁, s₂, hp, hb₁, hp₁, hs₂⟩ := publishSize_apply hid "width" w
    (by rw [hb]; exact ofMembers_sized b.id w none) s₁
  have h₂ : s₂.state.anchors = (s.state.measured b.id w none).anchors :=
    hs₂ ▸ anchors_measured_width w hs₁.anchors
  rw [hb] at hp
  rw [bind_apply, hp] at ht
  obtain ⟨n, s₃, hh, ht⟩ := bind_eq_ok.1 ht
  obtain ⟨hheight, -⟩ := (Gets.optional b₁ props ["height"] (some .y)).apply_eq_ok hh
  rw [Registry.reads_of_anchors_eq b₁.id h₂, hb₁] at hheight
  obtain ⟨_, _, _, ht⟩ := bind_eq_ok.1 ht
  cases ht
  obtain ⟨_, _, h', hrest⟩ := gatherSizes_apply hid hb hwidth hheight
  cases h.symm.trans h'
  exact ⟨hwidth, hheight, hrest⟩

/-! ### The kinds of shapes -/

/-- What places a rectangle is read with its sizes among the anchors. -/
theorem gets_gatherPlace (props : Members) (b : Builder) (width height : Option Float) :
    Gets b.id (fun r i => ∃ left right top bottom rotation,
      r.Reads b.id props ["x", "left"] left ∧ r.Reads b.id props ["right"] right ∧
      r.Reads b.id props ["y", "top"] top ∧ r.Reads b.id props ["bottom"] bottom ∧
      r.Reads b.id props ["rotation"] rotation ∧
      i = Inputs.rect left right width top bottom height rotation)
      (gatherPlace props b width height) :=
  ((Gets.aliased b props "x" "left" .x).bind fun left =>
    (Gets.optional b props ["right"] (some .x)).bind fun right =>
    (Gets.aliased b props "y" "top" .y).bind fun top =>
    (Gets.optional b props ["bottom"] (some .y)).bind fun bottom =>
    (Gets.optional b props ["rotation"] none).bind fun _ =>
    (Gets.span b left right width _).bind fun _ => (Gets.span b top bottom height _).bind fun _ =>
    Gets.pure _).of_iff fun r i => by
      constructor
      · rintro ⟨left, hl, right, hr, top, ht, bottom, hb, rotation, hrot, _, -, _, -, rfl⟩
        exact ⟨left, right, top, bottom, rotation, hl, hr, ht, hb, hrot, rfl⟩
      · rintro ⟨left, right, top, bottom, rotation, hl, hr, ht, hb, hrot, rfl⟩
        exact ⟨left, hl, right, hr, top, ht, bottom, hb, rotation, hrot, _, rfl, _, rfl, rfl⟩

/-- The centre of a circle is read with its radius among the anchors. -/
theorem gets_gatherCentre (props : Members) (b : Builder) (radius : Option Float) :
    Gets b.id (fun r i => ∃ cx cy, r.Reads b.id props ["centerX"] cx ∧
      r.Reads b.id props ["centerY"] cy ∧ i = Inputs.circle cx cy radius)
      (gatherCentre props b radius) :=
  ((Gets.optional b props ["centerX"] (some .x)).bind fun _ =>
    (Gets.optional b props ["centerY"] (some .y)).bind fun _ => Gets.pure _).of_iff fun r i => by
      constructor
      · rintro ⟨cx, hx, cy, hy, rfl⟩
        exact ⟨cx, cy, hx, hy, rfl⟩
      · rintro ⟨cx, cy, hx, hy, rfl⟩
        exact ⟨cx, hx, cy, hy, rfl⟩

theorem gets_gatherDot (b : Builder) (props : Members) :
    Gets b.id (fun r i => ∃ x y, i = Inputs.dot x y ∧ i.Read r b.id props) (gatherDot b props) :=
  ((Gets.optional b props ["x"] (some .x)).bind fun _ =>
    (Gets.optional b props ["y"] (some .y)).bind fun _ => Gets.pure _).of_iff fun r i => by
      constructor
      · rintro ⟨x, hx, y, hy, rfl⟩
        exact ⟨x, y, rfl, hx, hy⟩
      · rintro ⟨x, y, rfl, hx, hy⟩
        exact ⟨x, hx, y, hy, rfl⟩

theorem gets_gatherLine (b : Builder) (props : Members) :
    Gets b.id (fun r i => ∃ p q, i = Inputs.line p q ∧ i.Read r b.id props) (gatherLine b props) :=
  ((Gets.lineEnd b props "from" "x1" "y1").bind fun _ =>
    (Gets.lineEnd b props "to" "x2" "y2").bind fun _ => Gets.pure _).of_iff fun r i => by
      constructor
      · rintro ⟨p, hp, q, hq, rfl⟩
        exact ⟨p, q, rfl, hp, hq⟩
      · rintro ⟨p, q, rfl, hp, hq⟩
        exact ⟨p, hp, q, hq, rfl⟩

/-- A rectangle gathers the inputs that its properties stand for, and no
    others. -/
theorem gatherRect_eq_ok_iff (hid : b.id.asKey = .ok b.id) (hb : b.published = []) {i : Inputs} :
    (∃ s', gatherRect b props s = (.ok i, s')) ↔
      i.kind = "rect" ∧ i.Read s.state b.id props := by
  constructor
  · rintro ⟨s', h⟩
    obtain ⟨⟨b', width, height⟩, s₁, hs, h⟩ := bind_eq_ok.1 h
    obtain ⟨hwidth, hheight, hb', ha, -⟩ := gatherSizes_eq_ok hid hb hs
    obtain ⟨⟨left, right, top, bottom, rotation, hl, hr, ht, hbot, hrot, rfl⟩, -⟩ :=
      (gets_gatherPlace props b' width height).apply_eq_ok h
    rw [Registry.reads_of_anchors_eq b'.id ha, hb'] at hl hr ht hbot hrot
    exact ⟨rfl, hwidth, hheight, hl, hr, ht, hbot, hrot⟩
  · rintro ⟨hk, hi⟩
    obtain ⟨_, _, _, _, _, _, _, rfl⟩ := Inputs.exists_rect hk
    obtain ⟨hwidth, hheight, hl, hr, ht, hbot, hrot⟩ := hi
    obtain ⟨b₁, s₁, hs, hb₁, ha, -⟩ := gatherSizes_apply hid hb hwidth hheight
    rw [← Registry.reads_of_anchors_eq b.id ha, ← hb₁] at hl hr ht hbot hrot
    obtain ⟨s₂, hs₂, -⟩ := (gets_gatherPlace props b₁ _ _).exists_apply_eq_ok
      ⟨_, _, _, _, _, hl, hr, ht, hbot, hrot, rfl⟩
    exact ⟨s₂, bind_eq_ok.2 ⟨_, _, hs, hs₂⟩⟩

/-- So does a circle. -/
theorem gatherCircle_eq_ok_iff (hid : b.id.asKey = .ok b.id) {i : Inputs} :
    (∃ s', gatherCircle b props s = (.ok i, s')) ↔
      i.kind = "circle" ∧ i.Read s.state b.id props := by
  have hp : ∀ (r₀ : Option Float) (s₁ : Journaled Registry), Registry.Asked b.id s.state s₁.state →
      ∃ b₁ s₂, b.publishPartial [("r", .float (orZero r₀))] s₁ = (.ok b₁, s₂) ∧ b₁.id = b.id ∧
        s₂.state.anchors = (s.state.published b.id [("r", .number (orZero r₀))]).anchors := by
    intro r₀ s₁ hs₁
    have has : Anchors.ofMembers b.id [("r", .float (orZero r₀))] =
        .ok [("r", .number (orZero r₀))] := rfl
    obtain ⟨j, hj⟩ := publishPartial_apply hid has s₁
    exact ⟨_, _, hj, rfl, by rw [Registry.published, hs₁.anchors]; rfl⟩
  constructor
  · rintro ⟨s', h⟩
    obtain ⟨r₀, s₁, hs, h⟩ := bind_eq_ok.1 h
    obtain ⟨hr, hs₁⟩ := (Gets.optional b props ["r"] none).apply_eq_ok hs
    obtain ⟨b₁, s₂, hs₂, hb₁, ha⟩ := hp r₀ s₁ hs₁
    rw [bind_apply, hs₂] at h
    obtain ⟨⟨cx, cy, hx, hy, rfl⟩, -⟩ := (gets_gatherCentre props b₁ r₀).apply_eq_ok h
    rw [Registry.reads_of_anchors_eq b₁.id ha, hb₁] at hx hy
    exact ⟨rfl, hr, hx, hy⟩
  · rintro ⟨hk, hi⟩
    obtain ⟨cx, cy, r₀, rfl⟩ := Inputs.exists_circle hk
    obtain ⟨hr, hx, hy⟩ := hi
    obtain ⟨s₁, hs, hs₁⟩ := (Gets.optional b props ["r"] none).exists_apply_eq_ok hr
    obtain ⟨b₁, s₂, hs₂, hb₁, ha⟩ := hp r₀ s₁ hs₁
    rw [← Registry.reads_of_anchors_eq b.id ha, ← hb₁] at hx hy
    obtain ⟨s₃, hs₃, -⟩ := (gets_gatherCentre props b₁ r₀).exists_apply_eq_ok
      ⟨cx, cy, hx, hy, rfl⟩
    exact ⟨s₃, bind_eq_ok.2 ⟨_, _, hs, bind_eq_ok.2 ⟨_, _, hs₂, hs₃⟩⟩⟩

/-- A shape gathers what its properties stand for, and fails if one of those
    that are read stands for nothing. -/
theorem gather_eq_ok_iff {kind : String} {run : Realizer} (hk : kinds.get? kind = some run)
    (hid : b.id.asKey = .ok b.id) (hb : b.published = []) {i : Inputs} :
    (∃ s', gather kind b props s = (.ok i, s')) ↔ i.kind = kind ∧ i.Read s.state b.id props := by
  simp only [kinds, Table.get?, beq_iff_eq] at hk
  split_ifs at hk with hrect hcircle hdot hline
  · exact hrect ▸ gatherRect_eq_ok_iff hid hb
  · exact hcircle ▸ gatherCircle_eq_ok_iff hid
  · subst hdot
    constructor
    · rintro ⟨s', h⟩
      obtain ⟨⟨x, y, rfl, hi⟩, -⟩ := (gets_gatherDot b props).apply_eq_ok h
      exact ⟨rfl, hi⟩
    · rintro ⟨hk, hi⟩
      obtain ⟨x, y, rfl⟩ := Inputs.exists_dot hk
      obtain ⟨s', hs', -⟩ := (gets_gatherDot b props).exists_apply_eq_ok ⟨x, y, rfl, hi⟩
      exact ⟨s', hs'⟩
  · subst hline
    constructor
    · rintro ⟨s', h⟩
      obtain ⟨⟨p, q, rfl, hi⟩, -⟩ := (gets_gatherLine b props).apply_eq_ok h
      exact ⟨rfl, hi⟩
    · rintro ⟨hk, hi⟩
      obtain ⟨p, q, rfl⟩ := Inputs.exists_line hk
      obtain ⟨s', hs', -⟩ := (gets_gatherLine b props).exists_apply_eq_ok ⟨p, q, rfl, hi⟩
      exact ⟨s', hs'⟩

/-! ### What is left behind -/

/-- To publish anchors is to place them. -/
theorem places_register (id : ShapeId) (members : Members) :
    Frames (Registry.Places id) (Registry.register id members) :=
  (Registry.staging_addsBlock "" id).register members

theorem places_publishPartial_bind {α : Type} {members : Members} {f : Builder → Action Registry α}
    (hf : ∀ b', b'.id = b.id → Frames (Registry.Places b.id) (f b')) :
    Frames (Registry.Places b.id) (b.publishPartial members >>= f) := by
  rw [Builder.publishPartial, bind_assoc]
  refine (places_register b.id members).bind fun _ => ?_
  rw [pure_bind]
  exact hf _ rfl

theorem places_publishSize_bind {α : Type} {known : Members} {name : String} {size : Option Float}
    {f : Builder → Action Registry α}
    (hf : ∀ b', b'.id = b.id → Frames (Registry.Places b.id) (f b')) :
    Frames (Registry.Places b.id) (publishSize b known name size >>= f) := by
  cases size with
  | none => exact hf b rfl
  | some x => exact places_publishPartial_bind hf

/-- A shape places its own anchors while it gathers, and does nothing else. -/
theorem places_gather (kind : String) (b : Builder) (props : Members) :
    Frames (Registry.Places b.id) (gather kind b props) := by
  unfold gather
  split
  · rw [gatherRect, gatherSizes]
    simp only [bind_assoc, pure_bind]
    refine (Gets.optional b props ["width"] (some .x)).places.bind fun _ =>
      places_publishSize_bind fun b₁ hb₁ => ?_
    rw [← hb₁]
    refine (Gets.optional b₁ props ["height"] (some .y)).places.bind fun _ =>
      places_publishSize_bind fun b₂ hb₂ => ?_
    rw [← hb₂]
    exact (gets_gatherPlace props b₂ _ _).places
  · refine (Gets.optional b props ["r"] none).places.bind fun _ =>
      places_publishPartial_bind fun b₁ hb₁ => ?_
    rw [← hb₁]
    exact (gets_gatherCentre props b₁ _).places
  · exact (gets_gatherDot b props).places
  · exact (gets_gatherLine b props).places
  · exact frames_throw _

/-! ## Conclusions -/

/-- Whatever is gathered, the final anchors are numbers and points. -/
theorem exists_anchors (id : ShapeId) (i : Inputs) :
    ∃ as, Anchors.ofMembers id i.anchors = .ok as := by
  cases i <;> exact ⟨_, rfl⟩

/-- A shape is checked as the box that it is in unless it is turned, and then
    as another one. There is no other one if the angle is infinite. -/
theorem check_cases (i : Inputs) (b : Builder) :
    ((isTurned i.rotation = true ∧ Rotation.ofDegrees? i.rotation = none) ∧
      i.check b = throw .infiniteAngle) ∨
    ¬ (isTurned i.rotation = true ∧ Rotation.ofDegrees? i.rotation = none) ∧
      ∃ box, (isTurned i.rotation = false → box = i.bounds) ∧
        i.check b = Registry.checkBounds b.id box := by
  have hzero : isTurned 0 = false := by decide +kernel
  cases i with
  | circle | dot | line => exact .inr ⟨by simp [Inputs.rotation, hzero], _, fun _ => rfl, rfl⟩
  | rect left right width top bottom height rotation =>
    simp only [Inputs.rotation, Inputs.check, checkRect]
    cases isTurned (orZero rotation) with
    | false => exact .inr ⟨fun h => Bool.false_ne_true h.1, _, fun _ => rfl, rfl⟩
    | true =>
      rw [if_pos rfl, Registry.checkTurnedBounds, Rotation.turn, Rotation.ofDegrees]
      cases Rotation.ofDegrees? (orZero rotation) with
      | none => exact .inl ⟨⟨rfl, rfl⟩, rfl⟩
      | some r =>
        exact .inr ⟨fun h => Option.some_ne_none r h.2, _,
          fun h => absurd h.symm Bool.false_ne_true, rfl⟩

/-- What a shape that is realized has done to the registry, and what it gives
    back. -/
structure Realized (r : Registry) (id : ShapeId) (kind : String) (props : Members) (i : Inputs)
    (out : Builder × Members) (r' : Registry) : Prop where
  ofKind : i.kind = kind
  read : i.Read r id props
  out : out = ({ id, published := i.anchors, isFinal := true },
    withOthers i.drawn props (geometry kind))
  anchors : ∃ as, Anchors.ofMembers id i.anchors = .ok as ∧ r'.anchorsOf id = .ok as
  diagnostics : ∃ placing box, (∀ message ∈ placing, Registry.IsPlacing r.config message) ∧
    (isTurned i.rotation = false → box = i.bounds) ∧
    r'.diagnostics = r.diagnostics ++
      (placing ++ Registry.outside box r.viewBox).map (⟨.warning, id, ·⟩)

variable {kind : String} {run : Realizer} {id : ShapeId} {i : Inputs}

/-- A shape whose inputs can all be read is realized, unless it is turned by an
    infinite angle. Even then its anchors are published. -/
theorem run_cases (hk : kinds.get? kind = some run) (hid : id.asKey = .ok id)
    (hkind : i.kind = kind) (hread : i.Read s.state id props) :
    ((isTurned i.rotation = true ∧ Rotation.ofDegrees? i.rotation = none) ∧
      ∃ s', run { id } props s = (.error .infiniteAngle, s') ∧
        ∃ as, Anchors.ofMembers id i.anchors = .ok as ∧ s'.state.anchorsOf id = .ok as) ∨
    ¬ (isTurned i.rotation = true ∧ Rotation.ofDegrees? i.rotation = none) ∧
      ∃ out s', run { id } props s = (.ok out, s') ∧
        Realized s.state id kind props i out s'.state := by
  obtain ⟨s₁, hs₁⟩ := (gather_eq_ok_iff hk (b := { id }) hid rfl).2 ⟨hkind, hread⟩
  have hp := places_gather kind { id } props s
  obtain ⟨as, has⟩ := exists_anchors id i
  obtain ⟨j, hj⟩ := register_apply hid has s₁
  rw [hs₁] at hp
  rw [realizer_eq hk, bind_apply, hs₁]
  dsimp only
  rw [concludeWith, conclude, bind_apply, hj]
  dsimp only
  have hpub : (s₁.state.published id as).anchorsOf id = .ok as :=
    Registry.anchorsOf_eq_ok.2 ⟨hid, Table.get?_insert_of_beq _ _ (ShapeId.beq_self hid)⟩
  obtain ⟨hangle, hc⟩ | ⟨hangle, box, hbox, hc⟩ :=
    check_cases i { id, published := i.anchors, isFinal := true }
  · left
    rw [hc]
    exact ⟨hangle, _, rfl, as, has, hpub⟩
  · right
    obtain ⟨j', hj'⟩ := Registry.does_checkBounds id box ⟨s₁.state.published id as, j⟩
    rw [hc, bind_apply, hj']
    refine ⟨hangle, _, _, rfl, hkind, hread, rfl, ⟨as, has, hpub⟩, ?_⟩
    obtain ⟨placing, hplacing, hd⟩ := hp.diagnostics
    refine ⟨placing, box, hplacing, hbox, ?_⟩
    change s₁.state.diagnostics ++ (Registry.outside box s₁.state.viewBox).map _ = _
    rw [hd, hp.viewBox, List.map_append, List.append_assoc]

theorem asKey_of_register {members : Members} {u : Unit}
    (h : Registry.register id members s = (.ok u, s')) : id.asKey = .ok id := by
  obtain ⟨e, he⟩ | ⟨as, -, hid, -⟩ := Registry.register_cases id members
  · rw [he] at h
    cases h
  · exact hid

/-- A shape that is realized has an id that can be kept. -/
theorem asKey_of_run (hk : kinds.get? kind = some run) {out : Builder × Members}
    (h : run { id } props s = (.ok out, s')) : id.asKey = .ok id := by
  rw [realizer_eq hk] at h
  obtain ⟨i, s₁, -, h⟩ := bind_eq_ok.1 h
  obtain ⟨_, s₂, h, -⟩ := bind_eq_ok.1 h
  exact asKey_of_register h

/-- What a shape does that is realized is settled by what its properties stand
    for. -/
theorem exists_realized (hk : kinds.get? kind = some run) {out : Builder × Members}
    (h : run { id } props s = (.ok out, s')) :
    ∃ i, Realized s.state id kind props i out s'.state := by
  have hid := asKey_of_run hk h
  have hr := h
  rw [realizer_eq hk] at hr
  obtain ⟨i, s₁, hi, -⟩ := bind_eq_ok.1 hr
  obtain ⟨hkind, hread⟩ := (gather_eq_ok_iff hk (b := { id }) hid rfl).1 ⟨s₁, hi⟩
  obtain ⟨-, s₂, he, -⟩ | ⟨-, out', s₂, he, hrealized⟩ := run_cases hk hid hkind hread
  · rw [h] at he
    cases he
  · rw [h] at he
    cases he
    exact ⟨i, hrealized⟩

/-- The properties of a shape stand for one thing only. -/
theorem Realized.eq_of_read (hk : kinds.get? kind = some run) (hid : id.asKey = .ok id)
    {out : Builder × Members} (h : Realized s.state id kind props i out s'.state) {j : Inputs}
    (hkind : j.kind = kind) (hread : j.Read s.state id props) : i = j := by
  obtain ⟨s₁, hi⟩ := (gather_eq_ok_iff hk (b := { id }) hid rfl).2 ⟨h.ofKind, h.read⟩
  obtain ⟨s₂, hj⟩ := (gather_eq_ok_iff hk (b := { id }) hid rfl).2 ⟨hkind, hread⟩
  rw [hi] at hj
  cases hj
  rfl

end Shape

end AnchorLayout
