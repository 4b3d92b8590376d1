import AnchorLayout.Proofs.Pass.Course

/-!
# The diagnostics of a pass

Each shape of a pass adds warnings of its own at the end. First come those that
its properties call for, on references to anchors of the other axis and on
properties that are not needed (`Registry.IsPlacing`); they are followed by
those on the edges of the shape that lie beyond the view box (`Edge.Warns`),
from the left edge to the bottom (`Registry.Block`). So the diagnostics of a
pass are made up of one such block for each shape, in order, no matter how the
pass ends (`runPass_diagnostics`).
-/

namespace AnchorLayout

open AnchorLayout.Action

/-! ## Edges -/

/-- An edge of a box. -/
inductive Edge where
  | left
  | top
  | right
  | bottom
  deriving DecidableEq

namespace Edge

/-- All edges, in the order in which they are warned of. -/
def all : List Edge := [left, top, right, bottom]

/-- The warning on an edge that lies beyond that of a view box. -/
inductive Warns (v : ViewBox) : Edge → String → Prop
  | left {x : Float} (h : x < v.minX) :
    Warns v .left (Registry.edgeWarning "Left" x "is outside" "minX" v.minX)
  | top {y : Float} (h : y < v.minY) :
    Warns v .top (Registry.edgeWarning "Top" y "is outside" "minY" v.minY)
  | right {x : Float} (h : v.maxX < x) :
    Warns v .right (Registry.edgeWarning "Right" x "extends beyond" "maxX" v.maxX)
  | bottom {y : Float} (h : v.maxY < y) :
    Warns v .bottom (Registry.edgeWarning "Bottom" y "extends beyond" "maxY" v.maxY)

/-- Warnings on edges, each at most once and in their order, and none without a
    view box. -/
def Warnings (messages : List String) : Option ViewBox → Prop
  | none => messages = []
  | some v => ∃ edges, List.Sublist edges all ∧ List.Forall₂ (Warns v) edges messages

theorem warnings_nil (viewBox : Option ViewBox) : Warnings [] viewBox := by
  cases viewBox with
  | none => rfl
  | some v => exact ⟨[], List.nil_sublist all, .nil⟩

/-- A box has four edges to be warned of. -/
theorem Warnings.length_le {messages : List String} {viewBox : Option ViewBox}
    (h : Warnings messages viewBox) : messages.length ≤ 4 := by
  cases viewBox with
  | none => exact h ▸ Nat.zero_le 4
  | some v =>
    obtain ⟨edges, hsub, hwarns⟩ := h
    exact hwarns.length_eq ▸ hsub.length_le

theorem Warnings.exists_warns {messages : List String} {viewBox : Option ViewBox}
    (h : Warnings messages viewBox) {message : String} (hmessage : message ∈ messages) :
    ∃ v edge, Warns v edge message := by
  cases viewBox with
  | none =>
    cases h
    cases hmessage
  | some v =>
    obtain ⟨edges, -, hwarns⟩ := h
    induction hwarns with
    | nil => cases hmessage
    | cons hedge _ ih =>
      obtain rfl | hmessage := List.mem_cons.1 hmessage
      · exact ⟨v, _, hedge⟩
      · exact ih hmessage

/-- A warning that is given on a condition only warns of the first of some
    edges, or of none. -/
theorem exists_warns_cons {v : ViewBox} {edge : Edge} {c : Prop} [Decidable c] {message : String}
    (h : c → Warns v edge message) {edges rest : List Edge} {messages : List String}
    (hsub : List.Sublist edges rest) (hwarns : List.Forall₂ (Warns v) edges messages) :
    ∃ edges, List.Sublist edges (edge :: rest) ∧
      List.Forall₂ (Warns v) edges ((if c then [message] else []) ++ messages) := by
  split_ifs with hc
  · exact ⟨edge :: edges, hsub.cons_cons edge, .cons (h hc) hwarns⟩
  · exact ⟨edges, hsub.cons edge, hwarns⟩

/-- A check of a box gives warnings on its edges. -/
theorem warnings_outside (b : Bounds) (viewBox : Option ViewBox) :
    Warnings (Registry.outside b viewBox) viewBox := by
  cases viewBox with
  | none => rfl
  | some v =>
    -- From the last edge to the first, each may
    -- be in front of those that are warned of.
    obtain ⟨_, hsub, h⟩ := exists_warns_cons (@Warns.bottom v b.bottom) (List.nil_sublist []) .nil
    obtain ⟨_, hsub, h⟩ := exists_warns_cons (@Warns.right v b.right) hsub h
    obtain ⟨_, hsub, h⟩ := exists_warns_cons (@Warns.top v b.top) hsub h
    obtain ⟨edges, hsub, h⟩ := exists_warns_cons (@Warns.left v b.left) hsub h
    rw [List.append_nil, ← List.append_assoc, ← List.append_assoc] at h
    exact ⟨edges, hsub, h⟩

end Edge

/-! ## One shape -/

namespace Registry

/-- The warnings that the properties of a shape call for: one of them is not
    needed, or there is a reference to an anchor of the other axis in one. -/
inductive IsPlacing (config : AxisConfig) : String → Prop
  | conflict {message : String} (h : Shape.IsConflict message) : IsPlacing config message
  | mismatch {axis : Axis} {property text message : String} {e : Expr Value}
    (he : expression text = .ok e) (h : message ∈ mismatches config axis property text e) :
    IsPlacing config message

/-- The diagnostics on a shape: warnings that its properties call for, and then
    warnings on its edges. -/
inductive Block (config : AxisConfig) (viewBox : Option ViewBox) (id : ShapeId) :
    List Diagnostic → Prop
  | mk {placing edges : List String} (hplacing : ∀ message ∈ placing, IsPlacing config message)
    (hedges : Edge.Warnings edges viewBox) :
    Block config viewBox id ((placing ++ edges).map (⟨.warning, id, ·⟩))

/-- Nothing but warnings on its own shapes stands in the diagnostics of a
    pass. -/
theorem warning_of_mem_blocks {config : AxisConfig} {viewBox : Option ViewBox} {ids : List ShapeId}
    {blocks : List (List Diagnostic)} (h : List.Forall₂ (Block config viewBox) ids blocks)
    {d : Diagnostic} (hd : d ∈ blocks.flatten) : d.severity = .warning ∧ d.id ∈ ids := by
  induction h with
  | nil => cases hd
  | cons hblock _ ih =>
    rw [List.flatten_cons, List.mem_append] at hd
    obtain hd | hd := hd
    · obtain ⟨-, -⟩ := hblock
      obtain ⟨message, -, rfl⟩ := List.mem_map.1 hd
      exact ⟨rfl, List.mem_cons_self⟩
    · exact (ih hd).imp_right (List.mem_cons_of_mem _)

/-- What a text begins with does not depend on what follows. -/
theorem head?_append {s : String} {c : Char} (h : s.toList.head? = some c) (t : String) :
    (s ++ t).toList.head? = some c := by
  rw [String.toList_append, List.head?_append, h, Option.some_or]

/-- A warning on an axis and one on a conflict are told apart by their first
    letters. -/
theorem head?_of_mem_mismatches {config : AxisConfig} {axis : Axis} {property text message : String}
    {e : Expr Value} (h : message ∈ mismatches config axis property text e) :
    message.toList.head? = some 'P' := by
  obtain ⟨anchor, -, h⟩ := List.mem_filterMap.1 h
  split at h
  · cases h
  · split_ifs at h
    cases h
    iterate 10 refine head?_append ?_ _
    rfl

theorem head?_of_isConflict {message : String} (h : Shape.IsConflict message) :
    message.toList.head? = some 'C' := by
  obtain ⟨name, other⟩ | ⟨start, stop, size⟩ | ⟨point, x, y⟩ := h
  · unfold Shape.aliasIgnored
    iterate 6 refine head?_append ?_ _
    rfl
  · unfold Shape.endIgnored
    iterate 8 refine head?_append ?_ _
    rfl
  · unfold Shape.coordinatesIgnored
    iterate 6 refine head?_append ?_ _
    rfl

/-- The texts of warnings tell what they warn of. -/
theorem not_isConflict_of_mem_mismatches {config : AxisConfig} {axis : Axis}
    {property text message : String} {e : Expr Value}
    (h : message ∈ mismatches config axis property text e) : ¬Shape.IsConflict message := by
  intro hc
  cases (head?_of_isConflict hc).symm.trans (head?_of_mem_mismatches h)

theorem head?_of_isPlacing {config : AxisConfig} {message : String} (h : IsPlacing config message) :
    message.toList.head? = some 'C' ∨ message.toList.head? = some 'P' := by
  cases h with
  | conflict h => exact .inl (head?_of_isConflict h)
  | mismatch he h => exact .inr (head?_of_mem_mismatches h)

theorem head?_edgeWarning {edge : String} {c : Char} (h : edge.toList.head? = some c) (x : Float)
    (relation limitName : String) (limit : Float) :
    (edgeWarning edge x relation limitName limit).toList.head? = some c := by
  unfold edgeWarning
  iterate 9 refine head?_append ?_ _
  exact h

/-- The texts of warnings tell which part of a block they belong to. -/
theorem not_isPlacing_of_warns {config : AxisConfig} {v : ViewBox} {edge : Edge} {message : String}
    (h : Edge.Warns v edge message) : ¬ IsPlacing config message := by
  obtain ⟨c, hc, hmessage⟩ : ∃ c, (c ≠ 'C' ∧ c ≠ 'P') ∧ message.toList.head? = some c := by
    cases h with
    | left => exact ⟨'L', by decide, head?_edgeWarning rfl ..⟩
    | top => exact ⟨'T', by decide, head?_edgeWarning rfl ..⟩
    | right => exact ⟨'R', by decide, head?_edgeWarning rfl ..⟩
    | bottom => exact ⟨'B', by decide, head?_edgeWarning rfl ..⟩
  intro hp
  obtain h | h := head?_of_isPlacing hp <;> rw [hmessage] at h <;> cases h
  · exact hc.1 rfl
  · exact hc.2 rfl

/-- What the shape `id` changes before it concludes, as far as diagnostics
    go. -/
structure Places (id : ShapeId) (r r' : Registry) : Prop where
  config : r'.config = r.config
  viewBox : r'.viewBox = r.viewBox
  diagnostics : ∃ placing : List String, (∀ message ∈ placing, IsPlacing r.config message) ∧
    r'.diagnostics = r.diagnostics ++ placing.map (⟨.warning, id, ·⟩)

/-- What the shape `id` changes, as far as diagnostics go. -/
structure AddsBlock (id : ShapeId) (r r' : Registry) : Prop where
  config : r'.config = r.config
  viewBox : r'.viewBox = r.viewBox
  diagnostics : ∃ block, Block r.config r.viewBox id block ∧
    r'.diagnostics = r.diagnostics ++ block

variable {id : ShapeId} {r r' r'' : Registry}

instance : IsPreorder Registry (Places id) where
  refl _ := ⟨rfl, rfl, [], nofun, (List.append_nil _).symm⟩
  trans _ _ _ h h' := by
    obtain ⟨placing, hp, hd⟩ := h.diagnostics
    obtain ⟨placing', hp', hd'⟩ := h'.diagnostics
    refine ⟨h'.config.trans h.config, h'.viewBox.trans h.viewBox, placing ++ placing',
      List.forall_mem_append.2 ⟨hp, h.config ▸ hp'⟩, ?_⟩
    rw [hd', hd, List.append_assoc, List.map_append]

theorem places_warned {messages : List String}
    (h : ∀ message ∈ messages, IsPlacing r.config message) : Places id r (r.warned id messages) :=
  ⟨rfl, rfl, messages, h, rfl⟩

theorem places_published (as : Anchors) : Places id r (r.published id as) :=
  ⟨rfl, rfl, [], nofun, (List.append_nil _).symm⟩

theorem Places.trans_addsBlock (h : Places id r r') (h' : AddsBlock id r' r'') :
    AddsBlock id r r'' := by
  obtain ⟨placing, hp, hd⟩ := h.diagnostics
  obtain ⟨_, ⟨hp', he⟩, hd'⟩ := h'.diagnostics
  rw [h.config] at hp'
  rw [h.viewBox] at he
  refine ⟨h'.config.trans h.config, h'.viewBox.trans h.viewBox, _,
    .mk (List.forall_mem_append.2 ⟨hp, hp'⟩) he, ?_⟩
  rw [hd', hd, List.append_assoc, ← List.map_append, List.append_assoc]

theorem block_edges {config : AxisConfig} {viewBox : Option ViewBox} {edges : List String}
    (h : Edge.Warnings edges viewBox) :
    Block config viewBox id (edges.map (⟨.warning, id, ·⟩)) := by
  have hplacing : ∀ message ∈ ([] : List String), IsPlacing config message := nofun
  exact .mk hplacing h

theorem addsBlock_warned {messages : List String} (h : Edge.Warnings messages r.viewBox) :
    AddsBlock id r (r.warned id messages) :=
  ⟨rfl, rfl, _, block_edges h, rfl⟩

/-- A shape that fails before it concludes adds no more. -/
theorem Places.addsBlock (h : Places id r r') : AddsBlock id r r' :=
  h.trans_addsBlock ⟨rfl, rfl, _, block_edges (Edge.warnings_nil _), (List.append_nil _).symm⟩

theorem asking_places (id : ShapeId) :
    Asking (fun ⦃_⦄ a => Frames (Places id) a) (fun _ => True) id :=
  frames_asking fun he _ _ _ => places_warned fun _ => .mismatch he

/-- The warnings on edges come when the shape concludes, and so behind all
    others. -/
theorem staging_addsBlock (kind : String) (id : ShapeId) :
    Staging (fun ⦃_⦄ a => Frames (Places id) a) (fun a => Frames (AddsBlock id) a) (fun _ => True)
      kind id where
  toAsking := asking_places id
  report message hm := (does_report id message).frames fun r =>
    places_warned (List.forall_mem_singleton.2 (.conflict hm))
  register members := by
    obtain ⟨e, he⟩ | ⟨as, -, -, he⟩ := register_cases id members
    · rw [he]
      exact frames_throw e
    · exact he.frames fun _ => places_published as
  before := by
    intro α a f ha hf s
    have hs := ha s
    rw [bind_apply]
    generalize a s = t at hs ⊢
    obtain ⟨e | x, s₁⟩ := t
    · exact hs.addsBlock
    · exact hs.trans_addsBlock (hf x s₁)
  conclude := by
    intro members check _ hc drawn s
    obtain ⟨e, he⟩ | ⟨as, j, -, ⟨e, he⟩ | ⟨b, he⟩⟩ := conclude_cases hc members drawn s
    all_goals rw [he]
    · exact (refl s.state : Places id s.state s.state).addsBlock
    · exact (places_published as).addsBlock
    · exact (places_published as).trans_addsBlock
        (addsBlock_warned (Edge.warnings_outside b s.state.viewBox))

end Registry

/-! ## Passes -/

namespace Pass

open Registry (Block Places AddsBlock)

/-- A shape that comes next adds a block of its own, empty if it is refused. -/
theorem addsBlock_stage (before : List ShapeSpec) (d : ShapeSpec) (r : Registry) :
    AddsBlock (idAfter before d) r (stage Shape.kinds before d r).2 := by
  obtain ⟨e, he⟩ | ⟨run, hk, hid, -, he⟩ := stage_cases Shape.kinds before d r
  · rw [he]
    exact (refl r : Places (idAfter before d) r r).addsBlock
  · rw [he]
    have hrun := (Registry.staging_addsBlock d.kind (idAfter before d)).realizer
      (b := { id := idAfter before d }) hk d.props (fun _ _ => trivial) ⟨r, {}⟩
    obtain ⟨e, -, he⟩ | ⟨b, drawn, -, -, he⟩ | ⟨b, drawn, j, -, -, he⟩ :=
      realize_split run d.kind hid (!d.declares) d.props ⟨r, {}⟩
    all_goals rw [he]
    · exact hrun
    · exact hrun
    · exact ⟨hrun.config, hrun.viewBox, hrun.diagnostics⟩

/-- A shape that the pass does not get to adds an empty block. -/
theorem addsBlock_course_concat (before : List ShapeSpec) (d : ShapeSpec) (r : Registry) :
    AddsBlock (idAfter before d) (course Shape.kinds before r).2
      (course Shape.kinds (before ++ [d]) r).2 := by
  rcases h : course Shape.kinds before r with ⟨e | _, r₁⟩
  · -- The pass does not come to this shape.
    rw [course_concat_of_error throughBuilder_kinds h]
    exact (refl r₁ : Places (idAfter before d) r₁ r₁).addsBlock
  · rw [course_concat_of_ok throughBuilder_kinds h]
    exact addsBlock_stage before d r₁

/-- The diagnostics that a pass has added, block by block. -/
theorem exists_blocks (r₀ : Registry) (shapes : List ShapeSpec) (h₀ : r₀.diagnostics = []) :
    let r := (course Shape.kinds shapes r₀).2
    r.config = r₀.config ∧ r.viewBox = r₀.viewBox ∧
    ∃ blocks, List.Forall₂ (Block r₀.config r₀.viewBox) (ids shapes) blocks ∧
      ∀ before after, shapes = before ++ after →
        (course Shape.kinds before r₀).2.diagnostics = (blocks.take before.length).flatten := by
  induction shapes using List.reverseRecOn with
  | nil =>
    refine ⟨rfl, rfl, [], .nil, fun before after h => ?_⟩
    obtain ⟨rfl, -⟩ := List.append_eq_nil_iff.1 h.symm
    exact h₀
  | append_singleton shapes d ih =>
    obtain ⟨hconfig, hviewBox, blocks, hblocks, hd⟩ := ih
    have hadds := addsBlock_course_concat shapes d r₀
    obtain ⟨block, hblock, hd'⟩ := hadds.diagnostics
    rw [hconfig, hviewBox] at hblock
    have hlength : blocks.length = shapes.length := by rw [← hblocks.length_eq, length_ids]
    refine ⟨hadds.config.trans hconfig, hadds.viewBox.trans hviewBox, blocks ++ [block], ?_,
      fun before after h => ?_⟩
    · rw [ids_concat]
      exact List.rel_append hblocks (.cons hblock .nil)
    · -- The shapes before are all of them, or all of them are among the first ones.
      rcases List.eq_nil_or_concat after with rfl | ⟨after, c, rfl⟩
      · rw [List.append_nil] at h
        rw [← h, hd', hd shapes [] (List.append_nil _).symm, List.take_of_length_le hlength.le,
          List.take_of_length_le (by simp [hlength]), List.flatten_append, List.flatten_singleton]
      · rw [List.concat_eq_append, ← List.append_assoc] at h
        obtain ⟨rfl, -⟩ := List.append_inj' h rfl
        rw [hd before after rfl, List.take_append_of_le_length]
        rw [hlength, List.length_append]
        exact Nat.le_add_right _ _

end Pass

/-- However a pass ends, its diagnostics are warnings on its shapes, in blocks,
    one for each shape in order, which may be empty: first those that the
    properties of the shape call for, and then at most one for each edge that
    lies beyond the view box in effect, from the left one to the bottom one.
    The blocks of the first shapes are the diagnostics of the pass over
    these. -/
theorem runPass_diagnostics (shapes : List ShapeSpec) (viewBox : Option ViewBox)
    (s : Journaled Registry) :
    let diagnostics := (runPass shapes viewBox s).2.state.diagnostics
    (∀ d ∈ diagnostics, d.severity = .warning ∧ d.id ∈ Pass.ids shapes) ∧
    ∃ blocks, diagnostics = blocks.flatten ∧
      List.Forall₂ (Registry.Block s.state.config (viewBox.or s.state.viewBox)) (Pass.ids shapes)
        blocks ∧
      ∀ before after, shapes = before ++ after →
        (runPass before viewBox s).2.state.diagnostics = (blocks.take before.length).flatten := by
  intro diagnostics
  obtain ⟨-, -, blocks, hblocks, hd⟩ :=
    Pass.exists_blocks (s.state.opened viewBox) shapes rfl
  have htaken : ∀ before after, shapes = before ++ after →
      (runPass before viewBox s).2.state.diagnostics = (blocks.take before.length).flatten := by
    intro before after h
    rw [(runPass_eq_course before viewBox s).2]
    exact hd before after h
  have hall : diagnostics = blocks.flatten := by
    refine (htaken shapes [] (List.append_nil _).symm).trans ?_
    rw [← Pass.length_ids, hblocks.length_eq, List.take_length]
  exact ⟨fun d hd => Registry.warning_of_mem_blocks hblocks (hall ▸ hd), blocks, hall, hblocks,
    htaken⟩

/-- A circle beyond all edges of the view box, a rectangle with an alias that
    is not needed and a reference to the other axis, and a line that fails. -/
theorem runPass_diagnostics_circle :
    let shapes : List ShapeSpec := [⟨"circle", .text "a", [("r", .int 20)]⟩,
      ⟨"rect", .datum .null 0, [("x", .text "#a.top"), ("left", .int 1), ("y", .int 3)]⟩,
      ⟨"line", .text "b", [("from", .list [.text "#a.left", .text "$self.top"])]⟩]
    let v : ViewBox := ⟨0, 0, 10, 10⟩
    let one := runPass shapes (some v) ⟨{}, {}⟩
    one.1.isOk = false ∧
    (∃ blocks, one.2.state.diagnostics = blocks.flatten ∧
      List.Forall₂ (Registry.Block .standard (some v)) (Pass.ids shapes) blocks) ∧
    one.2.state.diagnostics.map Diagnostic.text =
      ["[warning] a: Left edge (-20) is outside viewBox (minX=0)",
        "[warning] a: Top edge (-20) is outside viewBox (minY=0)",
        "[warning] a: Right edge (20) extends beyond viewBox (maxX=10)",
        "[warning] a: Bottom edge (20) extends beyond viewBox (maxY=10)",
        "[warning] rect-1: Conflicting positioning: \"x\" and \"left\" are both set; " ++
          "\"left\" is ignored",
        "[warning] rect-1: Property \"x\" expects an x-axis value but \"#a.top\" uses y-axis " ++
          "anchor \"top\"",
        "[warning] rect-1: Left edge (-20) is outside viewBox (minX=0)"] := by
  intro shapes v one
  have hfail : one.1.isOk = false := by decide +kernel
  obtain ⟨-, blocks, hall, hblocks, -⟩ := runPass_diagnostics shapes (some v) ⟨{}, {}⟩
  exact ⟨hfail, ⟨blocks, hall, hblocks⟩, by decide +kernel⟩

end AnchorLayout
