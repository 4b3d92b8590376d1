import AnchorLayout.Proofs.Shape.IgnoredEnd
import AnchorLayout.Proofs.Shape.Record

/-!
# Properties that have precedence

A rectangle may be placed by `x` or by `left`, an end of a line by a point or
by two coordinates. Where both are given, the first has precedence
(`Shape.Precedence`): the other is hidden, and it is not even read. So it makes
no difference what stands there, be it no number, no expression or a reference
to nothing (`Shape.run_eq_of_sameBeside`). There is one warning of it, as soon
as the shape gets to read the pair.
-/

namespace AnchorLayout

open AnchorLayout.Action

/-! ## Properties beside others -/

namespace Members

variable {names geometry : List String} {props props' : Members}

/-- The properties are the same but for those of some names, in whatever places
    they stand. -/
def SameBeside (names : List String) (props props' : Members) : Prop :=
  (props'.filter fun p => !names.contains p.1) = props.filter fun p => !names.contains p.1

/-- What is not hidden is given as before. -/
theorem SameBeside.given?_eq (h : SameBeside names props props') {name : String}
    (hname : name ∉ names) : props'.given? name = props.given? name := by
  have hfilter (t : Members) :
      Table.get? (t.filter fun p => !names.contains p.1) name = t.get? name := by
    rw [Table.get?_filter t fun name => !names.contains name, if_pos (by simpa using hname)]
  rw [given?, given?, ← hfilter props', h, hfilter props]

theorem SameBeside.filter_eq (h : SameBeside names props props') (hsub : names ⊆ geometry) :
    (props'.filter fun p => !geometry.contains p.1) =
      props.filter fun p => !geometry.contains p.1 := by
  have hfilter (t : Members) : (t.filter fun p => !geometry.contains p.1) =
      (t.filter fun p => !names.contains p.1).filter fun p => !geometry.contains p.1 := by
    rw [List.filter_filter]
    refine List.filter_congr fun p _ => ?_
    by_cases hp : p.1 ∈ names
    · simp [hp, hsub hp]
    · simp [hp]
  rw [hfilter props', h, ← hfilter props]

end Members

/-! ## One warning among others -/

namespace Registry

variable {id : ShapeId} {w message : String}

/-- The shape `id` has been warned, but not of `w`. -/
def Spares (id : ShapeId) (w : String) (r r' : Registry) : Prop :=
  ∃ messages : List String, w ∉ messages ∧
    r'.diagnostics = r.diagnostics ++ messages.map (⟨.warning, id, ·⟩)

instance : IsPreorder Registry (Spares id w) where
  refl _ := ⟨[], List.not_mem_nil, (List.append_nil _).symm⟩
  trans _ _ _ := by
    rintro ⟨messages, hw, hd⟩ ⟨messages', hw', hd'⟩
    refine ⟨messages ++ messages', by simp [hw, hw'], ?_⟩
    rw [hd', hd, List.append_assoc, List.map_append]

/-- Other warnings do not count as the one that is spared. -/
theorem spares_warned {r : Registry} {messages : List String} (h : w ∉ messages) :
    Spares id w r (r.warned id messages) := ⟨messages, h, rfl⟩

theorem spares_published {r : Registry} (as : Anchors) : Spares id w r (r.published id as) :=
  ⟨[], List.not_mem_nil, (List.append_nil _).symm⟩

theorem spares_report (h : w ≠ message) : Frames (Spares id w) (report ⟨.warning, id, message⟩) :=
  (does_report id message).frames fun _ => spares_warned (by simpa using h)

/-- To publish anchors gives no warning. -/
theorem spares_register (members : Members) : Frames (Spares id w) (register id members) := by
  obtain ⟨e, he⟩ | ⟨as, -, -, hdoes⟩ := register_cases id members
  · rw [he]
    exact frames_throw e
  · exact hdoes.frames fun _ => spares_published as

/-- What a shape asks for calls for no warning of a conflict. -/
theorem asking_spares (id : ShapeId) (hw : Shape.IsConflict w) :
    Asking (fun ⦃_⦄ a => Frames (Spares id w) a) (fun _ => True) id :=
  frames_asking fun _ _ _ _ => spares_warned fun hmem => not_isConflict_of_mem_mismatches hmem hw

/-- The shape `id` is warned of `w` once if it gets as far as to the end of
    `before`, and else not at all. An action that ends with a result gets as
    far. -/
structure WarnsOnce {α : Type} (id : ShapeId) (w : String) (before : Action Registry Unit)
    (a : Action Registry α) : Prop where
  count : ∀ s, ∃ messages : List String,
    (a s).2.state.diagnostics = s.state.diagnostics ++ messages.map (⟨.warning, id, ·⟩) ∧
    messages.count w = if (before s).1.isOk then 1 else 0
  reached : ∀ ⦃s x s'⦄, a s = (.ok x, s') → (before s).1.isOk

section

variable {α β : Type} {a : Action Registry α} {f : α → Action Registry β}
  {before : Action Registry Unit}

/-- The warning comes first. -/
theorem warnsOnce_report (ha : Frames (Spares id w) a) :
    WarnsOnce id w (pure ()) (report ⟨.warning, id, w⟩ >>= fun _ => a) where
  count s := by
    obtain ⟨j, hj⟩ := does_report id w s
    obtain ⟨messages, hmessages, hd⟩ := ha ⟨s.state.warned id [w], j⟩
    refine ⟨w :: messages, ?_, ?_⟩
    · rw [bind_apply, hj, hd, warned, List.append_assoc, ← List.map_append]
      rfl
    · rw [List.count_cons_self, List.count_eq_zero_of_not_mem hmessages]
      rfl
  reached _ _ _ _ := rfl

/-- The warning comes in the first part. -/
theorem WarnsOnce.bind (ha : WarnsOnce id w before a) (hf : ∀ x, Frames (Spares id w) (f x)) :
    WarnsOnce id w before (a >>= f) where
  count s := by
    obtain ⟨messages, hd, hcount⟩ := ha.count s
    rw [bind_apply]
    cases hr : a s with | mk r s₁ =>
    rw [hr] at hd
    cases r with
    | error e => exact ⟨messages, hd, hcount⟩
    | ok x =>
      obtain ⟨messages', hmessages', hd'⟩ := hf x s₁
      refine ⟨messages ++ messages', ?_, ?_⟩
      · rw [hd', hd, List.append_assoc, List.map_append]
      · rw [List.count_append, List.count_eq_zero_of_not_mem hmessages', hcount, add_zero]
  reached s y s' h := by
    obtain ⟨x, s₁, hx, -⟩ := bind_eq_ok.1 h
    exact ha.reached hx

/-- The warning comes in the second part. -/
theorem WarnsOnce.after {g : α → Action Registry Unit} (ha : Frames (Spares id w) a)
    (hf : ∀ ⦃s x s₁⦄, a s = (.ok x, s₁) → WarnsOnce id w (g x) (f x)) :
    WarnsOnce id w (a >>= g) (a >>= f) where
  count s := by
    obtain ⟨messages, hmessages, hd⟩ := ha s
    rw [bind_apply, bind_apply]
    cases hr : a s with | mk r s₁ =>
    rw [hr] at hd
    cases r with
    | error e => exact ⟨messages, hd, List.count_eq_zero_of_not_mem hmessages⟩
    | ok x =>
      obtain ⟨messages', hd', hcount⟩ := (hf hr).count s₁
      refine ⟨messages ++ messages', ?_, ?_⟩
      · rw [hd', hd, List.append_assoc, List.map_append]
      · rw [List.count_append, List.count_eq_zero_of_not_mem hmessages, zero_add, hcount]
  reached s y s' h := by
    obtain ⟨x, s₁, hx, hy⟩ := bind_eq_ok.1 h
    rw [bind_apply, hx]
    exact (hf hx).reached hy

end

end Registry

/-! ## The parts of shapes -/

namespace Shape

open Registry (Spares WarnsOnce)

variable {b : Builder} {w : String} {props props' : Members}

theorem spares_aliased (hw : IsConflict w) {name other : String} (h : w ≠ aliasIgnored name other)
    (axis : String) : Frames (Spares b.id w) (aliased b props name other axis) := by
  unfold aliased
  have hread := (Registry.asking_spares b.id hw).optional (b := b) props [name, other] (some axis)
  split_ifs
  · exact (Registry.spares_report h).bind fun _ => hread
  · exact hread

theorem spares_span {names : String × String × String}
    (h : w ≠ endIgnored names.1 names.2.1 names.2.2) (start stop size : Option Float) :
    Frames (Spares b.id w) (span b start stop size names) := by
  unfold span
  split_ifs
  · exact (Registry.spares_report h).bind fun _ => frames_pure _
  · exact frames_pure _

theorem spares_lineEnd (hw : IsConflict w) {point x y : String}
    (h : w ≠ coordinatesIgnored point x y) :
    Frames (Spares b.id w) (lineEnd b props point x y) := by
  have hask := Registry.asking_spares b.id hw
  unfold lineEnd
  split
  · next v _ =>
    have hpoint := hask.point v (some point) fun _ _ => trivial
    split_ifs
    · exact (Registry.spares_report h).bind fun _ => hpoint
    · exact hpoint
  · exact hask.bind (hask.optional _ _ _) fun _ => hask.bind (hask.optional _ _ _) fun _ =>
      hask.pure _

theorem spares_publishSize (known : Members) (name : String) (size : Option Float) :
    Frames (Spares b.id w) (publishSize b known name size) := by
  cases size with
  | none => exact frames_pure b
  | some x => exact (Registry.spares_register _).bind fun _ => frames_pure _

theorem spares_gatherSizes (hw : IsConflict w) : Frames (Spares b.id w) (gatherSizes b props) := by
  have hask := Registry.asking_spares b.id hw
  refine hask.bind (hask.optional _ _ _) fun _ =>
    Frames.bind_of_eq_ok (spares_publishSize _ _ _) fun s b₁ s₁ h₁ => ?_
  -- The builder is another one now, but it is that of the same shape.
  rw [← (asKey_of_publishSize h₁).1] at hask ⊢
  exact hask.bind (hask.optional _ _ _) fun _ => hask.bind (spares_publishSize _ _ _) fun _ =>
    hask.pure _

/-- Warnings on edges are no warnings of a conflict. -/
theorem spares_conclude (hw : IsConflict w) {id : ShapeId} {check : Action Registry Unit}
    (hc : IsCheck id check) (members drawn : Members) :
    Frames (Spares id w) (conclude id members drawn check) := by
  intro s
  obtain ⟨e, he⟩ | ⟨as, j, -, ⟨e, he⟩ | ⟨bounds, he⟩⟩ :=
    Registry.conclude_cases hc members drawn s
  all_goals rw [he]
  · exact refl s.state
  · exact Registry.spares_published as
  · refine IsTrans.trans _ _ _ (Registry.spares_published as)
      (Registry.spares_warned fun hmem => ?_)
    obtain ⟨v, edge, hwarns⟩ := (Edge.warnings_outside bounds s.state.viewBox).exists_warns hmem
    have hplacing : Registry.IsPlacing s.state.config w := .conflict hw
    exact Registry.not_isPlacing_of_warns hwarns hplacing

/-! ## Pairs of which both are given -/

/-- Of two names that are both given the first is read, after a warning. -/
theorem aliased_eq_warn {name other : String} (hname : (props.given? name).isSome)
    (hother : (props.given? other).isSome) (axis : String) :
    aliased b props name other axis = (do
      b.warn (aliasIgnored name other)
      b.optional props [name] (some axis)) := by
  have hoptional : b.optional props [name, other] (some axis) =
      b.optional props [name] (some axis) := by
    have hfind (rest : List String) :
        (name :: rest).find? (fun name => (props.given? name).isSome) = some name :=
      List.find?_cons_of_pos (p := fun name => (props.given? name).isSome) hname
    rw [Builder.optional, Builder.optional, hfind, hfind]
  simp only [aliased, hname, hother, Bool.and_self, if_true, hoptional]

/-- A point that is given is read, after a warning if a coordinate is given
    too. -/
theorem lineEnd_eq_warn {point x y : String} (hpoint : (props.given? point).isSome)
    (hcoordinate : ∃ name ∈ [x, y], (props.given? name).isSome) :
    lineEnd b props point x y = (do
      b.warn (coordinatesIgnored point x y)
      b.point ((props.given? point).getD .null) (some point)) := by
  obtain ⟨v, hv⟩ := Option.isSome_iff_exists.1 hpoint
  have hxy : ((props.given? x).isSome || (props.given? y).isSome) = true := by
    simpa using hcoordinate
  simp only [lineEnd, hv, hxy, if_true, Option.getD_some]

/-- The second of two names is not read. -/
theorem aliased_hidden {name other : String} (hname : (props.given? name).isSome)
    (hother : (props.given? other).isSome) (hother' : (props'.given? other).isSome)
    (h : props'.given? name = props.given? name) (axis : String) :
    aliased b props' name other axis = aliased b props name other axis := by
  rw [aliased_eq_warn hname hother, aliased_eq_warn (h ▸ hname) hother',
    optional_congr (List.forall_mem_singleton.2 h)]

/-- Coordinates are not read beside a point. -/
theorem lineEnd_hidden {point x y : String} (hpoint : (props.given? point).isSome)
    (hcoordinate : ∃ name ∈ [x, y], (props.given? name).isSome)
    (hcoordinate' : ∃ name ∈ [x, y], (props'.given? name).isSome)
    (h : props'.given? point = props.given? point) :
    lineEnd b props' point x y = lineEnd b props point x y := by
  rw [lineEnd_eq_warn hpoint hcoordinate, lineEnd_eq_warn (h ▸ hpoint) hcoordinate', h]

theorem lineEnd_congr {point x y : String}
    (h : ∀ name ∈ [point, x, y], props'.given? name = props.given? name) :
    lineEnd b props' point x y = lineEnd b props point x y := by
  obtain ⟨hpoint, hx, hy⟩ := by simpa using h
  unfold lineEnd
  rw [hpoint, hx, hy, optional_congr (List.forall_mem_singleton.2 hx),
    optional_congr (List.forall_mem_singleton.2 hy)]

/-- A rectangle is settled by what its parts read, and by what it hands on. -/
theorem rect_congr
    (hx : ∀ b, aliased b props' "x" "left" "x" = aliased b props "x" "left" "x")
    (hy : ∀ b, aliased b props' "y" "top" "y" = aliased b props "y" "top" "y")
    (h : ∀ name ∈ ["width", "height", "right", "bottom", "rotation"],
      props'.given? name = props.given? name)
    (hfilter : (props'.filter fun p => !(geometry "rect").contains p.1) =
      props.filter fun p => !(geometry "rect").contains p.1) :
    rect b props' = rect b props := by
  have hoptional {b : Builder} {name : String}
      (hname : name ∈ ["width", "height", "right", "bottom", "rotation"]) (axis : Option String) :
      b.optional props' [name] axis = b.optional props [name] axis :=
    optional_congr (List.forall_mem_singleton.2 (h name hname)) axis
  have hsizes : gatherSizes b props' = gatherSizes b props :=
    gatherSizes_congr fun name hname => h name (List.mem_append_left _ hname)
  have hplace : gatherPlace props' = gatherPlace props := by
    funext b width height
    unfold gatherPlace
    rw [hx, hoptional (by simp), hy, hoptional (by simp), hoptional (by simp)]
  rw [rect_eq, rect_eq, gatherRect, gatherRect, hsizes, hplace, funext (concludeWith_congr hfilter)]

theorem line_congr
    (hp : lineEnd b props' "from" "x1" "y1" = lineEnd b props "from" "x1" "y1")
    (hq : lineEnd b props' "to" "x2" "y2" = lineEnd b props "to" "x2" "y2")
    (hfilter : (props'.filter fun p => !(geometry "line").contains p.1) =
      props.filter fun p => !(geometry "line").contains p.1) :
    line b props' = line b props := by
  rw [line_eq, line_eq, gatherLine, gatherLine, hp, hq, funext (concludeWith_congr hfilter)]

/-! ## The warning of a pair -/

section

variable {width height : Option Float}

/-- Two names for one property call for one warning. -/
theorem warnsOnce_aliased {name other : String} (hname : (props.given? name).isSome)
    (hother : (props.given? other).isSome) (axis : String) :
    WarnsOnce b.id (aliasIgnored name other) (pure ()) (aliased b props name other axis) := by
  rw [aliased_eq_warn hname hother]
  exact Registry.warnsOnce_report ((Registry.asking_spares b.id (.alias ..)).optional _ _ _)

theorem warnsOnce_lineEnd {point x y : String} (hpoint : (props.given? point).isSome)
    (hcoordinate : ∃ name ∈ [x, y], (props.given? name).isSome) :
    WarnsOnce b.id (coordinatesIgnored point x y) (pure ()) (lineEnd b props point x y) := by
  rw [lineEnd_eq_warn hpoint hcoordinate]
  exact Registry.warnsOnce_report
    ((Registry.asking_spares b.id (.coordinates ..)).point _ _ fun _ _ => trivial)

theorem spares_concludeWith (hw : IsConflict w) (kind : String) (i : Inputs) :
    Frames (Spares b.id w) (concludeWith b.id kind props i) := by
  refine spares_conclude hw ?_ _ _
  cases i with
  | rect => exact isCheck_rect { id := b.id, published := _, isFinal := true } ..
  | circle | dot | line => exact .bounds _

/-- The pair of `x` and `left` is the first of what places a rectangle of known
    sizes. -/
theorem warnsOnce_gatherPlace_x (hname : (props.given? "x").isSome)
    (hother : (props.given? "left").isSome) :
    WarnsOnce b.id (aliasIgnored "x" "left") (pure ()) (gatherPlace props b width height) := by
  have hw : IsConflict (aliasIgnored "x" "left") := .alias ..
  have hask := Registry.asking_spares b.id hw
  exact (warnsOnce_aliased hname hother _).bind fun _ => hask.bind (hask.optional _ _ _) fun _ =>
    hask.bind (spares_aliased hw (by decide) _) fun _ => hask.bind (hask.optional _ _ _) fun _ =>
    hask.bind (hask.optional _ _ _) fun _ => hask.bind (spares_span (by decide) _ _ _) fun _ =>
    hask.bind (spares_span (by decide) _ _ _) fun _ => hask.pure _

/-- The pair of `y` and `top` comes after it, and after the end along the other
    axis. -/
theorem warnsOnce_gatherPlace_y (hname : (props.given? "y").isSome)
    (hother : (props.given? "top").isSome) :
    WarnsOnce b.id (aliasIgnored "y" "top")
      (do
        let _ ← aliased b props "x" "left" "x"
        let _ ← b.optional props ["right"] (some "x"))
      (gatherPlace props b width height) := by
  have hw : IsConflict (aliasIgnored "y" "top") := .alias ..
  have hask := Registry.asking_spares b.id hw
  refine .after (spares_aliased hw (by decide) _) fun _ _ _ _ =>
    .after (hask.optional _ _ _) fun _ _ _ _ => ?_
  exact (warnsOnce_aliased hname hother _).bind fun _ => hask.bind (hask.optional _ _ _) fun _ =>
    hask.bind (hask.optional _ _ _) fun _ => hask.bind (spares_span (by decide) _ _ _) fun _ =>
    hask.bind (spares_span (by decide) _ _ _) fun _ => hask.pure _

theorem id_of_gatherSizes {b' : Builder} {s s' : Journaled Registry}
    (h : gatherSizes b props s = (.ok (b', width, height), s')) : b'.id = b.id := by
  obtain ⟨_, _, -, h⟩ := bind_eq_ok.1 h
  obtain ⟨_, _, hp, h⟩ := bind_eq_ok.1 h
  obtain ⟨_, _, -, h⟩ := bind_eq_ok.1 h
  obtain ⟨_, _, hp', h⟩ := bind_eq_ok.1 h
  cases h
  exact (asKey_of_publishSize hp').1.trans (asKey_of_publishSize hp).1

/-- A rectangle is warned of a pair when it is placed, after its sizes have
    been read. -/
theorem warnsOnce_rect (hw : IsConflict w) {before : Builder → Action Registry Unit}
    (h : ∀ b width height, WarnsOnce b.id w (before b) (gatherPlace props b width height)) :
    WarnsOnce b.id w (gatherSizes b props >>= fun sizes => before sizes.1) (rect b props) := by
  rw [rect_eq, gatherRect, bind_assoc]
  refine .after (spares_gatherSizes hw) fun s sizes s₁ hsizes => ?_
  have hid : sizes.1.id = b.id := id_of_gatherSizes hsizes
  rw [← hid]
  exact (h _ _ _).bind fun i => spares_concludeWith hw "rect" i

end

/-! ## Precedence -/

/-- The pairs of which the first has precedence. -/
inductive Precedence where
  | x
  | y
  | start
  | stop

namespace Precedence

/-- The kind of a shape with the pair. -/
def kind : Precedence → String
  | x | y => "rect"
  | start | stop => "line"

/-- The property that has precedence. -/
def name : Precedence → String
  | x => "x"
  | y => "y"
  | start => "from"
  | stop => "to"

/-- The properties that it hides. -/
def hidden : Precedence → List String
  | x => ["left"]
  | y => ["top"]
  | start => ["x1", "y1"]
  | stop => ["x2", "y2"]

/-- The warning that both are given. -/
def warning : Precedence → String
  | x => aliasIgnored "x" "left"
  | y => aliasIgnored "y" "top"
  | start => coordinatesIgnored "from" "x1" "y1"
  | stop => coordinatesIgnored "to" "x2" "y2"

/-- What a shape does before it reads the pair. -/
def before (b : Builder) (props : Members) : Precedence → Action Registry Unit
  | x => do let _ ← gatherSizes b props
  | y => do
    let (b, _, _) ← gatherSizes b props
    let _ ← aliased b props "x" "left" "x"
    let _ ← b.optional props ["right"] (some "x")
  | start => pure ()
  | stop => do let _ ← lineEnd b props "from" "x1" "y1"

/-- A pair of which both are given. -/
def Both (p : Precedence) (props : Members) : Prop :=
  (props.given? p.name).isSome ∧ ∃ name ∈ p.hidden, (props.given? name).isSome

variable {p : Precedence}

/-- What is hidden places the shape, and so is not handed on. -/
theorem hidden_subset (p : Precedence) : p.hidden ⊆ geometry p.kind := by
  cases p <;> decide

/-- The shape is warned of the pair once it gets to it, and then just once. -/
theorem warnsOnce {run : Realizer} (hrun : kinds.get? p.kind = some run) (h : p.Both props) :
    WarnsOnce b.id p.warning (p.before b props) (run b props) := by
  obtain ⟨hname, hhidden⟩ := h
  cases p with
  | x =>
    cases hrun
    exact warnsOnce_rect (.alias ..) fun b _ _ =>
      warnsOnce_gatherPlace_x hname (by simpa [hidden] using hhidden)
  | y =>
    cases hrun
    exact warnsOnce_rect (.alias ..) fun b _ _ =>
      warnsOnce_gatherPlace_y hname (by simpa [hidden] using hhidden)
  | start =>
    cases hrun
    change WarnsOnce b.id (coordinatesIgnored "from" "x1" "y1") (pure ()) (line b props)
    have hw : IsConflict (coordinatesIgnored "from" "x1" "y1") := .coordinates ..
    rw [line_eq, gatherLine, bind_assoc]
    exact (warnsOnce_lineEnd hname hhidden).bind fun _ =>
      ((spares_lineEnd hw (by decide)).bind fun _ => frames_pure _).bind fun i =>
        spares_concludeWith hw "line" i
  | stop =>
    cases hrun
    change WarnsOnce b.id (coordinatesIgnored "to" "x2" "y2") _ (line b props)
    have hw : IsConflict (coordinatesIgnored "to" "x2" "y2") := .coordinates ..
    rw [line_eq, gatherLine, bind_assoc]
    refine .after (spares_lineEnd hw (by decide)) fun _ _ _ _ => ?_
    rw [bind_assoc]
    refine (warnsOnce_lineEnd hname hhidden).bind fun _ => ?_
    rw [pure_bind]
    exact spares_concludeWith hw "line" _

/-- What is hidden is not read. -/
theorem run_congr {run : Realizer} (hrun : kinds.get? p.kind = some run) (h : p.Both props)
    (h' : p.Both props') (hsame : Members.SameBeside p.hidden props props') :
    run b props' = run b props := by
  have hgiven {names : List String} (hnames : ∀ name ∈ names, name ∉ p.hidden) :
      ∀ name ∈ names, props'.given? name = props.given? name :=
    fun name hname => hsame.given?_eq (hnames name hname)
  have hfilter := hsame.filter_eq (hidden_subset p)
  cases p with
  | x =>
    cases hrun
    refine rect_congr (fun b => ?_) (fun b => aliased_congr (hgiven (by decide)) _)
      (hgiven (by decide)) hfilter
    exact aliased_hidden h.1 (by simpa [hidden] using h.2) (by simpa [hidden] using h'.2)
      (hsame.given?_eq (by decide)) "x"
  | y =>
    cases hrun
    refine rect_congr (fun b => aliased_congr (hgiven (by decide)) _) (fun b => ?_)
      (hgiven (by decide)) hfilter
    exact aliased_hidden h.1 (by simpa [hidden] using h.2) (by simpa [hidden] using h'.2)
      (hsame.given?_eq (by decide)) "y"
  | start =>
    cases hrun
    exact line_congr (lineEnd_hidden h.1 h.2 h'.2 (hsame.given?_eq (by decide)))
      (lineEnd_congr (hgiven (by decide))) hfilter
  | stop =>
    cases hrun
    exact line_congr (lineEnd_congr (hgiven (by decide)))
      (lineEnd_hidden h.1 h.2 h'.2 (hsame.given?_eq (by decide))) hfilter

end Precedence

/-- Where a property is given that has precedence over others, and some of
    these are given too, it makes no difference to a shape what they are, be it
    another number, no expression at all or a reference to nothing: the shape
    does the same, to the same end. It is warned of the pair once, provided
    that it comes to read it, as it does if it is realized. -/
theorem run_eq_of_sameBeside (p : Precedence) {run : Realizer}
    (hrun : kinds.get? p.kind = some run) (b : Builder) {props props' : Members}
    (h : p.Both props) (h' : p.Both props')
    (hsame : Members.SameBeside p.hidden props props') :
    run b props' = run b props ∧
    ∀ s, (∃ messages : List String,
      (run b props s).2.state.diagnostics =
        s.state.diagnostics ++ messages.map (⟨.warning, b.id, ·⟩) ∧
      messages.count p.warning = if (p.before b props s).1.isOk then 1 else 0) ∧
      ((run b props s).1.isOk → (p.before b props s).1.isOk) := by
  have hwarns := p.warnsOnce (b := b) hrun h
  refine ⟨p.run_congr hrun h h' hsame, fun s => ⟨hwarns.count s, fun hok => ?_⟩⟩
  obtain ⟨out, hout⟩ := exists_eq_ok_of_isOk hok
  exact hwarns.reached (Prod.ext hout rfl)

/-- A line from a point, beside a reference to a shape that does not exist and
    beside a truth value and what is no expression. -/
theorem run_eq_of_sameBeside_line :
    let props : Members := [("from", .point ⟨1, 2⟩), ("x1", .text "#a.right"), ("x2", .int 20)]
    let props' : Members :=
      [("y1", .bool true), ("from", .point ⟨1, 2⟩), ("x2", .int 20), ("x1", .text "(")]
    let b : Builder := { id := .text "s" }
    (kinds.get? Precedence.start.kind = some line ∧ Precedence.start.Both props ∧
      Precedence.start.Both props' ∧
      Members.SameBeside Precedence.start.hidden props props') ∧
    line b props' = line b props ∧
    ∀ s, (∃ messages : List String,
      (line b props s).2.state.diagnostics =
        s.state.diagnostics ++ messages.map (⟨.warning, b.id, ·⟩) ∧
      messages.count Precedence.start.warning =
        if (Precedence.start.before b props s).1.isOk then 1 else 0) ∧
      ((line b props s).1.isOk → (Precedence.start.before b props s).1.isOk) := by
  intro props props' b
  have h : Precedence.start.Both props := ⟨rfl, "x1", by decide, rfl⟩
  have h' : Precedence.start.Both props' := ⟨rfl, "y1", by decide, rfl⟩
  have hsame : Members.SameBeside Precedence.start.hidden props props' := rfl
  exact ⟨⟨rfl, h, h', hsame⟩, run_eq_of_sameBeside .start rfl b h h' hsame⟩

end Shape

end AnchorLayout
