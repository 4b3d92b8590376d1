import AnchorLayout.Proofs.Pass.Exchange
import AnchorLayout.Proofs.Pass.Independence
import AnchorLayout.Proofs.Shape.Realization

/-!
# Ends that are not needed

A rectangle of which start, end and size are given along an axis is warned that
the end is ignored. It does not place the rectangle indeed
(`Shape.placeAfter_eq_placeRest`), but it is read all the same. So another end
in its place makes no difference as long as it makes none to this reading:
whether it fails and how, and what is warned of (`Registry.ReadAlike`). A
number in place of a reference to a missing shape makes one.
-/

namespace AnchorLayout

open AnchorLayout.Action

/-! ## Two actions -/

namespace Action

variable {σ α β : Type}

/-- From `s`, two actions end with the same result, or the same failure, in the
    same state. The journals are of no account. -/
def SameFrom (s : Journaled σ) (a a' : Action σ α) : Prop :=
  (a' s).1 = (a s).1 ∧ (a' s).2.state = (a s).2.state

/-- Sequences that begin with the same part do the same if they do so from
    where it ends. -/
theorem sameFrom_bind_iff {s : Journaled σ} {a : Action σ α} {f g : α → Action σ β} :
    SameFrom s (a >>= f) (a >>= g) ↔ ∀ x s₁, a s = (.ok x, s₁) → SameFrom s₁ (f x) (g x) := by
  rw [SameFrom, bind_apply, bind_apply]
  generalize a s = r
  obtain ⟨e | x, s₁⟩ := r
  · exact ⟨fun _ => nofun, fun _ => ⟨rfl, rfl⟩⟩
  · constructor
    · rintro h _ _ ⟨⟩
      exact h
    · exact fun h => h x s₁ rfl

end Action

/-! ## Names along an axis -/

namespace Axis

/-- The properties that give the start of a rectangle along an axis. -/
def starts : Axis → List String
  | .x => ["x", "left"]
  | .y => ["y", "top"]

/-- The property that gives the end of a rectangle along an axis. -/
def stop : Axis → String
  | .x => "right"
  | .y => "bottom"

/-- The property that gives the size of a rectangle along an axis. -/
def size : Axis → String
  | .x => "width"
  | .y => "height"

/-- What a rectangle reads after its sizes and before its end along an axis. -/
def earlier : Axis → List (List String)
  | .x => [Axis.x.starts]
  | .y => [Axis.x.starts, [Axis.x.stop], Axis.y.starts]

end Axis

/-! ## Reading one property -/

namespace Registry

variable {r r' : Registry} {id : ShapeId} {axis : Axis} {property : String} {v w : Value}

/-- The number that a datum stands for, or why it stands for none. -/
def reading (r : Registry) (id : ShapeId) (property : String) : Value → Except Failure Float
  | .bool _ => .error (.truthProperty id property)
  | .int n => (Value.int n).toFloat
  | .float x => .ok x
  | .text s => r.valueOf id.given? s
  | v => .error (.invalidProperty id property v)

/-- The warnings on anchors of the other axis in a datum that is an
    expression. -/
def crossings (config : AxisConfig) (axis : Axis) (property : String) : Value → List String
  | .text s =>
    match expression s with
    | .ok e => mismatches config axis property s e
    | .error _ => []
  | _ => []

/-- It makes no difference which of two data is read: both stand for numbers,
    or there are none for the same reason, and there are the same warnings. -/
structure ReadAlike (r : Registry) (id : ShapeId) (axis : Axis) (property : String)
    (v w : Value) : Prop where
  ends : ((∃ x, r.StandsFor id v x) ∧ ∃ x, r.StandsFor id w x) ∨
    ∃ e, r.reading id property v = .error e ∧ r.reading id property w = .error e
  warnings : crossings r.config axis property v = crossings r.config axis property w

/-- A property is read if it stands for a number. -/
theorem reading_eq_ok_iff {x : Float} : r.reading id property v = .ok x ↔ r.StandsFor id v x := by
  cases v with
  | int n =>
    rw [reading, StandsFor, Value.toFloat]
    cases Decimal.ofInt? n <;> simp
  | float y => rw [reading, StandsFor, Except.ok.injEq, eq_comm]
  | text s => exact Iff.rfl
  | null | bool | list | tuple | point | mapping | expr | array => simp [reading, StandsFor]

theorem reading_of_anchors_eq (h : r'.anchors = r.anchors) :
    r'.reading id property = r.reading id property := by
  funext v
  cases v <;> simp only [reading, valueOf_of_anchors_eq h]

theorem ReadAlike.congr (h : r.ReadAlike id axis property v w) (ha : r'.anchors = r.anchors)
    (hc : r'.config = r.config) : r'.ReadAlike id axis property v w :=
  ⟨by rw [reading_of_anchors_eq ha, standsFor_of_anchors_eq id ha]; exact h.ends,
    by rw [hc]; exact h.warnings⟩

/-- A property that is given is read as something. -/
theorem Reads.isSome {props : Members} {names : List String} {x : Option Float}
    (h : r.Reads id props names x) (hgiven : ∃ name ∈ names, (props.given? name).isSome) :
    x.isSome := by
  induction names with
  | nil =>
    obtain ⟨_, hname, -⟩ := hgiven
    cases hname
  | cons name names ih =>
    rw [Reads] at h
    cases hname : props.given? name with
    | some v =>
      rw [hname] at h
      obtain ⟨y, -, rfl⟩ := h
      rfl
    | none =>
      rw [hname] at h
      obtain ⟨name', hmem, hsome⟩ := hgiven
      obtain rfl | hmem := List.mem_cons.1 hmem
      · rw [hname] at hsome
        cases hsome
      · exact ih h ⟨name', hmem, hsome⟩

/-- Registries that differ in their last warnings only. -/
theorem alike_warned (r : Registry) (id : ShapeId) (messages messages' : List String)
    (j j' : Journal) :
    let s : Journaled Registry := ⟨r.warned id messages, j⟩
    let s' : Journaled Registry := ⟨r.warned id messages', j'⟩
    Alike "" s.state.diagnostics s'.state.diagnostics s.state s'.state := by
  intro s s'
  have h : SameBut "" s.state s'.state := ⟨rfl, rfl, rfl, rfl⟩
  exact ⟨h.beside, rfl, rfl⟩

/-- In warnings the end of a shape goes by its name. -/
theorem label_stop (axis : Axis) : Builder.warningLabel (some axis.stop) = axis.stop := by
  cases axis <;> rfl

/-- A builder that reads the end of a rectangle warns of it first. -/
theorem value_stop_apply (b : Builder) (v : Value) (axis : Axis) (s : Journaled Registry) :
    ∃ j, b.value v (some axis.name) (some axis.stop) s =
      (s.state.reading b.id axis.stop v,
        ⟨s.state.warned b.id (crossings s.state.config axis axis.stop v), j⟩) := by
  have hnil : s.state.warned b.id [] = s.state := by simp [warned]
  -- Nothing is warned of but in a text.
  have hstay {x : Except Failure Float} : (x, s) =
      (x, ⟨s.state.warned b.id [], s.journal⟩) := by rw [hnil]
  cases v with
  | text text =>
    simp only [Builder.value, label_stop]
    obtain ⟨err, he, hr, hs⟩ | ⟨e, he, hr, hs⟩ :=
      resolveOnAxis_known text axis.stop axis b.id (.byName b.id) s
    all_goals
      refine ⟨_, Prod.ext (hr.trans ?_) (congrArg₂ Journaled.mk (hs.trans ?_) rfl)⟩
      · rw [reading, valueOf, he]
        rfl
      · simp only [crossings, he, hnil]
  | int n => exact ⟨s.journal, (ofExcept_apply _ s).trans hstay⟩
  | null | bool | float | list | tuple | point | mapping | expr | array =>
    exact ⟨s.journal, hstay⟩

end Registry

section

variable {α : Type}

/-- Reads the end of a rectangle along an axis, and goes on with `rest`
    whatever it is. -/
def Builder.passEnd (b : Builder) (axis : Axis) (v : Value) (rest : Action Registry α) :
    Action Registry α :=
  b.value v (some axis.name) (some axis.stop) >>= fun _ => rest

variable {b : Builder} {axis : Axis} {v w : Value} {s : Journaled Registry}
  {rest : Action Registry α}

/-- Ends that are read alike are passed alike. -/
theorem sameFrom_passEnd (hrest : Transparent rest)
    (h : s.state.ReadAlike b.id axis axis.stop v w) :
    SameFrom s (b.passEnd axis v rest) (b.passEnd axis w rest) := by
  obtain ⟨j, hv⟩ := Registry.value_stop_apply b v axis s
  obtain ⟨j', hw⟩ := Registry.value_stop_apply b w axis s
  rw [SameFrom, Builder.passEnd, Builder.passEnd, bind_apply, bind_apply, hv, hw, ← h.warnings]
  obtain ⟨⟨x, hx⟩, y, hy⟩ | ⟨e, hx, hy⟩ := h.ends
  · rw [Registry.reading_eq_ok_iff.2 hx, Registry.reading_eq_ok_iff.2 hy]
    exact @hrest ⟨_, j'⟩ ⟨_, j⟩ rfl
  · rw [hx, hy]
    exact ⟨rfl, rfl⟩

/-- Ends that are passed alike are read alike, if what comes after them
    succeeds. -/
theorem readAlike_of_sameFrom (hrest : ∀ old old', Agrees (Registry.Alike "" old old') rest)
    (h : SameFrom s (b.passEnd axis v rest) (b.passEnd axis w rest)) {out : α}
    {s' : Journaled Registry} (hok : b.passEnd axis v rest s = (.ok out, s')) :
    s.state.ReadAlike b.id axis axis.stop v w := by
  obtain ⟨j, hv⟩ := Registry.value_stop_apply b v axis s
  obtain ⟨j', hw⟩ := Registry.value_stop_apply b w axis s
  rw [SameFrom, hok, Builder.passEnd, bind_apply, hw] at h
  rw [Builder.passEnd, bind_apply, hv] at hok
  cases hx : s.state.reading b.id axis.stop v with
  | error e =>
    rw [hx] at hok
    cases hok
  | ok x =>
    cases hy : s.state.reading b.id axis.stop w with
    | error e =>
      rw [hy] at h
      cases h.1
    | ok y =>
      refine ⟨.inl ⟨⟨x, Registry.reading_eq_ok_iff.1 hx⟩, y, Registry.reading_eq_ok_iff.1 hy⟩, ?_⟩
      rw [hx] at hok
      rw [hy] at h
      dsimp only at hok h
      -- The rest adds the same diagnostics to those of either reading.
      obtain ⟨-, halike⟩ := hrest _ _ (Registry.alike_warned s.state b.id _ _ j j')
      obtain ⟨new, hnew, hnew'⟩ := halike.diagnostics
      rw [hok] at hnew
      rw [h.2, hnew] at hnew'
      have hmap := List.append_cancel_left (List.append_cancel_right hnew')
      exact List.map_injective_iff.2 (fun _ _ he => (Diagnostic.mk.inj he).2.2) hmap

end

/-! ## The other properties -/

namespace Members

variable {props : Members} {name : String} {v : Value}

theorem given?_insert_self (hv : v ≠ .null) : given? (props.insert name v) name = some v := by
  rw [given?, Table.get?_insert_self]
  cases v with
  | null => exact absurd rfl hv
  | _ => rfl

/-- The end is a property of its own. -/
theorem given?_insert_of_ne {other : String} (h : name ≠ other) :
    given? (props.insert name v) other = props.given? other := by
  rw [given?, given?, Table.get?_insert_of_ne _ _ h]

end Members

theorem Table.filter_insert {κ α : Type} [BEq κ] [LawfulBEq κ] (t : Table κ α) {k : κ} (a : α)
    {p : κ → Bool} (hk : p k = false) :
    (t.insert k a).filter (fun e => p e.1) = t.filter fun e => p e.1 := by
  induction t with
  | nil => simp [insert, hk]
  | cons e t ih =>
    by_cases he : e.1 = k
    · simp [insert, he, hk]
    · simp [insert, he, List.filter_cons, ih]

namespace Shape

variable {b : Builder} {props props' : Members} {name : String} {v : Value}

theorem optional_congr {names : List String}
    (h : ∀ name ∈ names, props'.given? name = props.given? name) (axis : Option String) :
    b.optional props' names axis = b.optional props names axis := by
  have hfind : names.find? (fun name => (props'.given? name).isSome) =
      names.find? fun name => (props.given? name).isSome :=
    List.find?_congr fun name hname => by rw [h name hname]
  unfold Builder.optional
  rw [hfind]
  cases hname : names.find? fun name => (props.given? name).isSome with
  | none => rfl
  | some name =>
    dsimp only
    rw [h name (List.mem_of_find?_eq_some hname)]

theorem aliased_congr {main other : String}
    (h : ∀ name ∈ [main, other], props'.given? name = props.given? name) (axis : String) :
    aliased b props' main other axis = aliased b props main other axis := by
  unfold aliased
  rw [optional_congr h, h main List.mem_cons_self,
    h other (List.mem_cons_of_mem _ List.mem_cons_self)]

/-- The sizes do not depend on the end. -/
theorem gatherSizes_congr
    (h : ∀ name ∈ ["width", "height"], props'.given? name = props.given? name) :
    gatherSizes b props' = gatherSizes b props := by
  obtain ⟨hwidth, hheight⟩ := List.forall_mem_cons.1 h
  unfold gatherSizes
  rw [optional_congr (List.forall_mem_singleton.2 hwidth)]
  refine bind_congr fun _ => bind_congr fun _ => ?_
  rw [optional_congr hheight]

/-- What a shape is drawn with does not depend on the properties that place
    it. -/
theorem concludeWith_congr {id : ShapeId} {kind : String}
    (h : (props'.filter fun p => !(geometry kind).contains p.1) =
      props.filter fun p => !(geometry kind).contains p.1) (i : Inputs) :
    concludeWith id kind props' i = concludeWith id kind props i := by
  rw [concludeWith, concludeWith, withOthers, withOthers, h]

theorem given?_insert_of_notMem {names : List String} (h : name ∉ names) :
    ∀ other ∈ names, Members.given? (props.insert name v) other = props.given? other :=
  fun _ hother => Members.given?_insert_of_ne fun he => h (he ▸ hother)

theorem optional_insert {names : List String} (h : name ∉ names) (axis : Option String) :
    b.optional (props.insert name v) names axis = b.optional props names axis :=
  optional_congr (given?_insert_of_notMem h) axis

theorem aliased_insert {main other : String} (h : name ∉ [main, other]) (axis : String) :
    aliased b (props.insert name v) main other axis = aliased b props main other axis :=
  aliased_congr (given?_insert_of_notMem h) axis

theorem gatherSizes_insert (axis : Axis) :
    gatherSizes b (props.insert axis.stop v) = gatherSizes b props :=
  gatherSizes_congr (given?_insert_of_notMem (by cases axis <;> decide))

theorem concludeWith_insert {id : ShapeId} {kind : String} (h : name ∈ geometry kind) (i : Inputs) :
    concludeWith id kind (props.insert name v) i = concludeWith id kind props i :=
  concludeWith_congr (props.filter_insert v (p := fun name => !(geometry kind).contains name)
    (k := name) (by simp [h])) i

/-! ## What places a rectangle -/

/-- What is known of a rectangle when its end along an axis is read. -/
structure Placed where
  width : Option Float
  height : Option Float
  left : Option Float
  right : Option Float := none
  top : Option Float := none

namespace Placed

/-- The start along an axis. -/
def start (p : Placed) : Axis → Option Float
  | .x => p.left
  | .y => p.top

/-- The size along an axis. -/
def size (p : Placed) : Axis → Option Float
  | .x => p.width
  | .y => p.height

end Placed

/-- What is read between the sizes and the end along an axis. -/
def placeBefore (props : Members) (b : Builder) (width height : Option Float) :
    Axis → Action Registry Placed
  | .x => do
    let left ← aliased b props "x" "left" "x"
    return { width, height, left }
  | .y => do
    let left ← aliased b props "x" "left" "x"
    let right ← b.optional props ["right"] (some "x")
    let top ← aliased b props "y" "top" "y"
    return { width, height, left, right, top }

/-- The inputs of a rectangle of which both ends have been read. -/
def placeInputs (props : Members) (b : Builder) (p : Placed) (bottom : Option Float) :
    Action Registry Inputs := do
  let rotation ← b.optional props ["rotation"] none
  let _ ← span b p.left p.right p.width ("x", "right", "width")
  let _ ← span b p.top bottom p.height ("y", "bottom", "height")
  return .rect p.left p.right p.width p.top bottom p.height rotation

/-- What is read after the end along an axis. -/
def placeAfter (props : Members) (b : Builder) (p : Placed) (stop : Option Float) :
    Axis → Action Registry Inputs
  | .x => do
    let top ← aliased b props "y" "top" "y"
    let bottom ← b.optional props ["bottom"] (some "y")
    placeInputs props b { p with right := stop, top } bottom
  | .y => placeInputs props b p stop

/-- The reading of a place has the end of either axis in it once. -/
theorem gatherPlace_eq (axis : Axis) (width height : Option Float) :
    gatherPlace props b width height =
      placeBefore props b width height axis >>= fun p =>
        b.optional props [axis.stop] (some axis.name) >>= fun stop =>
          placeAfter props b p stop axis := by
  cases axis <;>
    simp only [gatherPlace, placeBefore, placeAfter, placeInputs, bind_assoc, pure_bind] <;> rfl

theorem placeBefore_insert (axis : Axis) (width height : Option Float) :
    placeBefore (props.insert axis.stop v) b width height axis =
      placeBefore props b width height axis := by
  cases axis with
  | x =>
    unfold placeBefore
    rw [aliased_insert (by decide)]
  | y =>
    unfold placeBefore
    rw [aliased_insert (by decide), optional_insert (by decide), aliased_insert (by decide)]

/-- When the end is read, the start and the sizes have been. -/
theorem placeBefore_eq_ok {axis : Axis} {width height : Option Float} {p : Placed}
    {s s' : Journaled Registry} (h : placeBefore props b width height axis s = (.ok p, s')) :
    (∀ names ∈ axis.earlier, ∃ x, s.state.Reads b.id props names x) ∧
      s.state.Reads b.id props axis.starts (p.start axis) ∧
      (p.width = width ∧ p.height = height) ∧ Registry.Asked b.id s.state s'.state := by
  cases axis with
  | x =>
    obtain ⟨⟨left, hl, rfl⟩, ha⟩ := ((Gets.aliased b props "x" "left" .x).bind fun _ =>
      Gets.pure (Placed.mk width height _ none none)).apply_eq_ok h
    exact ⟨by simpa [Axis.earlier] using ⟨left, hl⟩, hl, ⟨rfl, rfl⟩, ha⟩
  | y =>
    obtain ⟨⟨left, hl, right, hr, top, ht, rfl⟩, ha⟩ :=
      ((Gets.aliased b props "x" "left" .x).bind fun left =>
        (Gets.optional b props ["right"] (some .x)).bind fun right =>
        (Gets.aliased b props "y" "top" .y).bind fun top =>
        Gets.pure (Placed.mk width height left right top)).apply_eq_ok h
    refine ⟨?_, ht, ⟨rfl, rfl⟩, ha⟩
    simpa [Axis.earlier] using ⟨⟨left, hl⟩, ⟨right, hr⟩, ⟨top, ht⟩⟩

theorem placeAfter_insert (axis : Axis) (p : Placed) (stop : Option Float) :
    placeAfter (props.insert axis.stop v) b p stop axis = placeAfter props b p stop axis := by
  have hinputs : placeInputs (props.insert axis.stop v) b = placeInputs props b := by
    unfold placeInputs
    rw [optional_insert (by cases axis <;> decide)]
  cases axis with
  | x =>
    unfold placeAfter
    rw [hinputs, aliased_insert (by decide), optional_insert (by decide)]
  | y => rw [placeAfter, placeAfter, hinputs]

/-- What a rectangle that its end along an axis does not place does once it is
    read. -/
def placeRest (props : Members) (b : Builder) (id : ShapeId) (p : Placed) (axis : Axis) :
    Action Registry (Builder × Members) :=
  placeAfter props b p (some 0) axis >>= concludeWith id "rect" props

theorem placeRest_insert (id : ShapeId) (p : Placed) (axis : Axis) :
    placeRest (props.insert axis.stop v) b id p axis = placeRest props b id p axis := by
  have hgeometry : axis.stop ∈ geometry "rect" := by cases axis <;> decide
  rw [placeRest, placeRest, placeAfter_insert, funext (concludeWith_insert hgeometry)]

/-- An end does not place a rectangle of which start and size are given along
    the axis. -/
theorem placeAfter_eq_placeRest {axis : Axis} {p : Placed} (hstart : (p.start axis).isSome)
    (hsize : (p.size axis).isSome) (id : ShapeId) (x : Float) :
    placeAfter props b p (some x) axis >>= concludeWith id "rect" props =
      placeRest props b id p axis := by
  obtain ⟨width, height, left, right, top⟩ := p
  cases axis with
  | x =>
    obtain ⟨left, rfl⟩ := Option.isSome_iff_exists.1 hstart
    obtain ⟨width, rfl⟩ := Option.isSome_iff_exists.1 hsize
    simp only [placeRest, placeAfter, placeInputs, bind_assoc, pure_bind]
    rfl
  | y =>
    obtain ⟨top, rfl⟩ := Option.isSome_iff_exists.1 hstart
    obtain ⟨height, rfl⟩ := Option.isSome_iff_exists.1 hsize
    simp only [placeRest, placeAfter, placeInputs, bind_assoc, pure_bind]
    rfl

/-- Such an end is read and then forgotten. -/
theorem optional_bind_placeAfter {axis : Axis} {p : Placed}
    (hstop : props.given? axis.stop = some v) (hstart : (p.start axis).isSome)
    (hsize : (p.size axis).isSome) (id : ShapeId) :
    (b.optional props [axis.stop] (some axis.name) >>= fun stop =>
        placeAfter props b p stop axis >>= concludeWith id "rect" props) =
      b.passEnd axis v (placeRest props b id p axis) := by
  rw [Builder.passEnd, Builder.optional, List.find?_cons_of_pos (by simp [hstop])]
  simp only [hstop, Option.getD_some, bind_assoc, pure_bind, placeAfter_eq_placeRest hstart hsize]

/-- Whatever a rectangle does once its end is read. -/
theorem realizing_placeRest {C : ∀ ⦃α : Type⦄, Action Registry α → Prop}
    (h : Realizing C (fun _ => True) b.id) (props : Members) (p : Placed) (axis : Axis) :
    C (placeRest props b b.id p axis) := by
  have hinputs : ∀ p bottom,
      C (placeInputs props b p bottom >>= concludeWith b.id "rect" props) := by
    intro p bottom
    simp only [placeInputs, bind_assoc, pure_bind]
    exact h.bind (h.gathering.optional ..) fun _ => h.bind (h.gathering.span ..) fun _ =>
      h.bind (h.gathering.span ..) fun _ => (h.staging "rect").conclude rfl (isCheck_rect ..) _
  cases axis with
  | x =>
    simp only [placeRest, placeAfter, bind_assoc]
    exact h.bind (h.gathering.aliased ..) fun _ => h.bind (h.gathering.optional ..) fun _ =>
      hinputs _ _
  | y => exact hinputs _ _

/-- A rectangle reads its end between its other properties. -/
theorem rect_split (b : Builder) (props : Members) (axis : Axis) :
    rect b props =
      gatherSizes b props >>= fun sizes =>
        placeBefore props sizes.1 sizes.2.1 sizes.2.2 axis >>= fun p =>
          sizes.1.optional props [axis.stop] (some axis.name) >>= fun stop =>
            placeAfter props sizes.1 p stop axis >>= concludeWith b.id "rect" props := by
  rw [rect_eq, gatherRect, bind_assoc]
  refine bind_congr fun sizes => ?_
  simp only [gatherPlace_eq axis, bind_assoc]

/-! ## Rectangles -/

theorem asKey_of_publishSize {known : Members} {size : Option Float} {b' : Builder}
    {s s' : Journaled Registry} (h : publishSize b known name size s = (.ok b', s')) :
    b'.id = b.id ∧ (size.isSome → b.id.asKey = .ok b.id) := by
  cases size with
  | none =>
    cases h
    exact ⟨rfl, nofun⟩
  | some x =>
    obtain ⟨_, s₁, hregister, h⟩ := bind_eq_ok.1 h
    cases h
    exact ⟨rfl, fun _ => asKey_of_register hregister⟩

/-- A shape of which a size has been published has an id that can be a key. -/
theorem asKey_of_gatherSizes {axis : Axis} (hsize : (props.given? axis.size).isSome) {b' : Builder}
    {width height : Option Float} {s s' : Journaled Registry}
    (h : gatherSizes b props s = (.ok (b', width, height), s')) : b.id.asKey = .ok b.id := by
  obtain ⟨w, s₁, hw, h⟩ := bind_eq_ok.1 h
  obtain ⟨b₁, s₂, hp, h⟩ := bind_eq_ok.1 h
  obtain ⟨n, s₃, hh, h⟩ := bind_eq_ok.1 h
  obtain ⟨b₂, s₄, hp', h⟩ := bind_eq_ok.1 h
  have hwidth := ((Gets.optional b props ["width"] (some .x)).apply_eq_ok hw).1
  have hheight := ((Gets.optional b₁ props ["height"] (some .y)).apply_eq_ok hh).1
  obtain ⟨hb₁, hkey⟩ := asKey_of_publishSize hp
  obtain ⟨-, hkey'⟩ := asKey_of_publishSize hp'
  cases axis with
  | x => exact hkey (hwidth.isSome ⟨_, List.mem_cons_self, hsize⟩)
  | y => exact hb₁ ▸ hkey' (hheight.isSome ⟨_, List.mem_cons_self, hsize⟩)

end Shape

namespace Registry

/-- A rectangle gets to read its end along an axis, and it reads it with the
    anchors of `r'`: all that it reads before stands for numbers. -/
def ReachesEnd (r : Registry) (id : ShapeId) (props : Members) (axis : Axis) (r' : Registry) :
    Prop :=
  ∃ width height, r.Reads id props ["width"] width ∧
    (r.measured id width none).Reads id props ["height"] height ∧
    r' = r.measured id width height ∧ ∀ names ∈ axis.earlier, ∃ x, r'.Reads id props names x

/-- To publish sizes configures nothing. -/
theorem config_measured (r : Registry) (id : ShapeId) (width height : Option Float) :
    (r.measured id width height).config = r.config := by
  unfold measured
  split_ifs <;> rfl

end Registry

namespace Shape

variable {id : ShapeId} {props : Members} {axis : Axis} {v w : Value} {s s₁ s₂ : Journaled Registry}

/-- What has become of a rectangle that gets to read its end. -/
theorem reachesEnd_of_runs (hsize : (props.given? axis.size).isSome) {b : Builder}
    {width height : Option Float} {p : Placed}
    (hsizes : gatherSizes { id } props s = (.ok (b, width, height), s₁))
    (hplace : placeBefore props b width height axis s₁ = (.ok p, s₂)) :
    b.id = id ∧ (p.size axis).isSome ∧ s₂.state.Reads id props axis.starts (p.start axis) ∧
      s.state.ReachesEnd id props axis (s.state.measured id width height) ∧
      s₂.state.anchors = (s.state.measured id width height).anchors ∧
      s₂.state.config = (s.state.measured id width height).config := by
  have hid := asKey_of_gatherSizes hsize hsizes
  obtain ⟨hwidth, hheight, hb, hanchors, hconfig⟩ := gatherSizes_eq_ok hid rfl hsizes
  obtain ⟨hearlier, hstart, ⟨rfl, rfl⟩, hasked⟩ := placeBefore_eq_ok hplace
  rw [hb] at hearlier hstart
  refine ⟨hb, ?_, ?_, ⟨p.width, p.height, hwidth, hheight, rfl, ?_⟩, ?_, ?_⟩
  · cases axis with
    | x => exact hwidth.isSome ⟨_, List.mem_cons_self, hsize⟩
    | y => exact hheight.isSome ⟨_, List.mem_cons_self, hsize⟩
  · rwa [Registry.reads_of_anchors_eq id hasked.anchors]
  · intro names hnames
    rw [← Registry.reads_of_anchors_eq id hanchors]
    exact hearlier names hnames
  · exact hasked.anchors.trans hanchors
  · rw [Registry.config_measured, hasked.config, hconfig]

theorem sameFrom_rect_iff (hstart : ∃ name ∈ axis.starts, (props.given? name).isSome)
    (hsize : (props.given? axis.size).isSome) (hstop : props.given? axis.stop = some v)
    (hw : w ≠ .null) :
    SameFrom s (rect { id } props) (rect { id } (props.insert axis.stop w)) ↔
      ∀ sizes s₁, gatherSizes { id } props s = (.ok sizes, s₁) →
        ∀ p s₂, placeBefore props sizes.1 sizes.2.1 sizes.2.2 axis s₁ = (.ok p, s₂) →
          SameFrom s₂ (sizes.1.passEnd axis v (placeRest props sizes.1 id p axis))
            (sizes.1.passEnd axis w (placeRest props sizes.1 id p axis)) := by
  simp only [rect_split _ _ axis, gatherSizes_insert, placeBefore_insert]
  rw [sameFrom_bind_iff]
  refine forall₃_congr fun sizes s₁ hsizes => ?_
  rw [sameFrom_bind_iff]
  refine forall₃_congr fun p s₂ hplace => ?_
  obtain ⟨-, hpsize, hpstart, -⟩ := reachesEnd_of_runs hsize hsizes hplace
  rw [optional_bind_placeAfter hstop (hpstart.isSome hstart) hpsize,
    optional_bind_placeAfter (Members.given?_insert_self hw) (hpstart.isSome hstart) hpsize,
    placeRest_insert]

/-- A rectangle of which start, end and size are given along an axis does the
    same with another end if the two ends are read alike, as far as it gets to
    read one. If the rectangle is realized, then this is the only way. -/
theorem rect_end_ignored (hstart : ∃ name ∈ axis.starts, (props.given? name).isSome)
    (hsize : (props.given? axis.size).isSome) (hstop : props.given? axis.stop = some v)
    (hw : w ≠ .null) :
    let same := SameFrom s (rect { id } props) (rect { id } (props.insert axis.stop w))
    let alike := ∀ r, s.state.ReachesEnd id props axis r → r.ReadAlike id axis axis.stop v w
    (alike → same) ∧ ∀ out s', rect { id } props s = (.ok out, s') → same → alike := by
  intro same alike
  constructor
  · intro h
    refine (sameFrom_rect_iff hstart hsize hstop hw).2 fun sizes s₁ hsizes p s₂ hplace => ?_
    obtain ⟨rfl, -, -, hreach, hanchors, hconfig⟩ := reachesEnd_of_runs hsize hsizes hplace
    exact sameFrom_passEnd
      (realizing_placeRest (Registry.respects_eq _ _).agrees_realizing props p axis)
      ((h _ hreach).congr hanchors hconfig)
  · rintro out s' hok hsame _ ⟨width, height, hwidth, hheight, rfl, -⟩
    rw [rect_split _ _ axis] at hok
    obtain ⟨sizes, s₁, hsizes, hok⟩ := bind_eq_ok.1 hok
    obtain ⟨p, s₂, hplace, hok⟩ := bind_eq_ok.1 hok
    obtain ⟨hb, hpsize, hpstart, -, hanchors, hconfig⟩ := reachesEnd_of_runs hsize hsizes hplace
    rw [optional_bind_placeAfter hstop (hpstart.isSome hstart) hpsize] at hok
    have hpass := (sameFrom_rect_iff hstart hsize hstop hw).1 hsame _ _ hsizes _ _ hplace
    subst hb
    have halike := readAlike_of_sameFrom
      (fun _ _ => realizing_placeRest (Registry.respects_alike _).agrees_realizing props p axis)
      hpass hok
    obtain ⟨b', s₃, h', -⟩ :=
      gatherSizes_apply (asKey_of_gatherSizes hsize hsizes) rfl hwidth hheight
    cases hsizes.symm.trans h'
    exact halike.congr hanchors.symm hconfig.symm

/-- An end that is read as an infinity, and one that is no number. -/
theorem rect_end_ignored_infinite :
    let props : Members := [("x", .int 0), ("right", .text "#b.left / 0"), ("width", .int 10)]
    let s : Journaled Registry := ⟨{ anchors := [(.text "b", [("left", .number 7)])] }, {}⟩
    let a : Builder := { id := .text "a" }
    (∃ name ∈ Axis.x.starts, (props.given? name).isSome) ∧ (props.given? Axis.x.size).isSome ∧
      props.given? Axis.x.stop = some (.text "#b.left / 0") ∧
      Value.float Decimal.notANumber ≠ .null ∧
      (∀ r, s.state.ReachesEnd (.text "a") props .x r →
        r.ReadAlike (.text "a") .x "right" (.text "#b.left / 0") (.float Decimal.notANumber)) ∧
      SameFrom s (rect a props) (rect a (props.insert "right" (.float Decimal.notANumber))) := by
  intro props s a
  have hstart : ∃ name ∈ Axis.x.starts, (props.given? name).isSome := ⟨"x", by decide, rfl⟩
  have hne : Value.float Decimal.notANumber ≠ .null := nofun
  have hwidth : Decimal.ofInt? 10 = some 10 := by decide +kernel
  have halike : ∀ r, s.state.ReachesEnd (.text "a") props .x r →
      r.ReadAlike (.text "a") .x "right" (.text "#b.left / 0") (.float Decimal.notANumber) := by
    rintro _ ⟨_, height, ⟨width, hw, rfl⟩, hheight, rfl, -⟩
    obtain rfl := Option.some.inj (hwidth.symm.trans hw)
    obtain rfl : height = none := hheight
    exact ⟨.inl ⟨exists_eq_ok_of_isOk (by decide +kernel), _, rfl⟩, by decide +kernel⟩
  exact ⟨hstart, rfl, rfl, hne, halike, (rect_end_ignored hstart rfl rfl hne).1 halike⟩

/-- An end that is not needed, in whose place stands a reference to a shape
    that does not exist. -/
theorem rect_end_read :
    let a : Builder := { id := .text "a" }
    let props : Members := [("x", .int 0), ("right", .int 5), ("width", .int 10)]
    let other : Members := props.insert "right" (.text "#b.left")
    let s : Journaled Registry := ⟨{}, {}⟩
    (∃ out s', rect a props s = (.ok out, s') ∧
        s'.state.diagnostics.map (·.message) = [endIgnored "x" "right" "width"]) ∧
      (∃ e s', rect a other s = (.error e, s') ∧ e.category = .resolution ∧
        s'.state.diagnostics = []) ∧
      ¬ SameFrom s (rect a props) (rect a other) := by
  intro a props other s
  have hprops : (fun t : Except Failure (Builder × Members) × Journaled Registry =>
      (t.1.isOk, t.2.state.diagnostics.map (·.message))) (rect a props s) =
        (true, [endIgnored "x" "right" "width"]) := by decide +kernel
  have hother : (fun t : Except Failure (Builder × Members) × Journaled Registry =>
      (match t.1 with | .error e => some e.category | .ok _ => none, t.2.state.diagnostics.length))
      (rect a other s) = (some Category.resolution, 0) := by decide +kernel
  rw [SameFrom]
  generalize rect a props s = t at hprops ⊢
  generalize rect a other s = t' at hother ⊢
  obtain ⟨_ | out, s₁⟩ := t
  · cases congrArg Prod.fst hprops
  obtain ⟨e | _, s₂⟩ := t'
  · obtain ⟨hcategory, hlen⟩ := Prod.mk.inj hother
    exact ⟨⟨out, s₁, rfl, (Prod.mk.inj hprops).2⟩,
      ⟨e, s₂, rfl, Option.some.inj hcategory, List.length_eq_zero_iff.1 hlen⟩, fun h => nomatch h.1⟩
  · cases congrArg Prod.fst hother

end Shape

end AnchorLayout
