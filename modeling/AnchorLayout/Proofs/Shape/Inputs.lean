import AnchorLayout.Proofs.Pass.Diagnostics
import AnchorLayout.Proofs.Registry.AxisWarnings

/-!
# What properties stand for

A datum stands for a number by itself, or by the value of the expression that it
is (`Registry.StandsFor`), and in the same way for a point
(`Registry.StandsForPoint`). Which number a property stands for depends on the
anchors that are published when it is read, and on nothing else.

A builder that is asked for a number gives the one that its property stands for
if there is one, and fails if there is none. All that it leaves behind are
warnings (`Registry.Asked`). So what an action asks for, and whether it gets it,
is told by a relation between the anchors and the result (`Gets`), and such
relations are put together as the actions are (`Gets.bind`).
-/

namespace AnchorLayout

open AnchorLayout.Action

namespace Registry

variable (r : Registry) (id : ShapeId)

/-- The datum stands for the number: an integer for the double next to it, if
    there is one, and an expression for its value, if it has one. -/
def StandsFor : Value → Float → Prop
  | .int n, x => Decimal.ofInt? n = some x
  | .float y, x => y = x
  | .text s, x => r.valueOf id.given? s = .ok x
  | _, _ => False

/-- The datum stands for the point. -/
def StandsForPoint : Value → Point → Prop
  | .point q, p => q = p
  | .text s, p => r.pointOf s = .ok p
  | .list [x, y], p => r.StandsFor id x p.x ∧ r.StandsFor id y p.y
  | .tuple [x, y], p => r.StandsFor id x p.x ∧ r.StandsFor id y p.y
  | .mapping members, p => ∃ x y, Table.get? members "x" = some x ∧
      Table.get? members "y" = some y ∧ r.StandsFor id x p.x ∧ r.StandsFor id y p.y
  | _, _ => False

/-- The first of several properties that is given stands for the number, or none
    of them is given. -/
def Reads (props : Members) : List String → Option Float → Prop
  | [], x => x = none
  | name :: names, x =>
    match props.given? name with
    | some v => ∃ y, r.StandsFor id v y ∧ x = some y
    | none => Reads props names x

/-- The properties of an end of a line stand for the point: one that is a point,
    or else two coordinates, which are zero if they are not given. -/
def ReadsEnd (props : Members) (point x y : String) (p : Point) : Prop :=
  match props.given? point with
  | some v => r.StandsForPoint id v p
  | none => ∃ a b, r.Reads id props [x] a ∧ r.Reads id props [y] b ∧
      p = ⟨Shape.orZero a, Shape.orZero b⟩

/-! ## Only the anchors count -/

variable {r} {r' : Registry}

/-- Diagnostics, shapes and the view box are no matter to the value of an
    expression. -/
theorem valueOf_of_anchors_eq (h : r'.anchors = r.anchors) (self : Option ShapeId) (text : String) :
    r'.valueOf self text = r.valueOf self text :=
  valueOf_eq_of_answer (answer_congr (fun _ _ => by rw [h]) fun _ _ => by rw [h])

/-- Nor are they to the point of a bare reference. -/
theorem pointOf_of_anchors_eq (h : r'.anchors = r.anchors) (text : String) :
    r'.pointOf text = r.pointOf text :=
  pointOf_eq_of_answer (answer_congr (fun _ _ => by rw [h]) fun _ _ => by rw [h])

theorem standsFor_of_anchors_eq (h : r'.anchors = r.anchors) :
    r'.StandsFor id = r.StandsFor id := by
  funext v x
  cases v <;> simp only [StandsFor, valueOf_of_anchors_eq h]

theorem reads_of_anchors_eq (h : r'.anchors = r.anchors) (props : Members) (names : List String) :
    r'.Reads id props names = r.Reads id props names := by
  funext x
  induction names with
  | nil => rfl
  | cons name names ih => rw [Reads, Reads, standsFor_of_anchors_eq id h, ih]

/-! ## What is left behind -/

/-- The shape `id` has asked for something: there are warnings that its
    properties call for. -/
def Asked (r r' : Registry) : Prop :=
  ∃ placing, (∀ message ∈ placing, IsPlacing r.config message) ∧ r' = r.warned id placing

variable {id}

/-- Warnings that properties call for are left behind by asking. -/
theorem asked_warned {messages : List String}
    (h : ∀ message ∈ messages, IsPlacing r.config message) : Asked id r (r.warned id messages) :=
  ⟨messages, h, rfl⟩

instance : IsPreorder Registry (Asked id) where
  refl _ := ⟨[], nofun, by simp [warned]⟩
  trans _ _ _ := by
    rintro ⟨placing, hp, rfl⟩ ⟨placing', hp', rfl⟩
    exact ⟨placing ++ placing', List.forall_mem_append.2 ⟨hp, hp'⟩, by simp [warned]⟩

theorem Asked.anchors (h : Asked id r r') : r'.anchors = r.anchors := by
  obtain ⟨_, -, rfl⟩ := h
  rfl

theorem Asked.config (h : Asked id r r') : r'.config = r.config := by
  obtain ⟨_, -, rfl⟩ := h
  rfl

theorem Asked.places (h : Asked id r r') : Places id r r' := by
  obtain ⟨placing, hp, rfl⟩ := h
  exact places_warned hp

end Registry

/-! ## Asking -/

/-- The action asks for something on behalf of the shape `id`. It gets what `P`
    says of the registry, of which only the anchors count, and fails where there
    is no such thing. -/
structure Gets {α : Type} (id : ShapeId) (P : Registry → α → Prop) (a : Action Registry α) :
    Prop where
  asked : Frames (Registry.Asked id) a
  result : ∀ s x, (a s).1 = .ok x ↔ P s.state x
  congr : ∀ {r r'}, r'.anchors = r.anchors → P r' = P r

namespace Gets

variable {α β : Type} {id : ShapeId} {P : Registry → α → Prop} {a : Action Registry α}

/-- What is asked for and what is left behind, as the run of an action tells
    it. -/
theorem apply_eq_ok (h : Gets id P a) {s s' : Journaled Registry} {x : α} (hs : a s = (.ok x, s')) :
    P s.state x ∧ Registry.Asked id s.state s'.state := by
  have hr := (h.result s x).1 (congrArg Prod.fst hs)
  have ha := h.asked s
  rw [hs] at ha
  exact ⟨hr, ha⟩

/-- What is there to be got is got. -/
theorem exists_apply_eq_ok (h : Gets id P a) {s : Journaled Registry} {x : α} (hx : P s.state x) :
    ∃ s', a s = (.ok x, s') ∧ Registry.Asked id s.state s'.state :=
  ⟨(a s).2, Prod.ext ((h.result s x).2 hx) rfl, h.asked s⟩

/-- Asking for something places no anchors. -/
theorem places (h : Gets id P a) : Frames (Registry.Places id) a := fun s => (h.asked s).places

theorem pure (x : α) : Gets id (fun _ y => y = x) (pure x) where
  asked := frames_pure x
  result s y := by
    rw [pure_apply, Except.ok.injEq]
    exact eq_comm
  congr _ := rfl

theorem throw (e : Failure) : Gets id (fun _ (_ : α) => False) (throw e) where
  asked := frames_throw e
  result _ _ := ⟨nofun, nofun⟩
  congr _ := rfl

/-- What is got from a sequence is got from its second part, which may depend
    on what is got from the first one. -/
theorem bind (ha : Gets id P a) {Q : α → Registry → β → Prop} {f : α → Action Registry β}
    (hf : ∀ x, Gets id (Q x) (f x)) :
    Gets id (fun r y => ∃ x, P r x ∧ Q x r y) (a >>= f) where
  asked := ha.asked.bind fun x => (hf x).asked
  result s y := by
    constructor
    · intro h
      obtain ⟨x, s₁, hx, hy⟩ := bind_eq_ok.1 (Prod.ext h rfl)
      obtain ⟨hP, hs₁⟩ := ha.apply_eq_ok hx
      have hQ := ((hf x).apply_eq_ok hy).1
      rw [(hf x).congr hs₁.anchors] at hQ
      exact ⟨x, hP, hQ⟩
    · rintro ⟨x, hP, hQ⟩
      obtain ⟨s₁, hx, hs₁⟩ := ha.exists_apply_eq_ok hP
      rw [← (hf x).congr hs₁.anchors] at hQ
      rw [bind_apply, hx]
      exact ((hf x).result s₁ y).2 hQ
  congr h := by
    funext y
    simp only [ha.congr h, (hf _).congr h]

/-- What is got may be told in another way that comes to the same. -/
theorem of_iff (h : Gets id P a) {Q : Registry → α → Prop} (hPQ : ∀ r x, P r x ↔ Q r x) :
    Gets id Q a := by
  obtain rfl : P = Q := funext₂ fun r x => propext (hPQ r x)
  exact h

/-- A warning that is given on a condition only. -/
theorem warnIf {b : Builder} {c : Prop} [Decidable c] {message : String}
    (hm : Shape.IsConflict message) {f : Unit → Action Registry α} (hf : Gets b.id P (f ())) :
    Gets b.id P (if c then b.warn message >>= f else f ()) := by
  split_ifs
  · have hw : Gets b.id (fun _ (u : Unit) => u = ()) (b.warn message) := by
      refine ⟨fun s => ?_, fun s u => ⟨fun _ => rfl, fun _ => rfl⟩, fun _ => rfl⟩
      exact Registry.asked_warned (List.forall_mem_singleton.2 (.conflict hm))
    exact (hw.bind fun _ => hf).of_iff fun r x => by simp
  · exact hf

/-! ### Builders -/

variable (b : Builder)

theorem resolve (text : String) :
    Gets b.id (fun r x => r.valueOf b.id.given? text = .ok x)
      (Registry.resolve text (.byName b.id)) where
  asked := (frames_ask _).call _ _ _ _
  result s x := by rw [Registry.resolve_fst]; rfl
  congr h := by simp only [Registry.valueOf_of_anchors_eq h]

/-- An axis adds warnings and leaves the value as it is. -/
theorem resolveOnAxis (text property : String) (axis : Axis) :
    Gets b.id (fun r x => r.valueOf b.id.given? text = .ok x)
      (Registry.resolveOnAxis text axis.name property b.id (.byName b.id)) where
  asked s := by
    obtain ⟨_, -, -, hs⟩ | ⟨e, he, -, hs⟩ :=
      Registry.resolveOnAxis_known text property axis b.id (.byName b.id) s
    all_goals rw [hs]
    · exact refl s.state
    · exact Registry.asked_warned fun _ => .mismatch he
  result s x := by
    rw [Registry.valueOf]
    obtain ⟨_, he, hr, -⟩ | ⟨e, he, hr, -⟩ :=
      Registry.resolveOnAxis_known text property axis b.id (.byName b.id) s
    all_goals rw [hr, he]; rfl
  congr h := by simp only [Registry.valueOf_of_anchors_eq h]

theorem resolvePoint (text : String) :
    Gets b.id (fun r p => r.pointOf text = .ok p) (Registry.resolvePoint text) where
  asked := (frames_ask _).call _ _ _ _
  result s p := by rw [Registry.resolvePoint_fst]
  congr h := by simp only [Registry.pointOf_of_anchors_eq h]

/-- A builder gives the number that a datum stands for, for an axis or for
    none. -/
theorem value (raw : Value) (axis : Option Axis) (property : Option String) :
    Gets b.id (fun r x => r.StandsFor b.id raw x) (b.value raw (axis.map Axis.name) property) := by
  cases raw with
  | int n =>
    simp only [Builder.value, Value.toFloat, Registry.StandsFor]
    cases Decimal.ofInt? n with
    | none => exact (throw _).of_iff fun _ _ => by simp
    | some y => exact (pure y).of_iff fun _ _ => by rw [Option.some.injEq, eq_comm]
  | float y => exact (pure y).of_iff fun _ _ => eq_comm
  | text text =>
    cases axis with
    | none => exact resolve b text
    | some axis => exact resolveOnAxis b text _ axis
  | null | bool | list | tuple | point | mapping | expr | array => exact throw _

/-- The builder reads the property that counts, be it for an axis or not. -/
theorem optional (props : Members) (names : List String) (axis : Option Axis) :
    Gets b.id (fun r x => r.Reads b.id props names x)
      (b.optional props names (axis.map Axis.name)) := by
  unfold Builder.optional
  induction names with
  | nil => exact pure none
  | cons name names ih =>
    cases hname : props.given? name with
    | none =>
      rw [List.find?_cons_of_neg (by simp [hname])]
      simpa only [Registry.Reads, hname] using ih
    | some v =>
      rw [List.find?_cons_of_pos (by simp [hname])]
      simp only [hname, Option.getD_some, Registry.Reads]
      exact (value b v axis _).bind fun x => pure (some x)

/-- A point is got if both of its coordinates are. -/
theorem coordinates (x y : Value) (property : Option String) :
    Gets b.id (fun r p => r.StandsFor b.id x p.x ∧ r.StandsFor b.id y p.y)
      (b.coordinates x y property) :=
  ((value b x (some .x) _).bind fun _ => (value b y (some .y) _).bind fun _ => pure _).of_iff
    fun _ p => by
      constructor
      · rintro ⟨_, hx, _, hy, rfl⟩
        exact ⟨hx, hy⟩
      · exact fun ⟨hx, hy⟩ => ⟨p.x, hx, p.y, hy, rfl⟩

/-- A builder gives the point that a datum stands for. -/
theorem point (raw : Value) (property : Option String) :
    Gets b.id (fun r p => r.StandsForPoint b.id raw p) (b.point raw property) := by
  unfold Builder.point
  split
  · exact (pure _).of_iff fun _ _ => eq_comm
  · exact resolvePoint b _
  · exact coordinates b _ _ _
  · exact coordinates b _ _ _
  · simp only [Registry.StandsForPoint]
    split
    · next hx hy => exact (coordinates b _ _ _).of_iff fun _ _ => by simp [hx, hy]
    · next h => exact (throw _).of_iff fun _ _ => by simpa using fun x hx y hy => (h x y hx hy).elim
  · next hp ht hl htu hm =>
    refine (throw _).of_iff fun r p => ?_
    rw [Registry.StandsForPoint]
    · assumption
    all_goals assumption

theorem aliased (props : Members) (name other : String) (axis : Axis) :
    Gets b.id (fun r x => r.Reads b.id props [name, other] x)
      (Shape.aliased b props name other axis.name) := by
  unfold Shape.aliased
  exact warnIf (.alias ..) (optional b props [name, other] (some axis))

/-- The warning that the end is not needed does not change the extent. -/
theorem span (start stop size : Option Float) (names : String × String × String) :
    Gets b.id (fun _ e => e = Shape.extent start stop size)
      (Shape.span b start stop size names) := by
  unfold Shape.span
  exact warnIf (.stop ..) (pure _)

/-- An end that is given by a point has no use for coordinates. -/
theorem lineEnd (props : Members) (point x y : String) :
    Gets b.id (fun r p => r.ReadsEnd b.id props point x y p)
      (Shape.lineEnd b props point x y) := by
  unfold Shape.lineEnd Registry.ReadsEnd
  cases hp : props.given? point with
  | some v => exact warnIf (.coordinates ..) (Gets.point b v _)
  | none =>
    exact ((optional b props [x] (some .x)).bind fun _ => (optional b props [y] (some .y)).bind
      fun _ => pure _).of_iff fun _ _ => by simp

end Gets

end AnchorLayout
