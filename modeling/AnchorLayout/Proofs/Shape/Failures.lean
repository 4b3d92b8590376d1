import AnchorLayout.Proofs.Registry.Effects

/-!
# How shapes fail

A shape of one of the usual kinds fails for what it is given or for what it
refers to, never because two shapes have one id (`Shape.ofShape_realizer`):
that is a matter of the pass. So it is with every question that it asks and
everything that it publishes, part by part.
-/

namespace AnchorLayout

open AnchorLayout.Action

/-! ## Results -/

/-- Where there is no result, the failure is one that a shape can meet. -/
def OfShape {α : Type} (x : Except Failure α) : Prop := ∀ e, x = .error e → e.IsOfShape

section

variable {α β : Type}

theorem ofShape_ok (x : α) : OfShape (.ok x) := nofun

/-- To fail as a shape can is to fail by a failure that a shape can meet. -/
theorem ofShape_error {e : Failure} (he : e.IsOfShape) : OfShape (.error e : Except Failure α) := by
  intro e' h
  cases h
  exact he

/-- A result meets no failure that neither of its parts does. -/
theorem OfShape.bind {a : Except Failure α} {f : α → Except Failure β} (ha : OfShape a)
    (hf : ∀ x, OfShape (f x)) : OfShape (a >>= f) := by
  cases a with
  | error e => exact ofShape_error (ha e rfl)
  | ok x => exact hf x

end

/-! ## Anchors -/

/-- An id under which nothing can be kept is refused as what it is, not as a
    second one of its kind. -/
theorem ShapeId.ofShape_asKey (id : ShapeId) : OfShape id.asKey := by
  rw [asKey]
  split
  · exact ofShape_error nofun
  · exact ofShape_ok id

/-- What stands for no double fails by what it is, or by its size. -/
theorem Value.ofShape_toFloat (v : Value) : OfShape v.toFloat := by
  unfold toFloat
  split
  · exact ofShape_ok _
  · split
    · exact ofShape_ok _
    · exact ofShape_error nofun
  · exact ofShape_ok _
  · split
    · exact ofShape_ok _
    · exact ofShape_error nofun
  · exact ofShape_ok _
  · exact ofShape_error nofun
  · exact ofShape_error nofun

theorem Anchor.ofShape_ofCoordinates (x y : Value) : OfShape (ofCoordinates x y) :=
  (Value.ofShape_toFloat x).bind fun _ => (Value.ofShape_toFloat y).bind fun _ => ofShape_ok _

/-- A datum that is no anchor is refused for its form, or a coordinate of it
    is. -/
theorem Anchor.ofShape_ofValue (id : ShapeId) (name : String) (v : Value) :
    OfShape (ofValue id name v) := by
  unfold ofValue
  split
  · exact ofShape_ok _
  · exact ofShape_ofCoordinates _ _
  · exact ofShape_ofCoordinates _ _
  · exact (Value.ofShape_toFloat _).bind fun _ => ofShape_ok _
  · exact ofShape_ok _
  · split
    · exact ofShape_ofCoordinates _ _
    · exact ofShape_error nofun
  · exact ofShape_error nofun

/-- The first member that is no anchor is the one that tells. -/
theorem Anchors.ofShape_ofMembers (id : ShapeId) (members : Members) :
    OfShape (ofMembers id members) := by
  induction members with
  | nil => exact ofShape_ok _
  | cons m rest ih =>
    exact (Anchor.ofShape_ofValue id m.1 m.2).bind fun _ => ih.bind fun _ => ofShape_ok _

/-! ## Questions -/

namespace Registry

variable (r : Registry)

/-- What is looked for is there, or the shape or its anchor is missing. -/
theorem ofShape_anchor (id : ShapeId) (name : String) : OfShape (r.anchor id name) := by
  refine (ShapeId.ofShape_asKey id).bind fun key => ?_
  split
  · exact ofShape_error nofun
  · split
    · exact ofShape_error nofun
    · exact ofShape_ok _

theorem ofShape_number (id : ShapeId) (name : String) : OfShape (r.number id name) := by
  refine (ofShape_anchor r id name).bind fun a => ?_
  cases a with
  | number x => exact ofShape_ok x
  | point p => exact ofShape_error nofun

theorem ofShape_point (id : ShapeId) (name : String) : OfShape (r.point id name) := by
  refine (ofShape_anchor r id name).bind fun a => ?_
  cases a with
  | number x => exact ofShape_error nofun
  | point p => exact ofShape_ok p

/-- A scalar that cannot be had is refused for its shape, for its anchor, or
    for a `$self` without a shape. -/
theorem ofShape_scalar (self : Option ShapeId) (target : Target) (name : String) :
    OfShape (r.scalar self target name) := by
  cases target with
  | shape id => exact ofShape_number r _ name
  | self =>
    cases self with
    | none => exact ofShape_error nofun
    | some id => exact ofShape_number r id name

/-- Evaluation fails at a leaf, or at a symbol that is no operator; the
    operators themselves never fail. -/
theorem ofShape_evaluate (self : Option ShapeId) (e : Expr Value) :
    OfShape (r.evaluate self e) := by
  induction e with
  | literal x => exact ofShape_ok x
  | ref id name => exact ofShape_scalar r self (.shape id) name
  | selfRef name => exact ofShape_scalar r self .self name
  | binary op l r ihl ihr => exact ihl.bind fun _ => ihr.bind fun _ => ofShape_ok _
  | unknown symbol l r ihl ihr =>
    exact ihl.bind fun _ => ihr.bind fun _ => ofShape_error nofun
  | foreign v => exact ofShape_error nofun

/-- A text that is no expression is misread, and that is all. -/
theorem ofShape_expression (text : String) : OfShape (expression text) := by
  intro e he
  obtain ⟨err, rfl⟩ := misread_of_expression he
  exact nofun

theorem ofShape_valueOf (self : Option ShapeId) (text : String) : OfShape (r.valueOf self text) :=
  (ofShape_expression text).bind fun _ => ofShape_evaluate r self _

theorem ofShape_ofText (text : String) : OfShape (Reference.ofText text) := by
  rw [Reference.ofText]
  split
  · split
    · exact ofShape_ok _
    · exact ofShape_error nofun
  · exact ofShape_error nofun

theorem ofShape_pointOf (text : String) : OfShape (r.pointOf text) :=
  (ofShape_ofText text).bind fun _ => ofShape_point r _ _

end Registry

/-! ## Actions -/

/-- Where an action fails, the failure is one that a shape can meet. -/
def Action.OfShape {σ α : Type} (a : Action σ α) : Prop := ∀ s, AnchorLayout.OfShape (a s).1

namespace Action

variable {σ α β : Type}

theorem ofShape_pure (x : α) : OfShape (pure x : Action σ α) := fun _ => ofShape_ok x

theorem ofShape_throw {e : Failure} (he : e.IsOfShape) : OfShape (throw e : Action σ α) := fun _ =>
  ofShape_error he

/-- An action meets no failure that neither of its parts does. -/
theorem OfShape.bind {a : Action σ α} {f : α → Action σ β} (ha : OfShape a)
    (hf : ∀ x, OfShape (f x)) : OfShape (a >>= f) := by
  intro s
  have hs := ha s
  rw [bind_apply]
  generalize a s = t at hs ⊢
  obtain ⟨e | x, s₁⟩ := t
  · exact ofShape_error (hs e rfl)
  · exact hf x s₁

theorem ofShape_ofExcept {x : Except Failure α} (hx : AnchorLayout.OfShape x) :
    OfShape (Action.ofExcept x : Action σ α) := by
  intro s
  rw [ofExcept_apply]
  exact hx

/-- A question has the failures of its answers. -/
theorem ofShape_ask {f : σ → Except Failure α} (hf : ∀ r, AnchorLayout.OfShape (f r)) :
    OfShape (do Action.ofExcept (f (← Action.read)) : Action σ α) := by
  intro s
  rw [read_bind_apply, ofExcept_apply]
  exact hf s.state

/-- What always succeeds meets no failure at all. -/
theorem Does.ofShape {a : Action σ Unit} {f : σ → σ} (ha : Does a f) : OfShape a := by
  intro s
  obtain ⟨j, hs⟩ := ha s
  rw [hs]
  exact ofShape_ok ()

/-- Tracing adds no failure to a call. -/
theorem OfShape.call {body : Action σ α} (hb : OfShape body) (t : Tracing) (args : List Argument)
    (named : List (String × Argument)) (result : α → Argument) :
    OfShape (t.call args named result body) := by
  intro s
  obtain ⟨j, hr, -⟩ := exists_call_eq t args named result body s
  rw [hr]
  exact hb _

end Action

/-! ## Shapes -/

namespace Shape

/-- Anchors are refused for one of their data, or because nothing can be kept
    under the id. -/
theorem ofShape_register (id : ShapeId) (members : Members) :
    Action.OfShape (Registry.register id members) :=
  (ofShape_ofExcept (Anchors.ofShape_ofMembers id members)).bind fun _ =>
    (ofShape_ofExcept (ShapeId.ofShape_asKey id)).bind fun _ => fun _ => ofShape_ok ()

/-- A check warns only, or its box cannot be told. -/
theorem ofShape_check {id : ShapeId} {check : Action Registry Unit} (hc : IsCheck id check) :
    Action.OfShape check := by
  cases hc with
  | bounds b => exact (Registry.does_checkBounds id b).ofShape
  | failed he => exact ofShape_throw he

/-- Both stages of a shape meet failures of shapes only. -/
theorem ofShape_staging (kind : String) (id : ShapeId) :
    Staging (fun ⦃_⦄ a => Action.OfShape a) (fun a => Action.OfShape a) (fun _ => True) kind id
      where
  pure := ofShape_pure
  throw _ := ofShape_throw
  bind := Action.OfShape.bind
  report message _ := (Registry.does_report id message).ofShape
  resolve text _ := (ofShape_ask fun r => Registry.ofShape_valueOf r _ text).call _ _ _ _
  resolveOnAxis text axis property _ := by
    obtain ⟨t, args, named, result, body, hcall, hbody⟩ :=
      Registry.resolveOnAxis_cases text axis property id (.byName id)
    rw [hcall]
    refine Action.OfShape.call ?_ t args named result
    obtain ⟨e, he, rfl⟩ | ⟨e, known, -, rfl⟩ := hbody
    · exact ofShape_throw he
    · refine Action.OfShape.bind (fun s => ?_) fun _ =>
        ofShape_ask fun r => r.ofShape_valueOf _ text
      exact (Registry.does_warnAll id _).ofShape s
  resolvePoint text _ := (ofShape_ask fun r => Registry.ofShape_pointOf r text).call _ _ _ _
  register := ofShape_register id
  before := Action.OfShape.bind
  conclude _ hc _ := (ofShape_register id _).bind fun _ =>
    (ofShape_check hc).bind fun _ => ofShape_pure _

/-- A shape of one of the usual kinds fails as shapes can only. -/
theorem ofShape_realizer {kind : String} {run : Realizer} (hk : kinds.get? kind = some run)
    (b : Builder) (props : Members) : Action.OfShape (run b props) :=
  (ofShape_staging kind b.id).realizer hk props fun _ _ => trivial

end Shape

end AnchorLayout
