import AnchorLayout.Proofs.Journal.Action
import AnchorLayout.Proofs.Registry.Keys
import AnchorLayout.Registry.Operations

/-!
# Questions to a registry

A shape asks a registry for the value of an expression or for the point of a
bare reference (`Question`). The answer depends on the published anchors of the
shapes that are named in the question (`Registry.answer_congr`), so it stays
when anchors are added (`Registry.Extends.answer`), and if there is one, every
shape that the question names has anchors (`Registry.has_of_answer`).
-/

namespace AnchorLayout

/-- A sequence of two steps that may fail has a result if both of them have
    one. -/
theorem except_bind_iff {ε α β : Type} {a : Except ε α} {f : α → Except ε β} {y : β} :
    a >>= f = .ok y ↔ ∃ x, a = .ok x ∧ f x = .ok y := by
  rcases a with e | x
  · exact ⟨nofun, nofun⟩
  · constructor
    · exact fun h => ⟨x, rfl, h⟩
    · rintro ⟨_, ⟨⟩, h⟩
      exact h

/-- A sequence of two steps fails where the first fails, or the second one
    behind it. -/
theorem except_bind_error_iff {ε α β : Type} {a : Except ε α} {f : α → Except ε β} {err : ε} :
    a >>= f = .error err ↔ a = .error err ∨ ∃ x, a = .ok x ∧ f x = .error err := by
  rcases a with e | x
  · simp [bind, Except.bind]
  · simp [bind, Except.bind]

theorem exists_eq_ok_of_isOk {ε α : Type} {x : Except ε α} (h : x.isOk = true) :
    ∃ a, x = .ok a := by
  cases x with
  | error e => cases h
  | ok a => exact ⟨a, rfl⟩

/-! ## Questions -/

/-- The ids of the shapes that an expression names, from left to right. -/
def Expr.shapes {ν : Type} : Expr ν → List String
  | .ref id _ => [id]
  | .binary _ l r => l.shapes ++ r.shapes
  | .unknown _ l r => l.shapes ++ r.shapes
  | .literal _ | .selfRef _ | .foreign _ => []

/-- What a shape asks a registry for. -/
inductive Question where
  /-- The value of an expression that belongs to the shape `self`, or to
      none. -/
  | value (text : String) (self : Option ShapeId)
  /-- The point of a bare reference. -/
  | point (text : String)

namespace Question

/-- The shape that `$self` stands for in a question. -/
def self? : Question → Option ShapeId
  | .value _ self => self
  | .point _ => none

/-- The ids of the shapes that a question names. -/
def shapes : Question → List String
  | .value text _ =>
    match Expr.parse (ν := Value) text with
    | .ok e => e.shapes
    | .error _ => []
  | .point text =>
    match Reference.ofText text with
    | .ok ref => [ref.id]
    | .error _ => []

end Question

namespace Registry

variable {r r' : Registry}

/-- The answer to a question, as a trace shows it. -/
def answer (r : Registry) : Question → Except Failure Argument
  | .value text self => return .value (.float (← r.valueOf self text))
  | .point text => return .value (.point (← r.pointOf text))

/-- Whether the shape of a name has anchors. -/
def Has (r : Registry) (id : String) : Prop := ∃ as, r.anchors.get? (.text id) = some as

/-- A registry that gives all anchors that `r` gives, and perhaps more. -/
def Extends (r r' : Registry) : Prop :=
  ∀ id name a, r.anchor id name = .ok a → r'.anchor id name = .ok a

/-- An anchor is found under an id that can be kept, among the anchors of its
    shape. -/
theorem anchor_eq_ok {id : ShapeId} {name : String} {a : Anchor} :
    r.anchor id name = .ok a ↔
      ∃ as, id.asKey = .ok id ∧ r.anchors.get? id = some as ∧ Table.get? as name = some a := by
  rw [anchor, except_bind_iff]
  constructor
  · rintro ⟨key, hk, h⟩
    obtain rfl := ShapeId.eq_of_asKey hk
    split at h
    · cases h
    · next as has =>
      split at h
      · cases h
      · next a' ha =>
        cases h
        exact ⟨as, hk, has, ha⟩
  · rintro ⟨as, hk, has, ha⟩
    refine ⟨id, hk, ?_⟩
    simp only [has, ha]
    rfl

theorem anchorsOf_eq_ok {id : ShapeId} {as : Anchors} :
    r.anchorsOf id = .ok as ↔ id.asKey = .ok id ∧ r.anchors.get? id = some as := by
  rw [anchorsOf, except_bind_iff]
  constructor
  · rintro ⟨key, hk, h⟩
    obtain rfl := ShapeId.eq_of_asKey hk
    split at h
    · next as' has =>
      cases h
      exact ⟨hk, has⟩
    · cases h
  · rintro ⟨hk, has⟩
    refine ⟨id, hk, ?_⟩
    simp only [has]
    rfl

/-- Answers depend on the anchors only. -/
theorem extends_of_anchors_eq (h : r'.anchors = r.anchors) : r.Extends r' := by
  intro id name a ha
  rw [anchor_eq_ok] at ha ⊢
  rwa [h]

/-- A point is not taken for a number. -/
theorem number_eq_ok {id : ShapeId} {name : String} {x : Float} :
    r.number id name = .ok x ↔ r.anchor id name = .ok (.number x) := by
  rw [number, except_bind_iff]
  constructor
  · rintro ⟨y | p, ha, h⟩ <;> cases h
    exact ha
  · exact fun h => ⟨_, h, rfl⟩

theorem point_eq_ok {id : ShapeId} {name : String} {p : Point} :
    r.point id name = .ok p ↔ r.anchor id name = .ok (.point p) := by
  rw [point, except_bind_iff]
  constructor
  · rintro ⟨y | p, ha, h⟩ <;> cases h
    exact ha
  · exact fun h => ⟨_, h, rfl⟩

/-- A text that is no expression is misread. -/
theorem misread_of_expression {text : String} {e : Failure} (h : expression text = .error e) :
    ∃ err, e = .misread err := by
  rw [expression] at h
  cases hp : (Expr.parse text : Except SyntaxError (Expr Value)) with
  | ok e' =>
    rw [hp] at h
    cases h
  | error err =>
    rw [hp] at h
    exact ⟨err, (Except.error.inj h).symm⟩

/-! ## Answers stay -/

namespace Extends

theorem scalar (h : r.Extends r') {self : Option ShapeId} {target : Target} {name : String}
    {x : Float} (hx : r.scalar self target name = .ok x) : r'.scalar self target name = .ok x := by
  cases target with
  | shape id => exact number_eq_ok.2 (h _ _ _ (number_eq_ok.1 hx))
  | self =>
    cases self with
    | none => cases hx
    | some id => exact number_eq_ok.2 (h _ _ _ (number_eq_ok.1 hx))

/-- An expression that has a value keeps it. -/
theorem evaluate (h : r.Extends r') {self : Option ShapeId} {e : Expr Value} {x : Float}
    (hx : r.evaluate self e = .ok x) : r'.evaluate self e = .ok x := by
  induction e generalizing x with
  | literal y => exact hx
  | ref id name => exact show r'.scalar self (.shape id) name = .ok x from h.scalar hx
  | selfRef name => exact show r'.scalar self .self name = .ok x from h.scalar hx
  | binary op l r ihl ihr =>
    obtain ⟨y, hl, hx⟩ := except_bind_iff.1 hx
    obtain ⟨z, hr, hx⟩ := except_bind_iff.1 hx
    exact except_bind_iff.2 ⟨y, ihl hl, except_bind_iff.2 ⟨z, ihr hr, hx⟩⟩
  | unknown symbol l r ihl ihr =>
    obtain ⟨y, hl, hx⟩ := except_bind_iff.1 hx
    obtain ⟨z, hr, hx⟩ := except_bind_iff.1 hx
    cases hx
  | foreign v => cases hx

/-- A registry with more anchors gives the same answers. -/
theorem answer (h : r.Extends r') {q : Question} {a : Argument} (ha : r.answer q = .ok a) :
    r'.answer q = .ok a := by
  cases q with
  | value text self =>
    -- The expression of a text is no matter of the registry.
    obtain ⟨x, hx, ha⟩ := except_bind_iff.1 ha
    obtain ⟨e, he, hx⟩ := except_bind_iff.1 hx
    exact except_bind_iff.2 ⟨x, except_bind_iff.2 ⟨e, he, h.evaluate hx⟩, ha⟩
  | point text =>
    obtain ⟨p, hp, ha⟩ := except_bind_iff.1 ha
    obtain ⟨ref, href, hp⟩ := except_bind_iff.1 hp
    exact except_bind_iff.2 ⟨p, except_bind_iff.2
      ⟨ref, href, point_eq_ok.2 (h _ _ _ (point_eq_ok.1 hp))⟩, ha⟩

end Extends

/-! ## Answers come from shapes with anchors -/

theorem has_of_anchor {id name : String} {a : Anchor} (h : r.anchor (.text id) name = .ok a) :
    r.Has id :=
  (anchor_eq_ok.1 h).imp fun _ h => h.2.1

/-- An expression that has a value refers to shapes with anchors only. -/
theorem has_of_evaluate {self : Option ShapeId} {e : Expr Value} {x : Float}
    (hx : r.evaluate self e = .ok x) {id : String} (hid : id ∈ e.shapes) : r.Has id := by
  induction e generalizing x with
  | literal y => cases hid
  | ref id' name =>
    cases List.mem_singleton.1 hid
    exact has_of_anchor (number_eq_ok.1 hx)
  | selfRef name => cases hid
  | binary op l r ihl ihr =>
    obtain ⟨y, hl, hx⟩ := except_bind_iff.1 hx
    obtain ⟨z, hr, hx⟩ := except_bind_iff.1 hx
    exact (List.mem_append.1 hid).elim (ihl hl) (ihr hr)
  | unknown symbol l r ihl ihr =>
    obtain ⟨y, hl, hx⟩ := except_bind_iff.1 hx
    obtain ⟨z, hr, hx⟩ := except_bind_iff.1 hx
    cases hx
  | foreign v => cases hx

/-- Every shape that an answered question names has anchors. -/
theorem has_of_answer {q : Question} {a : Argument} (ha : r.answer q = .ok a) {id : String}
    (hid : id ∈ q.shapes) : r.Has id := by
  cases q with
  | value text self =>
    obtain ⟨x, hx, -⟩ := except_bind_iff.1 ha
    obtain ⟨e, he, hx⟩ := except_bind_iff.1 hx
    rw [Question.shapes] at hid
    rw [expression] at he
    split at he
    · next e' hp =>
      cases he
      rw [hp] at hid
      exact has_of_evaluate hx hid
    · cases he
  | point text =>
    obtain ⟨p, hp, -⟩ := except_bind_iff.1 ha
    obtain ⟨ref, href, hp⟩ := except_bind_iff.1 hp
    rw [Question.shapes, href] at hid
    cases List.mem_singleton.1 hid
    exact has_of_anchor (point_eq_ok.1 hp)

/-! ## What an answer depends on -/

theorem anchor_congr {id : ShapeId} (h : r.anchors.get? id = r'.anchors.get? id) (name : String) :
    r.anchor id name = r'.anchor id name := by
  cases hkey : id.asKey with
  | error e => simp only [anchor, hkey, bind, Except.bind]
  | ok key =>
    obtain rfl := ShapeId.eq_of_asKey hkey
    simp only [anchor, hkey, bind, Except.bind, h]

theorem anchorsOf_congr {id : ShapeId} (h : r.anchors.get? id = r'.anchors.get? id) :
    r.anchorsOf id = r'.anchorsOf id := by
  cases hkey : id.asKey with
  | error e => simp only [anchorsOf, hkey, bind, Except.bind]
  | ok key =>
    obtain rfl := ShapeId.eq_of_asKey hkey
    simp only [anchorsOf, hkey, bind, Except.bind, h]

/-- The value of an expression depends on the shapes that it refers to. -/
theorem evaluate_congr {self : Option ShapeId} {e : Expr Value}
    (hself : ∀ id, self = some id → r.anchors.get? id = r'.anchors.get? id)
    (h : ∀ name ∈ e.shapes, r.anchors.get? (.text name) = r'.anchors.get? (.text name)) :
    r.evaluate self e = r'.evaluate self e := by
  induction e with
  | literal x => rfl
  | ref id name =>
    change r.number _ _ = r'.number _ _
    rw [number, number, anchor_congr (h id List.mem_cons_self)]
  | selfRef name =>
    cases self with
    | none => rfl
    | some id =>
      change r.number _ _ = r'.number _ _
      rw [number, number, anchor_congr (hself id rfl)]
  | binary op l r₁ ihl ihr =>
    obtain ⟨hl, hr⟩ := List.forall_mem_append.1 h
    change (do let x ← r.evaluate self l; let y ← r.evaluate self r₁; pure (op.apply x y)) = _
    rw [ihl hl, ihr hr]
    rfl
  | unknown symbol l r₁ ihl ihr =>
    obtain ⟨hl, hr⟩ := List.forall_mem_append.1 h
    change (do
      let _ ← r.evaluate self l
      let _ ← r.evaluate self r₁
      .error (.notEvaluable (.unknownOperator symbol))) = _
    rw [ihl hl, ihr hr]
    rfl
  | foreign v => rfl

/-- The answer to a question depends on the anchors of the shapes that it
    names, and on those of the shape that `$self` stands for in it. -/
theorem answer_congr {q : Question}
    (hself : ∀ id, q.self? = some id → r.anchors.get? id = r'.anchors.get? id)
    (h : ∀ name ∈ q.shapes, r.anchors.get? (.text name) = r'.anchors.get? (.text name)) :
    r.answer q = r'.answer q := by
  cases q with
  | value text self =>
    rw [Question.shapes] at h
    rw [answer, answer, valueOf, valueOf, expression]
    cases hp : Expr.parse (ν := Value) text with
    | error e => rfl
    | ok e =>
      rw [hp] at h
      change (do return Argument.value (.float (← r.evaluate self e))) = _
      have he : r.evaluate self e = r'.evaluate self e := evaluate_congr hself h
      rw [he]
      rfl
  | point text =>
    rw [Question.shapes] at h
    rw [answer, answer, pointOf, pointOf]
    cases href : Reference.ofText text with
    | error e => rfl
    | ok ref =>
      rw [href] at h
      change (do return Argument.value (.point (← r.point (.text ref.id) ref.anchor))) = _
      rw [point, anchor_congr (h ref.id List.mem_cons_self)]
      rfl

/-- An answer tells the value of an expression. -/
theorem valueOf_eq_of_answer {self : Option ShapeId} {text : String}
    (h : r.answer (.value text self) = r'.answer (.value text self)) :
    r.valueOf self text = r'.valueOf self text := by
  rw [answer, answer] at h
  generalize r.valueOf self text = x at h ⊢
  generalize r'.valueOf self text = y at h ⊢
  cases x <;> cases y <;> cases h <;> rfl

/-- An answer tells the point of a bare reference. -/
theorem pointOf_eq_of_answer {text : String}
    (h : r.answer (.point text) = r'.answer (.point text)) : r.pointOf text = r'.pointOf text := by
  rw [answer, answer] at h
  generalize r.pointOf text = x at h ⊢
  generalize r'.pointOf text = y at h ⊢
  cases x <;> cases y <;> cases h <;> rfl

end Registry

end AnchorLayout
