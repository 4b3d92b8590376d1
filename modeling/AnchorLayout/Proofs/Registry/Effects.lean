import AnchorLayout.Proofs.Shape.Reading

/-!
# What a shape does to a registry

A shape that is realized adds warnings and replaces its anchors; nothing else
that it does changes a registry. At the end it publishes its final anchors, and
after them come the warnings on its edges (`conclude_cases`).

So all runs of a realizer go along every preorder that these two changes keep
to (`frames_realizing`). And two runs of it from related registries end alike,
provided that the relation is kept by the same changes on both sides and that
the questions of the shape have the same answers (`Registry.Respects`,
`agrees_realizing`).
-/

namespace AnchorLayout

open AnchorLayout.Action

namespace Registry

/-! ## Changes -/

/-- The registry with warnings on a shape. -/
def warned (id : ShapeId) (messages : List String) (r : Registry) : Registry :=
  { r with diagnostics := r.diagnostics ++ messages.map (⟨.warning, id, ·⟩) }

/-- The registry with the anchors of a shape replaced. -/
def published (id : ShapeId) (as : Anchors) (r : Registry) : Registry :=
  { r with anchors := r.anchors.insert id as }

/-- The registry with a shape recorded. -/
def recorded (id : ShapeId) (record : ShapeRecord) (r : Registry) : Registry :=
  { r with shapes := r.shapes.insert id record }

/-- The warnings on a box, if there is a view box. -/
def outside (b : Bounds) : Option ViewBox → List String
  | none => []
  | some v => outsideWarnings v b

/-- Warnings go to the end of the diagnostics. -/
theorem does_warnAll (id : ShapeId) (messages : List String) :
    Does (warnAll id messages) (warned id messages) := by
  intro s
  induction messages generalizing s with
  | nil => exact ⟨s.journal, by simp [warnAll, warned]⟩
  | cons message rest ih =>
    obtain ⟨s₁, hs₁, hr⟩ : ∃ s₁, report ⟨.warning, id, message⟩ s = (.ok (), s₁) ∧
        s₁.state = s.state.warned id [message] := ⟨_, rfl, rfl⟩
    obtain ⟨j, hs⟩ := ih s₁
    refine ⟨j, ?_⟩
    rw [warnAll, bind_apply, hs₁]
    simpa [hr, warned] using hs

theorem does_report (id : ShapeId) (message : String) :
    Does (report ⟨.warning, id, message⟩) (warned id [message]) := fun _ => ⟨_, rfl⟩

theorem does_checkBounds (id : ShapeId) (b : Bounds) :
    Does (checkBounds id b) fun r => r.warned id (outside b r.viewBox) := by
  intro s
  dsimp only
  rw [checkBounds, read_bind_apply]
  cases s.state.viewBox with
  | none => exact ⟨s.journal, by simp [outside, warned]⟩
  | some v => exact does_warnAll id _ s

/-- Anchors are refused as a whole, or they take the place of all that the
    shape had. -/
theorem register_cases (id : ShapeId) (members : Members) :
    (∃ e, register id members = throw e) ∨
    ∃ as, Anchors.ofMembers id members = .ok as ∧ id.asKey = .ok id ∧
      Does (register id members) (published id as) := by
  rw [register]
  cases has : Anchors.ofMembers id members with
  | error e => exact .inl ⟨e, rfl⟩
  | ok as =>
    cases hkey : id.asKey with
    | error e => exact .inl ⟨e, rfl⟩
    | ok key =>
      obtain rfl := ShapeId.eq_of_asKey hkey
      exact .inr ⟨as, rfl, rfl, fun s => ⟨_, rfl⟩⟩

theorem does_registerShape {id : ShapeId} (hid : id.asKey = .ok id) (record : ShapeRecord) :
    Does (registerShape id record) (recorded id record) := by
  rw [registerShape, hid]
  exact fun s => ⟨_, rfl⟩

/-- A shape is recorded unless nothing can be kept under its id. -/
theorem registerShape_cases (id : ShapeId) (record : ShapeRecord) :
    (∃ e, registerShape id record = throw e) ∨
    id.asKey = .ok id ∧ Does (registerShape id record) (recorded id record) := by
  cases hkey : id.asKey with
  | error e => exact .inl ⟨e, by rw [registerShape, hkey]; rfl⟩
  | ok key =>
    obtain rfl := ShapeId.eq_of_asKey hkey
    exact .inr ⟨rfl, does_registerShape hkey record⟩

/-- An expression for an axis is refused, or it is warned of and then
    evaluated. -/
theorem resolveOnAxis_cases (text axis property : String) (id : ShapeId) (self : SelfArgument) :
    ∃ t args named result body, resolveOnAxis text axis property id self =
      Tracing.call t args named result body ∧
      ((∃ e, e.IsOfShape ∧ body = throw e) ∨ ∃ e known, expression text = .ok e ∧ body =
        (do warnAll id (mismatches (← Action.read).config known property text e)) >>= fun _ => do
          Action.ofExcept ((← Action.read).valueOf self.id? text)) := by
  refine ⟨_, _, _, _, _, rfl, ?_⟩
  cases Axis.ofName? axis with
  | none => exact .inl ⟨.invalidAxis axis, nofun, rfl⟩
  | some known =>
    cases he : expression text with
    | error e =>
      obtain ⟨err, rfl⟩ := misread_of_expression he
      exact .inl ⟨.misread err, nofun, rfl⟩
    | ok e =>
      refine .inr ⟨e, known, rfl, ?_⟩
      simp only [valueOf, he, bind_assoc]
      rfl

/-- An expression has its value, traced or not. -/
theorem resolve_fst (text : String) (self : SelfArgument) (s : Journaled Registry) :
    (resolve text self s).1 = s.state.valueOf self.id? text := by
  rw [resolve]
  exact (call_ask _ _ _ _ (fun r : Registry => r.valueOf self.id? text) s).1

/-- To ask for it changes nothing. -/
theorem resolve_state (text : String) (self : SelfArgument) (s : Journaled Registry) :
    (resolve text self s).2.state = s.state := by
  rw [resolve]
  exact (call_ask _ _ _ _ (fun r : Registry => r.valueOf self.id? text) s).2

theorem resolvePoint_fst (text : String) (s : Journaled Registry) :
    (resolvePoint text s).1 = s.state.pointOf text := by
  rw [resolvePoint]
  exact (call_ask _ _ _ _ (fun r : Registry => r.pointOf text) s).1

theorem resolvePoint_state (text : String) (s : Journaled Registry) :
    (resolvePoint text s).2.state = s.state := by
  rw [resolvePoint]
  exact (call_ask _ _ _ _ (fun r : Registry => r.pointOf text) s).2

/-- A check warns of the edges of a box, or it fails. -/
theorem check_cases {id : ShapeId} {check : Action Registry Unit} (h : Shape.IsCheck id check) :
    (∃ e, check = throw e) ∨ ∃ b, Does check fun r => r.warned id (outside b r.viewBox) := by
  cases h with
  | bounds b => exact .inr ⟨b, does_checkBounds id b⟩
  | failed => exact .inl ⟨_, rfl⟩

/-- A shape that concludes publishes its final anchors, and is checked then:
    either may fail. -/
theorem conclude_cases {id : ShapeId} {check : Action Registry Unit} (hc : Shape.IsCheck id check)
    (members drawn : Members) (s : Journaled Registry) :
    (∃ e, Shape.conclude id members drawn check s = (.error e, s)) ∨
    ∃ as j, Anchors.ofMembers id members = .ok as ∧
      ((∃ e, Shape.conclude id members drawn check s =
          (.error e, ⟨s.state.published id as, j⟩)) ∨
        ∃ b, Shape.conclude id members drawn check s =
          (.ok ({ id, published := members, isFinal := true }, drawn),
            ⟨(s.state.published id as).warned id (outside b s.state.viewBox), j⟩)) := by
  rw [Shape.conclude]
  obtain ⟨e, he⟩ | ⟨as, has, -, he⟩ := register_cases id members
  · exact .inl ⟨e, by rw [he]; rfl⟩
  · obtain ⟨j, hj⟩ := he s
    rw [bind_apply, hj]
    obtain ⟨e, rfl⟩ | ⟨b, hb⟩ := check_cases hc
    · exact .inr ⟨as, j, has, .inl ⟨e, rfl⟩⟩
    · obtain ⟨j', hj'⟩ := hb ⟨s.state.published id as, j⟩
      refine .inr ⟨as, j', has, .inr ⟨b, ?_⟩⟩
      dsimp only
      rw [bind_apply, hj']
      rfl

end Registry

/-! ## One run -/

section

variable {R : Registry → Registry → Prop} [IsPreorder Registry R] {id : ShapeId}

/-- Whatever a shape asks for goes along a preorder if warning of references to
    the other axis does. -/
theorem frames_asking (hw : ∀ {text e}, Registry.expression text = .ok e → ∀ axis property r,
      R r (r.warned id (Registry.mismatches r.config axis property text e))) :
    Asking (fun ⦃_⦄ a => Frames R a) (fun _ => True) id where
  pure := frames_pure
  throw e _ := frames_throw e
  bind := Frames.bind
  resolve _ _ := (frames_ask _).call _ _ _ _
  resolveOnAxis text axis property _ := by
    obtain ⟨t, args, named, result, body, hcall, hbody⟩ :=
      Registry.resolveOnAxis_cases text axis property id (.byName id)
    rw [hcall]
    refine Frames.call ?_ t args named result
    obtain ⟨e, -, rfl⟩ | ⟨e, known, he, rfl⟩ := hbody
    · exact frames_throw e
    · refine Frames.bind (fun s => ?_) fun _ => frames_ask _
      obtain ⟨j, hj⟩ :=
        Registry.does_warnAll id (Registry.mismatches s.state.config known property text e) s
      rw [read_bind_apply, hj]
      exact hw he known property s.state
  resolvePoint _ _ := (frames_ask _).call _ _ _ _

/-- Whatever a shape does before it publishes goes along a preorder if warning
    does. -/
theorem frames_reading (hw : ∀ messages r, R r (r.warned id messages)) :
    Reading (fun ⦃_⦄ a => Frames R a) (fun _ => True) id :=
  have h : Asking (fun ⦃_⦄ a => Frames R a) (fun _ => True) id :=
    frames_asking fun _ _ _ r => hw _ r
  { h with
    throw := frames_throw
    report := fun _ => (Registry.does_report _ _).frames (hw _)
    checkBounds := fun _ => (Registry.does_checkBounds _ _).frames fun r => hw _ r }

/-- Whatever a shape does goes along a preorder if warning and publishing do. -/
theorem frames_realizing (hw : ∀ messages r, R r (r.warned id messages))
    (hp : ∀ as r, R r (r.published id as)) :
    Realizing (fun ⦃_⦄ a => Frames R a) (fun _ => True) id where
  toReading := frames_reading hw
  register members := by
    obtain ⟨e, he⟩ | ⟨as, -, -, he⟩ := Registry.register_cases id members
    · rw [he]
      exact frames_throw e
    · exact he.frames (hp as)

end

/-! ## Two runs -/

/-- A relation of registries that the shape `id` cannot leave as long as it
    asks the questions `T` only: these have the same answers, and the relation
    is kept when both registries are given warnings, which may tell of their
    configurations and view boxes, when both are given the same anchors, and
    when the shape is recorded in both. -/
structure Registry.Respects (R : Registry → Registry → Prop) (T : Question → Prop) (id : ShapeId) :
    Prop where
  answer : ∀ {r r' q}, R r r' → T q → r.answer q = r'.answer q
  warned : ∀ {r r'} (messages : AxisConfig → Option ViewBox → List String), R r r' →
    R (r.warned id (messages r.config r.viewBox)) (r'.warned id (messages r'.config r'.viewBox))
  published : ∀ {r r'} as, R r r' → R (r.published id as) (r'.published id as)
  recorded : ∀ {r r'} record, R r r' → R (r.recorded id record) (r'.recorded id record)

namespace Registry.Respects

variable {R : Registry → Registry → Prop} {T : Question → Prop} {id : ShapeId} (h : Respects R T id)
include h

theorem agrees_resolve {text : String} (self : SelfArgument) (hT : T (.value text self.id?)) :
    Agrees R (do Action.ofExcept ((← Action.read).valueOf self.id? text)) :=
  agrees_ask fun _ _ hr => valueOf_eq_of_answer (h.answer hr hT)

/-- Whatever the shape does ends alike in related registries. -/
theorem agrees_realizing : Realizing (fun ⦃_⦄ a => Agrees R a) T id where
  pure := agrees_pure
  throw := agrees_throw
  bind := Agrees.bind
  report message := (does_report _ _).agrees fun _ _ => h.warned fun _ _ => [message]
  checkBounds b := (does_checkBounds _ _).agrees fun _ _ => h.warned fun _ => outside b
  resolve _ hT := (h.agrees_resolve (.byName id) hT).call ..
  resolveOnAxis text axis property hT := by
    obtain ⟨t, args, named, result, body, he, hbody⟩ :=
      resolveOnAxis_cases text axis property id (.byName id)
    rw [he]
    refine Agrees.call ?_ t args named result
    obtain ⟨e, -, rfl⟩ | ⟨e, known, -, rfl⟩ := hbody
    · exact agrees_throw e
    · have hw : Does (do warnAll id (mismatches (← Action.read).config known property text e))
          fun r => r.warned id (mismatches r.config known property text e) :=
        fun s => does_warnAll id _ s
      exact (hw.agrees fun _ _ => h.warned fun config _ =>
        mismatches config known property text e).bind fun _ =>
          h.agrees_resolve (.byName id) hT
  resolvePoint _ hT := (agrees_ask fun _ _ hr => pointOf_eq_of_answer (h.answer hr hT)).call ..
  register members := by
    obtain ⟨e, he⟩ | ⟨as, -, -, he⟩ := register_cases id members
    · rw [he]
      exact agrees_throw e
    · exact he.agrees fun _ _ => h.published as

end Registry.Respects

end AnchorLayout
