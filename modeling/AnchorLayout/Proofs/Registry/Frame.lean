import AnchorLayout.Proofs.Registry.AxisWarnings

/-!
# What a call leaves as it is

The operations on a registry are calls with arguments of all kinds, and most of
them can fail, in the middle of the members or the corners that they are given
(`Registry.Call`). A call does one of six things (`Registry.Call.Effect`), and
each of the parts of a registry is changed by one of these alone. A call that
fails has changed nothing, except that warnings of the other axis come before
the value that is asked for (`Registry.Call.run_frame`).

So in any sequence of calls, failed ones among them, diagnostics are only added
(`Registry.Call.frame_after`).
-/

namespace AnchorLayout

open AnchorLayout.Action

namespace Registry

/-- A call of an operation on a registry, other than to reset it. -/
inductive Call where
  | register (id : ShapeId) (members : Members)
  | registerShape (id : ShapeId) (record : ShapeRecord)
  | anchorsFor (id : ShapeId)
  | addDiagnostic (severity : String) (id : ShapeId) (message : String)
  | setViewBox (v : Option ViewBox)
  | resolve (text : String) (self : SelfArgument)
  | resolvePoint (text : String)
  | resolveOnAxis (text axis property : String) (id : ShapeId) (self : SelfArgument)
  | checkEdges (id : ShapeId) (edges : Table String Float)
  | checkRotatedBounds (id : ShapeId) (corners : Value) (degrees : Float) (pivot : Point)

namespace Call

/-- What a call gives. -/
def Result : Call → Type
  | anchorsFor _ => Anchors
  | resolve _ _ => Float
  | resolvePoint _ => Point
  | resolveOnAxis _ _ _ _ _ => Float
  | _ => Unit

/-- Makes a call. -/
def run : (c : Call) → Action Registry c.Result
  | register id members => Registry.register id members
  | registerShape id record => Registry.registerShape id record
  | anchorsFor id => Registry.anchorsFor id
  | addDiagnostic severity id message => Registry.addDiagnostic severity id message
  | setViewBox v => Registry.setViewBox v
  | resolve text self => Registry.resolve text self
  | resolvePoint text => Registry.resolvePoint text
  | resolveOnAxis text axis property id self => Registry.resolveOnAxis text axis property id self
  | checkEdges id edges => Registry.checkEdges id edges
  | checkRotatedBounds id corners degrees pivot =>
    Registry.checkRotatedBounds id corners degrees pivot

/-- The failure that a call ends with, if it fails. -/
def failure? {α : Type} : Except Failure α → Option Failure
  | .ok _ => none
  | .error e => some e

theorem failure?_eq_some {α : Type} {x : Except Failure α} {e : Failure} :
    failure? x = some e ↔ x = .error e := by
  cases x <;> simp [failure?]

/-- What a call makes of a registry, and the failure that it ends with, if it
    fails. -/
inductive Effect (r : Registry) : Call → Option Failure → Registry → Prop where
  /-- A question is answered, or the call fails. -/
  | kept {c : Call} {failed : Option Failure} : Effect r c failed r
  | published {id : ShapeId} {members : Members} {as : Anchors} :
      Effect r (register id members) none (r.published id as)
  | recorded {id : ShapeId} {record : ShapeRecord} :
      Effect r (registerShape id record) none (r.recorded id record)
  | viewed {v : Option ViewBox} : Effect r (setViewBox v) none { r with viewBox := v }
  | diagnosed {c : Call} {ds : List Diagnostic} :
      Effect r c none { r with diagnostics := r.diagnostics ++ ds }
  /-- References to the other axis are warned of, and then there is a value or
      there is none. -/
  | warned {text property : String} {axis : Axis} {id : ShapeId} {self : SelfArgument}
      {e : Expr Value} (he : expression text = .ok e) :
      Effect r (resolveOnAxis text axis.name property id self) (failure? (r.evaluate self.id? e))
        (r.warned id (mismatches r.config axis property text e))

/-- All runs of an action have an effect of a call. -/
def Effects {α : Type} (c : Call) (a : Action Registry α) : Prop :=
  ∀ s, Effect s.state c (failure? (a s).1) (a s).2.state

section

variable {c : Call} {α : Type}

theorem effects_throw (e : Failure) : Effects c (throw e : Action Registry α) := fun _ => .kept

theorem effects_of_does_warned {a : Action Registry Unit} {id : ShapeId}
    {messages : Registry → List String} (h : Does a fun r => r.warned id (messages r)) :
    Effects c a := by
  intro s
  obtain ⟨j, hs⟩ := h s
  rw [hs]
  exact .diagnosed

/-- What follows a step without an effect. -/
theorem effects_ofExcept_bind {β : Type} {x : Except Failure β} {f : β → Action Registry α}
    (h : ∀ y, Effects c (f y)) : Effects c (Action.ofExcept x >>= f) := by
  cases x with
  | error e => exact effects_throw e
  | ok y => exact h y

end

theorem effects_resolveOnAxis (text axis property : String) (id : ShapeId) (self : SelfArgument) :
    Effects (resolveOnAxis text axis property id self)
      (Registry.resolveOnAxis text axis property id self) := by
  intro s
  cases haxis : Axis.ofName? axis with
  | none =>
    rw [(resolveOnAxis_unknown haxis text property id self s).2]
    exact .kept
  | some known =>
    obtain rfl := Axis.name_of_ofName? haxis
    obtain ⟨err, -, -, hs⟩ | ⟨e, he, hr, hs⟩ := resolveOnAxis_known text property known id self s
    · rw [hs]
      exact .kept
    · rw [hr, hs]
      exact .warned he

theorem effects_check {c : Call} {id : ShapeId} {check : Action Registry Unit}
    (h : Shape.IsCheck id check) : Effects c check := by
  obtain ⟨e, rfl⟩ | ⟨b, hdoes⟩ := check_cases h
  · exact effects_throw e
  · exact effects_of_does_warned hdoes

/-- Every call has one of the effects. -/
theorem effects_run (c : Call) : Effects c c.run := by
  cases c with
  | register id members =>
    change Effects _ (Registry.register id members)
    obtain ⟨e, he⟩ | ⟨as, -, -, hdoes⟩ := register_cases id members
    · rw [he]
      exact effects_throw e
    · intro s
      obtain ⟨j, hj⟩ := hdoes s
      rw [hj]
      exact .published
  | registerShape id record =>
    change Effects _ (Registry.registerShape id record)
    obtain ⟨e, he⟩ | ⟨-, hdoes⟩ := registerShape_cases id record
    · rw [he]
      exact effects_throw e
    · intro s
      obtain ⟨j, hj⟩ := hdoes s
      rw [hj]
      exact .recorded
  | anchorsFor id =>
    change Effects _ (Registry.anchorsFor id)
    intro s
    rw [Registry.anchorsFor, read_bind_apply, ofExcept_apply]
    exact .kept
  | addDiagnostic severity id message =>
    change Effects _ (Registry.addDiagnostic severity id message)
    rw [Registry.addDiagnostic]
    cases Severity.ofName? severity with
    | none => exact effects_throw _
    | some severity => exact fun s => .diagnosed
  | setViewBox v => exact fun s => .viewed
  | resolve text self =>
    change Effects _ (Registry.resolve text self)
    intro s
    rw [resolve_state]
    exact .kept
  | resolvePoint text =>
    change Effects _ (Registry.resolvePoint text)
    intro s
    rw [resolvePoint_state]
    exact .kept
  | resolveOnAxis text axis property id self =>
    exact effects_resolveOnAxis text axis property id self
  | checkEdges id edges =>
    change Effects _ (Registry.checkEdges id edges)
    intro s
    rw [Registry.checkEdges, read_bind_apply]
    cases s.state.viewBox with
    | none => exact .kept
    | some v => exact effects_ofExcept_bind (fun b => effects_of_does_warned (does_warnAll id _)) s
  | checkRotatedBounds id corners degrees pivot =>
    change Effects _ (Registry.checkRotatedBounds id corners degrees pivot)
    rw [Registry.checkRotatedBounds]
    cases corners.items? with
    | none => exact effects_throw _
    | some items =>
      exact effects_ofExcept_bind fun ps => effects_check (Shape.isCheck_turned id ps degrees pivot)

/-- What stays of a registry while calls are made: diagnostics are only added,
    and of the other parts each one stays as long as no call of a certain kind
    is among them. -/
structure Frame (made : Call → Prop) (r r' : Registry) : Prop where
  config : r'.config = r.config
  diagnostics : r.diagnostics <+: r'.diagnostics
  anchors : (∀ id members, ¬ made (register id members)) → r'.anchors = r.anchors
  shapes : (∀ id record, ¬ made (registerShape id record)) → r'.shapes = r.shapes
  viewBox : (∀ v, ¬ made (setViewBox v)) → r'.viewBox = r.viewBox

theorem Frame.refl {made : Call → Prop} (r : Registry) : Frame made r r :=
  ⟨rfl, List.prefix_rfl, fun _ => rfl, fun _ => rfl, fun _ => rfl⟩

/-- What stays under some calls and then under others stays under all of
    them. -/
theorem Frame.trans {made made' made'' : Call → Prop} {r r' r'' : Registry}
    (h : Frame made r r') (h' : Frame made' r' r'') (hmade : ∀ c, made c → made'' c)
    (hmade' : ∀ c, made' c → made'' c) : Frame made'' r r'' where
  config := h'.config.trans h.config
  diagnostics := h.diagnostics.trans h'.diagnostics
  anchors hno := (h'.anchors fun id members hc => hno id members (hmade' _ hc)).trans
    (h.anchors fun id members hc => hno id members (hmade _ hc))
  shapes hno := (h'.shapes fun id record hc => hno id record (hmade' _ hc)).trans
    (h.shapes fun id record hc => hno id record (hmade _ hc))
  viewBox hno := (h'.viewBox fun v hc => hno v (hmade' _ hc)).trans
    (h.viewBox fun v hc => hno v (hmade _ hc))

/-- Each effect changes no more than the call is there for. -/
theorem Effect.frame {r r' : Registry} {c : Call} {failed : Option Failure}
    (h : Effect r c failed r') : Frame (· = c) r r' := by
  cases h with
  | kept => exact .refl r
  | published =>
    exact ⟨rfl, List.prefix_rfl, fun h => absurd rfl (h _ _), fun _ => rfl, fun _ => rfl⟩
  | recorded =>
    exact ⟨rfl, List.prefix_rfl, fun _ => rfl, fun h => absurd rfl (h _ _), fun _ => rfl⟩
  | viewed =>
    exact ⟨rfl, List.prefix_rfl, fun _ => rfl, fun _ => rfl, fun h => absurd rfl (h _)⟩
  | diagnosed | warned =>
    exact ⟨rfl, List.prefix_append .., fun _ => rfl, fun _ => rfl, fun _ => rfl⟩

/-- A failed call has no effect, or that of warnings which came before the
    failure. -/
theorem Effect.of_failed {r r' : Registry} {c : Call} {err : Failure}
    (h : Effect r c (some err) r') :
    r' = r ∨ ∃ text axis property id self e,
      c = resolveOnAxis text (Axis.name axis) property id self ∧ expression text = .ok e ∧
      r.evaluate self.id? e = .error err ∧
      r' = r.warned id (mismatches r.config axis property text e) := by
  generalize hfailed : some err = failed at h
  cases h with
  | kept => exact .inl rfl
  | published | recorded | viewed | diagnosed => cases hfailed
  | @warned text property axis id self e he =>
    have hvalue : r.evaluate self.id? e = .error err := failure?_eq_some.1 hfailed.symm
    exact .inr ⟨text, axis, property, id, self, e, rfl, he, hvalue, rfl⟩

/-- A call keeps what it is not there to change. If it fails, it has changed
    nothing, except that a check against an axis has warned of the references
    to the other axis when it turns out that the expression has no value. -/
theorem run_frame (c : Call) (s : Journaled Registry) :
    let r := s.state
    let r' := (c.run s).2.state
    Frame (· = c) r r' ∧
    ∀ err, (c.run s).1 = .error err →
      r'.anchors = r.anchors ∧ r'.shapes = r.shapes ∧ r'.viewBox = r.viewBox ∧
      (r'.diagnostics = r.diagnostics ∨
        ∃ text axis property id self e, c = resolveOnAxis text (Axis.name axis) property id self ∧
          expression text = .ok e ∧ r.evaluate self.id? e = .error err ∧
          r'.diagnostics = r.diagnostics ++
            (mismatches r.config axis property text e).map (⟨.warning, id, ·⟩)) := by
  have heffect := effects_run c s
  refine ⟨heffect.frame, fun err herr => ?_⟩
  rw [herr] at heffect
  obtain hr | ⟨text, axis, property, id, self, e, hc, he, hvalue, hr⟩ := heffect.of_failed
  · rw [hr]
    exact ⟨rfl, rfl, rfl, .inl rfl⟩
  · rw [hr]
    exact ⟨rfl, rfl, rfl, .inr ⟨text, axis, property, id, self, e, hc, he, hvalue, rfl⟩⟩

/-- A check against an axis that fails, because there is no shape to refer to,
    after it has warned of the reference. -/
theorem run_frame_crossed :
    let c : Call := .resolveOnAxis "#a.top" "x" "width" (.text "b") (.byPlace none)
    let s : Journaled Registry := ⟨{}, {}⟩
    let r := s.state
    let r' := (c.run s).2.state
    ((c.run s).1 = .error (.shapeNotFound (.text "a") "top") ∧
      r'.diagnostics = [⟨.warning, .text "b", "Property \"width\" expects an x-axis value but " ++
        "\"#a.top\" uses y-axis anchor \"top\""⟩]) ∧
    Frame (· = c) r r' ∧
    ∀ err, (c.run s).1 = .error err →
      r'.anchors = r.anchors ∧ r'.shapes = r.shapes ∧ r'.viewBox = r.viewBox ∧
      (r'.diagnostics = r.diagnostics ∨
        ∃ text axis property id self e, c = resolveOnAxis text (Axis.name axis) property id self ∧
          expression text = .ok e ∧ r.evaluate self.id? e = .error err ∧
          r'.diagnostics = r.diagnostics ++
            (mismatches r.config axis property text e).map (⟨.warning, id, ·⟩)) := by
  intro c s
  refine ⟨?_, run_frame c s⟩
  have hscan : Token.scan "#a.top" = .ok [⟨.ref "a" "top", 0⟩] := by cbv
  have hexpr : expression "#a.top" = .ok (.ref "a" "top") := by
    rw [expression, Expr.parse, hscan]
    rfl
  obtain ⟨err, he, -, -⟩ | ⟨e, he, hr, hs⟩ :=
    resolveOnAxis_known "#a.top" "width" .x (.text "b") (.byPlace none) s
  · rw [hexpr] at he
    cases he
  · rw [hexpr] at he
    obtain rfl := Except.ok.inj he
    exact ⟨hr.trans rfl, (congrArg diagnostics hs).trans (by cbv)⟩

/-! ## Calls one after the other -/

/-- What calls make of a registry, one after the other, whether they fail or
    not. -/
def after : List Call → Journaled Registry → Journaled Registry
  | [], s => s
  | c :: cs, s => after cs (c.run s).2

/-- Calls keep together what none of them is there to change. -/
theorem frame_after (cs : List Call) (s : Journaled Registry) :
    Frame (· ∈ cs) s.state (after cs s).state := by
  induction cs generalizing s with
  | nil => exact .refl _
  | cons c cs ih =>
    have hfirst : Frame (· = c) s.state (c.run s).2.state := (effects_run c s).frame
    refine hfirst.trans (ih _) ?_ fun _ => List.mem_cons_of_mem c
    rintro _ rfl
    exact List.mem_cons_self

end Call

end Registry

end AnchorLayout
