import AnchorLayout.Proofs.Expr.Meaning
import AnchorLayout.Proofs.Registry.Effects

/-!
# Warnings of the other axis

To resolve an expression for an axis is to resolve it, and to warn of references
to anchors of the other axis. The warnings come before the value and do not
depend on it (`Registry.resolveOnAxis_known`). They are about the references in
the order in which these stand in the text: the anchors of a tree are those of
the lexemes that it is derived from (`Expr.anchors_of_derives`).
-/

namespace AnchorLayout

open AnchorLayout.Action

/-! ## Anchors of a text -/

/-- The anchor name of a reference. -/
def Lexeme.anchor? : Lexeme → Option String
  | .ref _ anchor => some anchor
  | .selfRef anchor => some anchor
  | _ => none

namespace Expr

variable {ν : Type}

/-- The anchors of what stands before a part. -/
def Part.anchors : Part ν → List String
  | .sumFrom l => l.anchors
  | .termFrom l => l.anchors
  | _ => []

theorem anchors_of_operand? {l : Lexeme} {e : Expr ν} (h : operand? l = some e) :
    e.anchors = [l].filterMap Lexeme.anchor? := by
  cases l with
  | number | ref | selfRef =>
    obtain rfl := Option.some.inj h
    rfl
  | operator | opening | closing => cases h

/-- The anchors of a phrase are those of its lexemes, from left to right. -/
theorem anchors_of_derives {p : Part ν} {ls : List Lexeme} {e : Expr ν} (h : Derives p ls e)
    (hwf : ∀ l ∈ ls, l.WellFormed) : e.anchors = p.anchors ++ ls.filterMap Lexeme.anchor? := by
  induction h with
  | sum first more ihFirst ihMore | term first more ihFirst ihMore =>
    rw [List.forall_mem_append] at hwf
    rw [ihMore hwf.2, List.filterMap_append, Part.anchors, ihFirst hwf.1]
    rfl
  | sumEnd | termEnd => exact (List.append_nil _).symm
  | sumMore _ operand more ihOperand ihMore | termMore _ operand more ihOperand ihMore =>
    rw [List.forall_mem_cons, List.forall_mem_append] at hwf
    rw [ihMore hwf.2.2, Part.anchors, anchors, ihOperand hwf.2.1, List.append_assoc,
      List.filterMap_cons_none rfl, List.filterMap_append]
    rfl
  | leaf denotes =>
    exact anchors_of_operand? (operand?_of_denotes (hwf _ List.mem_cons_self) denotes)
  | group inner ihInner =>
    rw [List.forall_mem_cons, List.forall_mem_append] at hwf
    rw [ihInner hwf.2.1, List.filterMap_cons_none rfl, List.filterMap_append]
    exact (List.append_nil _).symm

/-- The anchors of what is read from a text are those of its tokens. -/
theorem exists_anchors_of_parse {text : String} {e : Expr ν} (h : parse text = .ok e) :
    ∃ ts, Token.scan text = .ok ts ∧ e.anchors = ts.filterMap (·.lexeme.anchor?) := by
  obtain ⟨ts, hscan, hts⟩ := parse_eq_ok_iff.1 h
  refine ⟨ts, hscan, ?_⟩
  rw [anchors_of_derives hts (List.forall_mem_map.2 (Token.wellFormed_of_mem_scanFrom hscan)),
    List.filterMap_map]
  rfl

end Expr

/-! ## The other axis -/

namespace Axis

/-- The other axis. -/
def other : Axis → Axis
  | .x => .y
  | .y => .x

theorem ne_iff_eq_other {axis axis' : Axis} : axis' ≠ axis ↔ axis' = axis.other := by
  cases axis <;> cases axis' <;> decide

@[simp] theorem ofName?_name (axis : Axis) : ofName? axis.name = some axis := by
  cases axis <;> decide

theorem name_of_ofName? {s : String} {axis : Axis} (h : ofName? s = some axis) : s = axis.name := by
  rw [ofName?] at h
  split_ifs at h with hx hy
  · rw [← Option.some.inj h]
    exact beq_iff_eq.1 hx
  · rw [← Option.some.inj h]
    exact beq_iff_eq.1 hy

end Axis

namespace Registry

/-- The warning of a reference to an anchor of the other axis. -/
def crossWarning (axis : Axis) (property text anchor : String) : String :=
  "Property \"" ++ property ++ "\" expects " ++ axis.withArticle ++ " value but \"" ++ text ++
    "\" uses " ++ axis.other.name ++ "-axis anchor \"" ++ anchor ++ "\""

/-- An expression is warned of once for each of its anchors that belongs to the
    other axis. -/
theorem mismatches_eq (config : AxisConfig) (axis : Axis) (property text : String)
    (e : Expr Value) :
    mismatches config axis property text e =
      (e.anchors.filter fun anchor => config.axisOf anchor = some axis.other).map
        (crossWarning axis property text) := by
  rw [mismatches, ← List.filterMap_eq_map, List.filterMap_filter]
  refine List.filterMap_congr fun anchor _ => ?_
  cases config.axisOf anchor with
  | none => rfl
  | some axis' =>
    dsimp only
    by_cases h : axis' = axis
    · have hother : axis' ≠ axis.other := fun ho => Axis.ne_iff_eq_other.2 ho h
      rw [if_pos h, if_neg (by simpa using hother)]
    · have hother := Axis.ne_iff_eq_other.1 h
      rw [if_neg h, if_pos (by simpa using hother), hother]
      rfl

/-! ## The value -/

/-- An expression is not resolved for an axis that does not exist. -/
theorem resolveOnAxis_unknown {axis : String} (h : Axis.ofName? axis = none)
    (text property : String) (id : ShapeId) (self : SelfArgument) (s : Journaled Registry) :
    (resolveOnAxis text axis property id self s).1 = .error (.invalidAxis axis) ∧
      (resolveOnAxis text axis property id self s).2.state = s.state := by
  rw [resolveOnAxis]
  obtain ⟨j, hr, hs⟩ := exists_call_eq (tracing "resolve_with_axis_check")
    ([.registry, .text text, .text axis, .text property, .id (some id)] ++ self.placed) self.named
    (fun x => .value (.float x)) _ s
  rw [hr, hs, h]
  exact ⟨rfl, rfl⟩

/-- A text that is misread is an error before anything is warned of. Otherwise
    all references of the expression are warned of, and then it has the value
    that it has without a warning, or none. -/
theorem resolveOnAxis_known (text property : String) (axis : Axis) (id : ShapeId)
    (self : SelfArgument) (s : Journaled Registry) :
    let run := resolveOnAxis text axis.name property id self s
    (∃ err, expression text = .error err ∧ run.1 = .error err ∧ run.2.state = s.state) ∨
    ∃ e, expression text = .ok e ∧ run.1 = s.state.evaluate self.id? e ∧
      run.2.state = s.state.warned id (mismatches s.state.config axis property text e) := by
  intro run
  obtain ⟨j, hr, hs⟩ := exists_call_eq (tracing "resolve_with_axis_check")
    ([.registry, .text text, .text axis.name, .text property, .id (some id)] ++ self.placed)
    self.named (fun x => .value (.float x)) _ s
  change run.1 = _ at hr
  change run.2.state = _ at hs
  rw [hr, hs, Axis.ofName?_name]
  dsimp only
  cases he : expression text with
  | error err => exact .inl ⟨err, rfl, rfl, rfl⟩
  | ok e =>
    refine .inr ⟨e, rfl, ?_⟩
    obtain ⟨j', hw⟩ := does_warnAll id (mismatches s.state.config axis property text e) ⟨s.state, j⟩
    rw [bind_apply, ofExcept_apply]
    dsimp only
    rw [read_bind_apply, bind_apply, hw]
    dsimp only
    rw [read_bind_apply, ofExcept_apply]
    -- What is warned of is no matter of the anchors.
    exact ⟨rfl, rfl⟩

/-- Resolved for an axis, an expression has the value that it has, or fails as
    it fails, where it is just resolved. In either case there is, after all
    earlier diagnostics, one warning on the shape for each reference in the
    text, from left to right, whose anchor belongs to the other axis. There is
    none if the text is misread. -/
theorem resolveOnAxis_warned (r : Registry) (text property : String) (axis : Axis) (id : ShapeId)
    (self : SelfArgument) (j j' : Journal) :
    let run := resolveOnAxis text axis.name property id self ⟨r, j⟩
    run.1 = (resolve text self ⟨r, j'⟩).1 ∧
    (∀ err, (Expr.parse text : Except SyntaxError (Expr Value)) = .error err →
      run.2.state = r) ∧
    ∀ e : Expr Value, Expr.parse text = .ok e → ∃ ts, Token.scan text = .ok ts ∧
      run.2.state = { r with
        diagnostics := r.diagnostics ++
          ((ts.filterMap (·.lexeme.anchor?)).filter fun anchor =>
            r.config.axisOf anchor = some axis.other).map fun anchor =>
              ⟨.warning, id, crossWarning axis property text anchor⟩ } := by
  intro run
  rw [resolve_fst, valueOf]
  obtain ⟨err, he, hr, hs⟩ | ⟨e, he, hr, hs⟩ :=
    resolveOnAxis_known text property axis id self ⟨r, j⟩
  · rw [he]
    refine ⟨hr, fun _ _ => hs, fun e hparse => ?_⟩
    rw [expression, hparse] at he
    cases he
  · rw [he]
    refine ⟨hr, fun err hparse => ?_, fun e' hparse => ?_⟩
    · rw [expression, hparse] at he
      cases he
    · rw [expression, hparse] at he
      obtain rfl := Except.ok.inj he
      obtain ⟨ts, hscan, hanchors⟩ := Expr.exists_anchors_of_parse hparse
      refine ⟨ts, hscan, ?_⟩
      rw [hs, mismatches_eq, hanchors, warned, List.map_map]
      rfl

/-- Two references to the same anchor of the other axis, with one in between
    that is not, in an expression that has no value. -/
theorem resolveOnAxis_warned_twice :
    let text := "#a.top + $self.left - #b.top"
    let r : Registry := {}
    let run := resolveOnAxis text Axis.x.name "cx" (.text "c") (.byPlace none) ⟨r, {}⟩
    (run.1 = .error (.shapeNotFound (.text "a") "top") ∧
      run.2.state.diagnostics =
        List.replicate 2 ⟨.warning, .text "c", crossWarning .x "cx" text "top"⟩) ∧
    run.1 = (resolve text (.byPlace none) ⟨r, {}⟩).1 ∧
    (∀ err, (Expr.parse text : Except SyntaxError (Expr Value)) = .error err →
      run.2.state = r) ∧
    ∀ e : Expr Value, Expr.parse text = .ok e → ∃ ts, Token.scan text = .ok ts ∧
      run.2.state = { r with
        diagnostics := r.diagnostics ++
          ((ts.filterMap (·.lexeme.anchor?)).filter fun anchor =>
            r.config.axisOf anchor = some Axis.x.other).map fun anchor =>
              ⟨.warning, .text "c", crossWarning .x "cx" text anchor⟩ } := by
  intro text r run
  refine ⟨?_, resolveOnAxis_warned r text "cx" .x (.text "c") (.byPlace none) {} {}⟩
  have hscan : Token.scan "#a.top + $self.left - #b.top" =
      .ok [⟨.ref "a" "top", 0⟩, ⟨.operator .add, 7⟩, ⟨.selfRef "left", 9⟩, ⟨.operator .sub, 20⟩,
        ⟨.ref "b" "top", 22⟩] := by cbv
  have hexpr : expression text = .ok (.binary .sub (.binary .add (.ref "a" "top")
      (.selfRef "left")) (.ref "b" "top")) := by
    rw [expression, Expr.parse, hscan]
    rfl
  obtain ⟨err, he, -, -⟩ | ⟨e, he, hr, hs⟩ :=
    resolveOnAxis_known text "cx" .x (.text "c") (.byPlace none) ⟨r, {}⟩
  · rw [hexpr] at he
    cases he
  · rw [hexpr] at he
    obtain rfl := Except.ok.inj he
    rw [mismatches_eq] at hs
    exact ⟨hr.trans rfl, (congrArg diagnostics hs).trans rfl⟩

end Registry

end AnchorLayout
