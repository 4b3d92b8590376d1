import AnchorLayout.Proofs.CommandLine.Arguments
import AnchorLayout.Proofs.Pass.Finished
import AnchorLayout.Proofs.Registry.Routine
import AnchorLayout.Proofs.Registry.SelfReference

/-!
# Answers of the command line

A command line may ask for the value of an expression. Then the report on the
scene is printed, and after it the expression with its value; or the expression
has none, which is noted down, and the status of the run is one
(`Outcome.Answers`).

That is so but for three arguments (`run_answers_iff`). An empty expression
counts as none, and so does the mark that ends the options, which is no value.
And if the mark is given for the shape that the expression belongs to, the run
is ended by the first reference to that shape.
-/

namespace AnchorLayout.CommandLine

open AnchorLayout.Action

/-! ## What is seen of a run -/

/-- What is seen of a run that has ended in a state, with a status or a
    failure. -/
def Outcome.ofRun (t : Except Failure Nat × Journaled Desk) : Outcome where
  status := t.1
  stdout := t.2.state.printed
  stderr := Registry.lines (t.2.journal.events.map logLine)

/-- A run notes down these events at last, as far as they reach the least level
    that is noted down. Whatever else it notes down is routine. -/
def Outcome.Notes (o : Outcome) (least : Level) (faults : List Event) : Prop :=
  ∃ routine : List Event, (∀ e ∈ routine, e.IsRoutine ∧ least.rank ≤ e.level.rank) ∧
    o.stderr = Registry.lines
      ((routine ++ faults.filter fun e => least.rank ≤ e.level.rank).map logLine)

/-- What is seen of a run that prints a report and gives the value of an
    expression: a line with its canonical text and its value, or the fault that
    it has none for. -/
def Outcome.Answers (o : Outcome) (least : Level) (report text : String) :
    Except Failure Float → Prop
  | .ok x => ∃ t, canonical text = .ok t ∧ o.status = .ok 0 ∧
    o.stdout = report ++ (t ++ " = " ++ Decimal.plain x ++ "\n") ∧ o.Notes least []
  | .error e => isFault e = true ∧ o.status = .ok 1 ∧ o.stdout = report ∧
    o.Notes least [.notEvaluated text e]

/-- The status tells whether the expression has a value. -/
theorem Outcome.Answers.status_eq {o : Outcome} {least : Level} {report text : String}
    {value : Except Failure Float} (h : o.Answers least report text value) :
    o.status = .ok (if value.isOk then 0 else 1) := by
  cases value with
  | ok x =>
    obtain ⟨-, -, hstatus, -⟩ := h
    exact hstatus
  | error e => exact h.2.1

/-! ## Steps of a run -/

theorem faultOf_apply {α : Type} (a : Action Desk α) (s : Journaled Desk) :
    faultOf a s =
      match a s with
      | (.ok x, s₁) => (.ok (.ok x), s₁)
      | (.error e, s₁) => if isFault e then (.ok (.error e), s₁) else (.error e, s₁) := by
  rw [faultOf, tryCatch_apply, bind_apply]
  generalize a s = t
  obtain ⟨e | x, s₁⟩ := t
  · dsimp only
    split_ifs <;> rfl
  · rfl

theorem printReport_apply {s : Journaled Desk} {report : String}
    (h : s.state.registry.reportText = .ok report) :
    printReport s =
      (.ok (), { s with state := { s.state with printed := s.state.printed ++ report } }) := by
  rw [printReport, read_bind_apply, h]
  rfl

/-- An expression is evaluated without any other effect than routine. -/
theorem onRegistry_resolve (text : String) (self : Registry.SelfArgument) (s : Journaled Desk) :
    ∃ j, s.journal.GoesOn j ∧ onRegistry (Registry.resolve text self) s =
      (s.state.registry.valueOf self.id? text, ⟨s.state, j⟩) := by
  refine ⟨_, Registry.operating_isRoutine.resolve text self ⟨s.state.registry, s.journal⟩, ?_⟩
  rw [onRegistry, zoom_apply, Registry.resolve_fst, Registry.resolve_state]

/-- What has a value can be written. -/
theorem exists_canonical {r : Registry} {self : Option ShapeId} {text : String} {x : Float}
    (h : r.valueOf self text = .ok x) : ∃ t, canonical text = .ok t := by
  rw [Registry.valueOf, Registry.expression] at h
  cases he : (Expr.parse text : Except SyntaxError (Expr Value)) with
  | error e =>
    rw [he] at h
    cases h
  | ok e =>
    obtain ⟨t, ht⟩ := Expr.exists_format (Expr.wellNamed_of_parse he)
    have hexpr : Registry.expression text = .ok e := by rw [Registry.expression, he]
    refine ⟨t, ?_⟩
    rw [canonical, hexpr]
    simp only [bind, Except.bind, ht]
    rfl

/-- An expression is printed with its value, or its fault is noted down;
    another failure ends the run. -/
theorem printValue_apply (text : String) (self : Option Setting) (s : Journaled Desk) :
    ∃ j, s.journal.GoesOn j ∧
      match s.state.registry.valueOf ((self.map selfOf).bind ShapeId.given?) text with
      | .ok x => ∃ t, canonical text = .ok t ∧ printValue text self s =
        (.ok 0, ⟨{ s.state with
          printed := s.state.printed ++ (t ++ " = " ++ Decimal.plain x ++ "\n") }, j⟩)
      | .error e => printValue text self s =
        if isFault e then (.ok 1, ⟨s.state, j.write (.notEvaluated text e)⟩)
        else (.error e, ⟨s.state, j⟩) := by
  obtain ⟨j, hj, hrun⟩ := onRegistry_resolve text (.byPlace (self.map selfOf)) s
  rw [Registry.SelfArgument.id?] at hrun
  refine ⟨j, hj, ?_⟩
  cases hv : s.state.registry.valueOf ((self.map selfOf).bind ShapeId.given?) text with
  | ok x =>
    obtain ⟨t, ht⟩ := exists_canonical hv
    refine ⟨t, ht, ?_⟩
    rw [printValue, bind_apply, faultOf_apply, hrun, hv, ht]
    rfl
  | error e =>
    dsimp only
    rw [printValue, bind_apply, faultOf_apply, hrun, hv]
    dsimp only
    split_ifs <;> rfl

/-- What a run does once it has printed the report on a pass that has ended
    well. -/
def afterReport (args : Arguments) : Action Desk Nat :=
  match args.expr with
  | none | some .nothing => return 0
  | some (.text e) => if e.isEmpty then return 0 else printValue e args.selfId

theorem exists_work (args : Arguments) {text : Except Failure String} {scene : Scene}
    {records : List ShapeRecord} (hscene : (text >>= Json.parse >>= Scene.ofValue) = .ok scene)
    (hpass : (runPass scene.shapes scene.viewBox ⟨{}, {}⟩).1 = .ok records) (j₀ : Journal) :
    let r := (runPass scene.shapes scene.viewBox ⟨{}, {}⟩).2.state
    ∃ report j, r.reportText = .ok report ∧ j₀.GoesOn j ∧
      work args text ⟨{}, j₀⟩ = afterReport args ⟨⟨r, report⟩, j⟩ := by
  intro r
  obtain ⟨data, hdata, hscene⟩ := except_bind_iff.1 hscene
  obtain ⟨anchors, hanchors⟩ := Registry.exists_anchors fun record hrecord =>
    let ⟨_, _, _, as, _, has, _⟩ := (Pass.ledger_of_runPass hpass).1.exists_of_mem hrecord
    ⟨as, has⟩
  have hreport : r.reportText = .ok (Registry.reportOf r.records anchors r.diagnostics) :=
    Registry.reportText_eq hanchors
  generalize Registry.reportOf r.records anchors r.diagnostics = report at hreport
  -- The pass ends in the same registry, whatever has been noted down before.
  obtain ⟨j, hrun⟩ := (transparent_runPass scene.shapes scene.viewBox).rerun
    (Prod.ext hpass rfl : runPass scene.shapes scene.viewBox ⟨{}, {}⟩ = (.ok records, _))
    (j₀.write (.loading args.path))
  have hj : (j₀.write (.loading args.path)).GoesOn j := by
    have hroutine := Registry.isRoutine_runPass scene.shapes scene.viewBox
      ⟨{}, j₀.write (.loading args.path)⟩
    rwa [hrun] at hroutine
  refine ⟨report, j, hreport, IsTrans.trans _ _ _ (j₀.goesOn_write (.inr rfl)) hj, ?_⟩
  have hpassed : faultOf (onRegistry (runPass scene.shapes scene.viewBox))
      ⟨{}, j₀.write (.loading args.path)⟩ = (.ok (.ok records), ⟨{ registry := r }, j⟩) := by
    rw [faultOf_apply, onRegistry, zoom_apply, hrun]
  clear_value r
  rw [work, hdata]
  simp only [bind_apply, ofExcept_apply, note_apply, hscene, hpassed]
  rw [printReport_apply hreport, String.empty_append]
  rfl

theorem notes_of_goesOn {least : Level} {j : Journal}
    (h : ({ threshold := some least } : Journal).GoesOn j) (status : Except Failure Nat)
    (d : Desk) : (Outcome.ofRun (status, ⟨d, j⟩)).Notes least [] := by
  obtain ⟨es, hes, hroutine⟩ := h.events
  refine ⟨es, fun e he => ⟨(hroutine e he).1, of_decide_eq_true (hroutine e he).2⟩, ?_⟩
  rw [Outcome.ofRun, hes]
  simp

theorem notes_write {least : Level} {j : Journal}
    (h : ({ threshold := some least } : Journal).GoesOn j) (e : Event)
    (status : Except Failure Nat) (d : Desk) :
    (Outcome.ofRun (status, ⟨d, j.write e⟩)).Notes least [e] := by
  obtain ⟨es, hes, hroutine⟩ := h.events
  refine ⟨es, fun e he => ⟨(hroutine e he).1, of_decide_eq_true (hroutine e he).2⟩, ?_⟩
  rw [Outcome.ofRun, Journal.write, Journal.accepts, h.threshold]
  dsimp only
  split_ifs with hlevel <;> simp_all

theorem isFault_of_valueOf {r : Registry} {self : Option String} {text : String} {err : Failure}
    (h : r.valueOf (self.map .text) text = .error err) : isFault err = true := by
  rw [isFault]
  obtain h | h := Registry.category_of_valueOf h <;> rw [h] <;> rfl

/-- What is evaluated for the shape that is meant is answered. -/
theorem answers_printValue {least : Level} {r : Registry} {j : Journal}
    (h : ({ threshold := some least } : Journal).GoesOn j) {text : String} {self : Option Setting}
    {named : Option String} (hself : r.valueOf ((self.map selfOf).bind ShapeId.given?) text =
      r.valueOf (named.map .text) text) (report : String) :
    (Outcome.ofRun (printValue text self ⟨⟨r, report⟩, j⟩)).Answers least report text
      (r.valueOf (named.map .text) text) := by
  obtain ⟨j', hj', hrun⟩ := printValue_apply text self ⟨⟨r, report⟩, j⟩
  have h' := IsTrans.trans _ _ _ h hj'
  dsimp only at hrun
  rw [hself] at hrun
  cases hv : r.valueOf (named.map .text) text with
  | ok x =>
    rw [hv] at hrun
    obtain ⟨t, ht, hrun⟩ := hrun
    rw [hrun]
    exact ⟨t, ht, rfl, rfl, notes_of_goesOn h' _ _⟩
  | error e =>
    have hfault := isFault_of_valueOf hv
    rw [hv] at hrun
    dsimp only at hrun
    rw [if_pos hfault] at hrun
    rw [hrun]
    exact ⟨hfault, rfl, rfl, notes_write h' _ _ _⟩

/-- The shape that is looked up where one is given: the mark stands for what
    nothing is known by. -/
theorem given?_selfOf (self : Option String) :
    ((self.map Setting.ofValue).map selfOf).bind ShapeId.given? =
      if self = some "--" then some (.ofDatum (.list [])) else self.map .text := by
  cases self with
  | none => rfl
  | some s =>
    by_cases hs : s = "--"
    · subst hs
      rfl
    · rw [if_neg fun h => hs (Option.some.inj h)]
      simp [Setting.ofValue, hs, selfOf]

/-- Nothing is evaluated otherwise than for the shape that is meant, unless the
    mark is given for it and a reference to it is reached. -/
theorem valueOf_selfOf {r : Registry} {text : String} {self : Option String}
    (h : self = some "--" → ∀ anchor, r.valueOf none text ≠ .error (.selfUnknown anchor)) :
    r.valueOf (((self.map Setting.ofValue).map selfOf).bind ShapeId.given?) text =
      r.valueOf (self.map .text) text := by
  rw [given?_selfOf]
  split_ifs with hmark
  · obtain ⟨anchor, hreached, -⟩ | ⟨-, hsame⟩ := r.valueOf_cases text
    · exact absurd hreached (h hmark anchor)
    · rw [hsame, hsame (self.map .text)]
  · rfl

/-- Neither nothing nor the mark is an expression. -/
theorem exists_valueOf_eq_error {text : String} (h : text = "" ∨ text = "--") (r : Registry)
    (self : Option ShapeId) : ∃ err, r.valueOf self text = .error err := by
  have hexpr : (Registry.expression text).isOk = false := by
    rcases h with rfl | rfl <;> decide +kernel
  rw [Registry.valueOf]
  cases he : Registry.expression text with
  | ok e =>
    rw [he] at hexpr
    cases hexpr
  | error err => exact ⟨err, rfl⟩

theorem afterReport_eq {args : Arguments} {text : String}
    (h : args.expr = some (.ofValue text)) :
    afterReport args =
      if text = "" ∨ text = "--" then return 0 else printValue text args.selfId := by
  rw [afterReport, h, Setting.ofValue]
  by_cases hmark : text = "--"
  · simp [hmark]
  · by_cases hempty : text = ""
    · simp [hempty]
    · simp [hmark, hempty]

/-- Under the mark nothing can be looked up, so a reference to the shape itself
    ends the run. -/
theorem printValue_mark {r : Registry} {j : Journal} {text anchor : String}
    (h : r.valueOf none text = .error (.selfUnknown anchor)) (report : String) :
    (printValue text (some .nothing) ⟨⟨r, report⟩, j⟩).1 = .error (.changeableId (.list [])) ∧
      (printValue text (some .nothing) ⟨⟨r, report⟩, j⟩).2.state = ⟨r, report⟩ := by
  have hmark : r.valueOf (((some Setting.nothing).map selfOf).bind ShapeId.given?) text =
      .error (.changeableId (.list [])) := by
    obtain ⟨anchor', -, hfail⟩ | ⟨hnone, -⟩ := r.valueOf_cases text
    · exact hfail (.ofDatum (.list [])) _ rfl
    · exact absurd h (hnone anchor)
  obtain ⟨j', -, hrun⟩ := printValue_apply text (some .nothing) ⟨⟨r, report⟩, j⟩
  dsimp only at hrun
  rw [hmark] at hrun
  rw [hrun]
  exact ⟨rfl, rfl⟩

/-! ## Runs -/

/-- An expression is answered unless it is empty or the mark, or it belongs to
    the mark and its evaluation gets to a reference to the shape itself. -/
theorem answers_iff {args : Arguments} {text : String} {self : Option String} {least : Level}
    {j : Journal} (hexpr : args.expr = some (.ofValue text))
    (hself : args.selfId = self.map Setting.ofValue)
    (hj : ({ threshold := some least } : Journal).GoesOn j) (r : Registry) (report : String) :
    let o := Outcome.ofRun (afterReport args ⟨⟨r, report⟩, j⟩)
    let value := r.valueOf (self.map .text) text
    (o.Answers least report text value ↔ text ≠ "" ∧ text ≠ "--" ∧
      (self = some "--" → ∀ anchor, r.valueOf none text ≠ .error (.selfUnknown anchor))) ∧
    (¬o.Answers least report text value → o.stdout = report ∧ o.status =
      if text = "" ∨ text = "--" then .ok 0 else .error (.changeableId (.list []))) := by
  intro o value
  by_cases hcounts : text = "" ∨ text = "--"
  · -- Nothing is evaluated, though the text is no expression.
    have ho : o = Outcome.ofRun (.ok 0, ⟨⟨r, report⟩, j⟩) := by
      change Outcome.ofRun _ = _
      rw [afterReport_eq hexpr, if_pos hcounts]
      rfl
    obtain ⟨err, herr⟩ := exists_valueOf_eq_error hcounts r (self.map .text)
    change value = _ at herr
    have hnot : ¬o.Answers least report text value := by
      intro h
      have hstatus := h.status_eq
      rw [ho, herr] at hstatus
      cases hstatus
    rw [if_pos hcounts]
    refine ⟨iff_of_false hnot fun h => hcounts.elim h.1 h.2.1, fun _ => ?_⟩
    rw [ho]
    exact ⟨rfl, rfl⟩
  · have ho : o = Outcome.ofRun (printValue text (self.map Setting.ofValue) ⟨⟨r, report⟩, j⟩) := by
      change Outcome.ofRun _ = _
      rw [afterReport_eq hexpr, if_neg hcounts, hself]
    rw [if_neg hcounts]
    rw [not_or] at hcounts
    by_cases hmark : self = some "--" → ∀ anchor, r.valueOf none text ≠ .error (.selfUnknown anchor)
    · have hanswers : o.Answers least report text value :=
        ho ▸ answers_printValue hj (valueOf_selfOf hmark) report
      exact ⟨iff_of_true hanswers ⟨hcounts.1, hcounts.2, hmark⟩, fun h => absurd hanswers h⟩
    · have hends : o.stdout = report ∧ o.status = .error (.changeableId (.list [])) := by
        push Not at hmark
        obtain ⟨rfl, anchor, hreached⟩ := hmark
        obtain ⟨hstatus, hstate⟩ := printValue_mark (j := j) hreached report
        rw [ho]
        exact ⟨congrArg Desk.printed hstate, hstatus⟩
      have hnot : ¬o.Answers least report text value := by
        intro h
        cases hends.2.symm.trans h.status_eq
      exact ⟨iff_of_false hnot fun h => hmark h.2.2, fun _ => hends⟩

/-- A command line asks for the value of an expression, which may belong to a
    shape, in a scene on which a pass ends well. It is answered if the report
    is printed and, after it, the canonical text of the expression with its
    value, where the status is zero; or if the expression cannot be read or
    resolved, where this is noted down, nothing else is printed and the status
    is one.

    It is answered unless the expression is empty or the mark that ends the
    options, or the mark is given for the shape and the evaluation gets to a
    reference to the shape itself. Then the report is all that is printed, and
    the status is zero, or the run fails. -/
theorem run_answers_iff {path text : String} {self level : Option String} {args : List String}
    {least : Level} {file : String → Except Failure String} {scene : Scene}
    {records : List ShapeRecord} (hpath : classify path = .ok .plain)
    (hargs : args.Perm (asking path text self level))
    (hlevel : leastLevel ((level.map Setting.ofValue).getD (.text "WARNING")) = .ok least)
    (hscene : (file path >>= Json.parse >>= Scene.ofValue) = .ok scene)
    (hpass : (runPass scene.shapes scene.viewBox ⟨{}, {}⟩).1 = .ok records) :
    let o := run args file
    let finished := (runPass scene.shapes scene.viewBox ⟨{}, {}⟩).2
    let value := (Registry.resolve text (.byPlace (self.map .text)) finished).1
    ∃ report, finished.state.reportText = .ok report ∧
      (o.Answers least report text value ↔ text ≠ "" ∧ text ≠ "--" ∧
        (self = some "--" → ∀ anchor,
          (Registry.resolve text (.byPlace none) finished).1 ≠ .error (.selfUnknown anchor))) ∧
      (¬o.Answers least report text value → o.stdout = report ∧ o.status =
        if text = "" ∨ text = "--" then .ok 0 else .error (.changeableId (.list []))) := by
  intro o finished value
  have hvalue : value = finished.state.valueOf (self.map .text) text := by
    refine (Registry.resolve_fst ..).trans ?_
    cases self <;> rfl
  have hnone : (Registry.resolve text (.byPlace none) finished).1 =
      finished.state.valueOf none text := Registry.resolve_fst ..
  let asked : Arguments :=
    { path, logLevel := (level.map Setting.ofValue).getD (.text "WARNING")
      expr := some (.ofValue text), selfId := self.map Setting.ofValue }
  obtain ⟨report, j, hreport, hj, hwork⟩ :=
    exists_work asked hscene hpass { threshold := some least }
  have ho : o = Outcome.ofRun (afterReport asked ⟨⟨finished.state, report⟩, j⟩) := by
    change run args file = _
    rw [← hwork, run, parse_of_perm hpath hargs]
    dsimp only
    rw [carryOut, hlevel]
    rfl
  rw [hvalue, hnone, ho]
  exact ⟨report, hreport, answers_iff rfl rfl hj finished.state report⟩

theorem exists_pass_of_isOk {read : Except Failure Scene} (h : (read.toOption.any fun scene =>
      (runPass scene.shapes scene.viewBox ⟨{}, {}⟩).1.isOk) = true) :
    ∃ scene records, read = .ok scene ∧
      (runPass scene.shapes scene.viewBox ⟨{}, {}⟩).1 = .ok records := by
  cases read with
  | error e => cases h
  | ok scene =>
    cases hpass : (runPass scene.shapes scene.viewBox ⟨{}, {}⟩).1 with
    | ok records => exact ⟨scene, records, rfl, hpass⟩
    | error e =>
      change (runPass scene.shapes scene.viewBox ⟨{}, {}⟩).1.isOk = true at h
      rw [hpass] at h
      cases h

/-- An expression with parentheses that belongs to a shape, and options on
    either side of the path. -/
theorem run_answers_iff_self :
    let args := ["--self-id=a", "scene.json", "--expr=2*($self.x)"]
    let file (_ : String) : Except Failure String := .ok
      "\x7b\"shapes\": [\x7b\"type\": \"point\", \"id\": \"a\", \"x\": 1.5\x7d]\x7d"
    ∃ scene records, (file "scene.json" >>= Json.parse >>= Scene.ofValue) = .ok scene ∧
      (runPass scene.shapes scene.viewBox ⟨{}, {}⟩).1 = .ok records ∧
      let finished := (runPass scene.shapes scene.viewBox ⟨{}, {}⟩).2
      ∃ report, finished.state.reportText = .ok report ∧
        (run args file).Answers .warning report "2*($self.x)"
          (Registry.resolve "2*($self.x)" (.byPlace (some (.text "a"))) finished).1 ∧
        (run args file).stdout = "Shapes:\n  point a\n    x: 1.5\n    y: 0\n    centerX: 1.5\n" ++
          "    centerY: 0\n    center: (1.5, 0)\nDiagnostics:\n  (none)\n2 * $self.x = 3\n" := by
  intro args file
  have hpath : classify "scene.json" = .ok .plain := by decide +kernel
  have hargs : args.Perm (asking "scene.json" "2*($self.x)" (some "a") none) := by decide +kernel
  have hlevel : leastLevel (.text "WARNING") = .ok .warning := by
    rw [leastLevel, (by decide +kernel : levels.lookup (upper "WARNING") = some .warning)]
  have hread : ((file "scene.json" >>= Json.parse >>= Scene.ofValue).toOption.any fun scene =>
      (runPass scene.shapes scene.viewBox ⟨{}, {}⟩).1.isOk) = true := by decide +kernel
  obtain ⟨scene, records, hscene, hpass⟩ := exists_pass_of_isOk hread
  obtain ⟨report, hreport, hanswers, -⟩ := run_answers_iff hpath hargs hlevel hscene hpass
  exact ⟨scene, records, hscene, hpass, report, hreport,
    hanswers.2 ⟨by decide, by decide, nofun⟩, by decide +kernel⟩

/-- A reference to a shape that is not there is noted down, and nothing else
    is. -/
example :
    let o := run ["--expr=#b.x", "scene.json"] fun _ => .ok "\x7b\"shapes\": []\x7d"
    (o.status.toOption, o.stdout) = (some 1, "Shapes:\nDiagnostics:\n  (none)\n") ∧
    o.stderr = "ERROR:anchorscript.__main__:Could not evaluate '#b.x': Anchor reference " ++
      "\"#b.x\": shape \"b\" not found. Is it defined before this shape?\n" := by
  decide +kernel

/-- An empty expression cannot be read, but the run ends as if none had been
    given. -/
theorem run_not_answers_empty :
    let args := ["scene.json", "--expr="]
    let file (_ : String) : Except Failure String := .ok "\x7b\"shapes\": []\x7d"
    ∃ scene records, (file "scene.json" >>= Json.parse >>= Scene.ofValue) = .ok scene ∧
      (runPass scene.shapes scene.viewBox ⟨{}, {}⟩).1 = .ok records ∧
      let finished := (runPass scene.shapes scene.viewBox ⟨{}, {}⟩).2
      (Registry.resolve "" (.byPlace none) finished).1 = .error (.misread ⟨0, .emptyText⟩) ∧
      (run args file).status = .ok 0 ∧
      ∀ report, ¬(run args file).Answers .warning report ""
        (Registry.resolve "" (.byPlace none) finished).1 := by
  intro args file
  have hread : ((file "scene.json" >>= Json.parse >>= Scene.ofValue).toOption.any fun scene =>
      (runPass scene.shapes scene.viewBox ⟨{}, {}⟩).1.isOk) = true := by decide +kernel
  obtain ⟨scene, records, hscene, hpass⟩ := exists_pass_of_isOk hread
  have hvalue : ∀ s : Journaled Registry,
      (Registry.resolve "" (.byPlace none) s).1 = .error (.misread ⟨0, .emptyText⟩) := by
    intro s
    have hexpr : Registry.expression "" = .error (.misread ⟨0, .emptyText⟩) := by cbv
    rw [Registry.resolve_fst, Registry.valueOf, hexpr]
    rfl
  have hstatus : (run args file).status = .ok 0 := by
    have hzero : (run args file).status.toOption = some 0 := by decide +kernel
    cases h : (run args file).status <;> rw [h] at hzero <;> cases hzero
    rfl
  refine ⟨scene, records, hscene, hpass, hvalue _, hstatus, fun report h => ?_⟩
  rw [hvalue] at h
  exact absurd (Except.ok.inj (hstatus.symm.trans h.2.1)) (by decide)

end AnchorLayout.CommandLine
