import AnchorLayout.CommandLine.Run
import AnchorLayout.Proofs.Pass.Ledger

/-!
# The finished part of a pass

A pass that stops midway leaves the records of the shapes that it has finished,
with their final anchors, and of the shape at which it has stopped anchors at
most. So whatever a pass leaves can be reported on, because all shapes that are
recorded have anchors (`runPass_finished`).
-/

namespace AnchorLayout

open AnchorLayout.Action

/-! ## Reports -/

namespace Registry

/-- The lines of a report on a shape that has anchors. -/
def recordBlock (record : ShapeRecord) (as : Anchors) : List String :=
  ("  " ++ record.kind ++ " " ++ record.id.plainText ++
    if record.autoId then " (auto id)" else "") :: anchorLines as

/-- The text of a report on shapes that have anchors. -/
def reportOf (records : List ShapeRecord) (anchors : List Anchors) (ds : List Diagnostic) :
    String :=
  lines (["Shapes:"] ++ (List.zipWith recordBlock records anchors).flatten ++ ["Diagnostics:"] ++
    diagnosticLines ds)

theorem mapM_recordLines {r : Registry} {records : List ShapeRecord} {anchors : List Anchors}
    (h : List.Forall₂ (fun record as => r.anchorsOf record.id = .ok as) records anchors) :
    records.mapM r.recordLines = .ok (List.zipWith recordBlock records anchors) := by
  induction h with
  | nil => rfl
  | cons has _ ih =>
    rw [List.mapM_cons, ih, recordLines, has]
    rfl

/-- Where all shapes have anchors, a report tells of all of them. -/
theorem reportText_eq {r : Registry} {anchors : List Anchors}
    (h : List.Forall₂ (fun record as => r.anchorsOf record.id = .ok as) r.records anchors) :
    r.reportText = .ok (reportOf r.records anchors r.diagnostics) := by
  rw [reportText, mapM_recordLines h]
  rfl

theorem exists_anchors {r : Registry} {records : List ShapeRecord}
    (h : ∀ record ∈ records, ∃ as, r.anchorsOf record.id = .ok as) :
    ∃ anchors, List.Forall₂ (fun record as => r.anchorsOf record.id = .ok as) records anchors := by
  induction records with
  | nil => exact ⟨[], .nil⟩
  | cons record records ih =>
    obtain ⟨⟨as, has⟩, h⟩ := List.forall_mem_cons.1 h
    obtain ⟨anchors, ih⟩ := ih h
    exact ⟨as :: anchors, .cons has ih⟩

/-- Where all shapes have anchors, the report is printed. -/
theorem exists_printReport {r : Registry}
    (h : ∀ record ∈ r.records, ∃ as, r.anchorsOf record.id = .ok as) :
    ∃ anchors, List.Forall₂ (fun record as => r.anchorsOf record.id = .ok as) r.records anchors ∧
      ∀ printed journal, CommandLine.printReport ⟨⟨r, printed⟩, journal⟩ =
        (.ok (), ⟨⟨r, printed ++ reportOf r.records anchors r.diagnostics⟩, journal⟩) := by
  obtain ⟨anchors, hanchors⟩ := exists_anchors h
  refine ⟨anchors, hanchors, fun printed journal => ?_⟩
  rw [CommandLine.printReport, read_bind_apply, reportText_eq hanchors]
  rfl

end Registry

/-! ## Passes -/

/-- A pass that fails does so at one shape, with all shapes before it finished:
    the registry has the records of these, in order, and their final anchors,
    and no others but perhaps some of the shape that has failed. And whatever
    registry a pass leaves, every shape that is recorded in it has anchors, so
    that a report on it is printed, with all these shapes. -/
theorem runPass_finished (shapes : List ShapeSpec) (viewBox : Option ViewBox)
    (s : Journaled Registry) :
    let r := (runPass shapes viewBox s).2.state
    (∀ e, (runPass shapes viewBox s).1 = .error e → ∃ before d after,
      shapes = before ++ d :: after ∧ (runPass before viewBox s).1 = .ok r.records ∧
      (runPass (before ++ [d]) viewBox s).1 = .error e ∧
      (r.anchors.keys = Pass.ids before ∨
        r.anchors.keys = Pass.ids before ++ [Pass.idAfter before d]) ∧
      r.records.length = before.length ∧
      ∀ first c rest, before = first ++ c :: rest → ∃ record as,
        r.records[first.length]? = some record ∧ r.anchorsOf record.id = .ok as ∧
        Pass.Finished (runPass first viewBox s).2.state first c record as) ∧
    ∃ anchors, List.Forall₂ (fun record as => r.anchorsOf record.id = .ok as) r.records anchors ∧
      ∀ printed journal, CommandLine.printReport ⟨⟨r, printed⟩, journal⟩ =
        (.ok (), ⟨⟨r, printed ++ Registry.reportOf r.records anchors r.diagnostics⟩, journal⟩) := by
  intro r
  obtain ⟨hr, hs⟩ := runPass_eq_course shapes viewBox s
  obtain ⟨r', hc, hl⟩ | ⟨before, d, after, r₁, e, r', hsplit, h₁, hl, hd, hc, hadj⟩ :=
    Pass.course_cases (s.state.opened viewBox) shapes rfl rfl
  all_goals
    rw [hc] at hr hs
    obtain rfl : r = r' := hs
  · refine ⟨fun e he => ?_, Registry.exists_printReport fun record hrecord => ?_⟩
    · rw [hr] at he
      cases he
    · obtain ⟨-, -, -, as, -, has, -⟩ := hl.exists_of_mem hrecord
      exact ⟨as, has⟩
  · have hrecords : r.records = r₁.records := congrArg (·.map Prod.snd) hadj.shapes
    refine ⟨fun e' he' => ?_, Registry.exists_printReport fun record hrecord => ?_⟩
    · rw [hr] at he'
      cases he'
      refine ⟨before, d, after, hsplit, ?_, ?_, ?_, ?_, fun first c rest hfirst => ?_⟩
      · rw [(runPass_eq_course before viewBox s).1, h₁, hrecords]
        rfl
      · rw [(runPass_eq_course (before ++ [d]) viewBox s).1, hd]
        rfl
      · obtain ha | ⟨as, ha⟩ := hadj.anchors <;> rw [ha]
        · exact .inl hl.anchors
        · rw [Pass.keys_concat, hl.anchors]
          exact .inr rfl
      · rw [hrecords, hl.length_records]
      · obtain ⟨record, as, hrecord, has, hfin⟩ := hl.finished first c rest hfirst
        rw [hrecords, (runPass_eq_course first viewBox s).2]
        exact ⟨record, as, hrecord, Registry.anchorsOf_of_isPrefix hadj.isPrefix has, hfin⟩
    · rw [hrecords] at hrecord
      obtain ⟨-, -, -, as, -, has, -⟩ := hl.exists_of_mem hrecord
      exact ⟨as, Registry.anchorsOf_of_isPrefix hadj.isPrefix has⟩

/-- A circle, and after it a rectangle whose width has been published when its
    place is asked for, which is no place of the circle. -/
theorem runPass_finished_rect :
    let shapes : List ShapeSpec := [⟨"circle", .text "a", [("r", .text "5")]⟩,
      ⟨"rect", .datum .null 0, [("width", .int 2), ("x", .text "#a.start")]⟩,
      ⟨"point", .text "b", []⟩]
    let r := (runPass shapes none ⟨{}, {}⟩).2.state
    (runPass shapes none ⟨{}, {}⟩).1.isOk = false ∧
    (∃ before d after, shapes = before ++ d :: after ∧
      (runPass before none ⟨{}, {}⟩).1 = .ok r.records ∧ r.records.length = before.length) ∧
    r.records.map (fun record => (record.kind, record.id.plainText)) = [("circle", "a")] ∧
    r.anchors.map (fun e => (e.1.plainText, Table.keys e.2)) =
      [("a", Shape.anchorNames "circle"), ("rect-1", ["width"])] := by
  intro shapes r
  have hfail : (runPass shapes none ⟨{}, {}⟩).1.isOk = false := by decide +kernel
  have hrecords : r.records.map (fun record => (record.kind, record.id.plainText)) =
      [("circle", "a")] := by decide +kernel
  have hanchors : r.anchors.map (fun e => (e.1.plainText, Table.keys e.2)) =
      [("a", Shape.anchorNames "circle"), ("rect-1", ["width"])] := by decide +kernel
  obtain ⟨e, he⟩ : ∃ e, (runPass shapes none ⟨{}, {}⟩).1 = .error e := by
    cases h : (runPass shapes none ⟨{}, {}⟩).1 with
    | error e => exact ⟨e, rfl⟩
    | ok records =>
      rw [h] at hfail
      cases hfail
  obtain ⟨before, d, after, hsplit, hbefore, -, -, hlength, -⟩ :=
    (runPass_finished shapes none ⟨{}, {}⟩).1 e he
  exact ⟨hfail, ⟨before, d, after, hsplit, hbefore, hlength⟩, hrecords, hanchors⟩

end AnchorLayout
