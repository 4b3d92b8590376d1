import AnchorLayout.Proofs.Pass.Independence
import AnchorLayout.Proofs.Registry.Operating

/-!
# The course of a pass

A pass takes its shapes one by one, each in the registry that those before it
leave (`Pass.course_concat`). If it fails, it fails at one shape, after all
before it have been realized (`Pass.exists_of_course_error`). So what is true of
a pass is shown by induction on its last shape.

That is the course of every pass whose realizers work through their builders, be
they the usual ones (`runPass_eq_course`) or not (`runPassWith_eq_course`).
-/

namespace AnchorLayout

open AnchorLayout.Action

namespace Pass

/-! ## The ids of shapes -/

/-- The ids of shapes that come after the shapes `before`, in order. -/
def idsFrom (before : List ShapeSpec) : List ShapeSpec → List ShapeId
  | [] => []
  | d :: rest => idAfter before d :: idsFrom (before ++ [d]) rest

/-- The ids of the shapes of a pass, in order. -/
def ids (shapes : List ShapeSpec) : List ShapeId := idsFrom [] shapes

theorem idsFrom_append (before first rest : List ShapeSpec) :
    idsFrom before (first ++ rest) = idsFrom before first ++ idsFrom (before ++ first) rest := by
  induction first generalizing before with
  | nil => rw [List.append_nil]; rfl
  | cons d first ih =>
    rw [List.cons_append, idsFrom, idsFrom, ih, List.append_assoc]
    rfl

@[simp] theorem ids_concat (before : List ShapeSpec) (d : ShapeSpec) :
    ids (before ++ [d]) = ids before ++ [idAfter before d] :=
  idsFrom_append [] before [d]

@[simp] theorem length_ids (shapes : List ShapeSpec) : (ids shapes).length = shapes.length := by
  induction shapes using List.reverseRecOn with
  | nil => rfl
  | append_singleton before d ih => simp [ih]

/-- The id of a shape is told by the shapes before it. -/
theorem getElem?_ids (before : List ShapeSpec) (d : ShapeSpec) (after : List ShapeSpec) :
    (ids (before ++ d :: after))[before.length]? = some (idAfter before d) := by
  rw [ids, idsFrom_append, List.nil_append, ← ids, ← length_ids before,
    List.getElem?_append_right le_rfl, Nat.sub_self]
  rfl

theorem exists_split {shapes : List ShapeSpec} {k : ℕ} (h : k < shapes.length) :
    ∃ before d after, shapes = before ++ d :: after ∧ before.length = k :=
  ⟨shapes.take k, shapes[k], shapes.drop (k + 1),
    by rw [← List.drop_eq_getElem_cons, List.take_append_drop], List.length_take_of_le h.le⟩

/-- An id of a pass is that of one of its shapes. -/
theorem exists_of_mem_ids {shapes : List ShapeSpec} {id : ShapeId} (h : id ∈ ids shapes) :
    ∃ before d after, shapes = before ++ d :: after ∧ idAfter before d = id := by
  obtain ⟨k, hk⟩ := List.getElem?_of_mem h
  obtain ⟨hlt, -⟩ := List.getElem?_eq_some_iff.1 hk
  rw [length_ids] at hlt
  obtain ⟨before, d, after, rfl, rfl⟩ := exists_split hlt
  rw [getElem?_ids] at hk
  exact ⟨before, d, after, rfl, Option.some.inj hk⟩

theorem after_concat (p : Progress) (before : List ShapeSpec) (d : ShapeSpec) :
    p.after (before ++ [d]) = (p.after before).next d :=
  List.foldl_concat ..

/-- The ids are what a pass remembers. -/
theorem ids_after (shapes : List ShapeSpec) : (Progress.after {} shapes).ids = ids shapes := by
  induction shapes using List.reverseRecOn with
  | nil => rfl
  | append_singleton before d ih => rw [after_concat, ids_next, ih, ids_concat, idAfter_eq]

/-! ## Shapes one by one -/

/-- How a pass fares with shapes, and the registry that it leaves. -/
def course (table : RealizerTable) (shapes : List ShapeSpec) (r : Registry) :
    Except Failure Unit × Registry :=
  let t := steps table {} shapes ⟨r, {}⟩
  (t.1.map fun _ => (), t.2.state)

/-- How a pass fares with the shape `d` after the shapes `before`, in the
    registry `r` that these have left. -/
def stage (table : RealizerTable) (before : List ShapeSpec) (d : ShapeSpec) (r : Registry) :
    Except Failure Unit × Registry :=
  let t := step table (Progress.after {} before) d ⟨r, {}⟩
  (t.1.map fun _ => (), t.2.state)

variable {table : RealizerTable}

/-- What is noted down does not change the course of a pass. -/
theorem transparent_steps (ht : RealizerTable.ThroughBuilder table) (p : Progress)
    (shapes : List ShapeSpec) : Transparent (steps table p shapes) :=
  Registry.operating_transparent.driving.steps ht (fun _ _ _ => Registry.canRecord_transparent _) p

@[simp] theorem course_nil (table : RealizerTable) (r : Registry) :
    course table [] r = (.ok (), r) :=
  rfl

/-- A pass goes on with one more shape if it gets there. -/
theorem course_concat (ht : RealizerTable.ThroughBuilder table) (before : List ShapeSpec)
    (d : ShapeSpec) (r : Registry) :
    course table (before ++ [d]) r =
      match course table before r with
      | (.ok _, r₁) => stage table before d r₁
      | (.error e, r₁) => (.error e, r₁) := by
  rw [course, course, steps_append, bind_apply]
  rcases h : steps table {} before ⟨r, {}⟩ with ⟨e | p, s₁⟩
  · rfl
  · -- The shape does not see the journal that the others have left.
    obtain rfl := progress_of_steps h
    have h₁ : s₁.state = (⟨s₁.state, {}⟩ : Journaled Registry).state := rfl
    obtain ⟨hr, hs⟩ := transparent_steps ht (Progress.after {} before) [d] h₁
    dsimp only
    rw [hr, hs, steps_singleton]
    rfl

theorem course_concat_of_ok (ht : RealizerTable.ThroughBuilder table) {before : List ShapeSpec}
    {r r₁ : Registry} (h : course table before r = (.ok (), r₁)) (d : ShapeSpec) :
    course table (before ++ [d]) r = stage table before d r₁ := by
  rw [course_concat ht, h]

theorem course_concat_of_error (ht : RealizerTable.ThroughBuilder table) {before : List ShapeSpec}
    {r r₁ : Registry} {e : Failure} (h : course table before r = (.error e, r₁)) (d : ShapeSpec) :
    course table (before ++ [d]) r = (.error e, r₁) := by
  rw [course_concat ht, h]

/-- A pass over more shapes fails where one over the first of them does. -/
theorem course_append_of_error (ht : RealizerTable.ThroughBuilder table) {first : List ShapeSpec}
    {r r₁ : Registry} {e : Failure} (h : course table first r = (.error e, r₁))
    (rest : List ShapeSpec) : course table (first ++ rest) r = (.error e, r₁) := by
  induction rest using List.reverseRecOn with
  | nil => rwa [List.append_nil]
  | append_singleton rest d ih => rw [← List.append_assoc, course_concat_of_error ht ih]

/-- A pass that succeeds has succeeded with the first shapes. -/
theorem exists_course_of_append (ht : RealizerTable.ThroughBuilder table)
    {first rest : List ShapeSpec} {r r' : Registry}
    (h : course table (first ++ rest) r = (.ok (), r')) :
    ∃ r₁, course table first r = (.ok (), r₁) := by
  rcases h₁ : course table first r with ⟨e | _, r₁⟩
  · rw [course_append_of_error ht h₁] at h
    cases h
  · exact ⟨r₁, rfl⟩

/-- A pass that fails does so at one shape, after it has realized those before
    it. -/
theorem exists_of_course_error (ht : RealizerTable.ThroughBuilder table) {shapes : List ShapeSpec}
    {r r' : Registry} {e : Failure} (h : course table shapes r = (.error e, r')) :
    ∃ before d after r₁, shapes = before ++ d :: after ∧
      course table before r = (.ok (), r₁) ∧ stage table before d r₁ = (.error e, r') := by
  induction shapes using List.reverseRecOn with
  | nil => cases h
  | append_singleton before d ih =>
    rcases h₁ : course table before r with ⟨e₁ | _, r₁⟩
    · rw [course_concat_of_error ht h₁] at h
      cases h
      obtain ⟨first, c, rest, r₀, rfl, hfirst, hc⟩ := ih h₁
      exact ⟨first, c, rest ++ [d], r₀, by rw [List.append_assoc]; rfl, hfirst, hc⟩
    · rw [course_concat_of_ok ht h₁] at h
      exact ⟨before, d, [], r₁, rfl, h₁, h⟩

/-! ## One shape -/

/-- A shape is refused, and nothing is done to the registry, or it is realized
    under its id, which none of the shapes before it has. -/
theorem stage_cases (table : RealizerTable) (before : List ShapeSpec) (d : ShapeSpec)
    (r : Registry) :
    (∃ e, stage table before d r = (.error e, r)) ∨
    ∃ run, table.get? d.kind = some run ∧ (idAfter before d).asKey = .ok (idAfter before d) ∧
      (ids before).contains (idAfter before d) = false ∧
      let t := realize run d.kind (idAfter before d) (!d.declares) d.props ⟨r, {}⟩
      stage table before d r = (t.1, t.2.state) := by
  rcases step_cases table (Progress.after {} before) d with ⟨e, he⟩ | ⟨run, key, hk, hkey, hnew, he⟩
  · exact .inl ⟨e, by rw [stage, he]; rfl⟩
  · rw [idFor_fst, ← idAfter_eq] at hkey he
    obtain rfl := ShapeId.eq_of_asKey hkey
    rw [ids_idFor, ids_after] at hnew
    refine .inr ⟨run, hk, hkey, hnew, ?_⟩
    rw [stage, he, idFor_autoId, bind_apply]
    generalize realize run _ _ _ _ _ = t
    obtain ⟨e | _, s₁⟩ := t <;> rfl

/-- A shape fails where its realizer does, or where that has not published
    final anchors. Else it is recorded. -/
theorem realize_split (run : Realizer) (kind : String) {id : ShapeId} (hid : id.asKey = .ok id)
    (autoId : Bool) (props : Members) (s : Journaled Registry) :
    let t := run { id } props s
    (∃ e, t.1 = .error e ∧ realize run kind id autoId props s = (.error e, t.2)) ∨
    (∃ b drawn, t.1 = .ok (b, drawn) ∧ b.isFinal = false ∧
      realize run kind id autoId props s = (.error (.notPublished kind id), t.2)) ∨
    ∃ b drawn j, t.1 = .ok (b, drawn) ∧ b.isFinal = true ∧
      realize run kind id autoId props s =
        (.ok (), ⟨t.2.state.recorded id ⟨kind, id, autoId, drawn⟩, j⟩) := by
  dsimp only
  unfold realize
  simp only [bind_apply]
  generalize run { id } props s = t
  obtain ⟨e | ⟨b, drawn⟩, s₁⟩ := t
  · exact .inl ⟨e, rfl, rfl⟩
  · cases hb : b.isFinal with
    | false => exact .inr (.inl ⟨b, drawn, rfl, hb, by simp only [hb]; rfl⟩)
    | true =>
      obtain ⟨j, hj⟩ := Registry.does_registerShape hid ⟨kind, id, autoId, drawn⟩ s₁
      exact .inr (.inr ⟨b, drawn, _, rfl, hb, by
        simp only [hb, ↓reduceIte, bind_apply, hj]; rfl⟩)

end Pass

/-! ## Passes -/

/-- A pass ends as its course does, with the shapes that are recorded there. -/
theorem Pass.run_eq_course {table : RealizerTable} (ht : RealizerTable.ThroughBuilder table)
    (shapes : List ShapeSpec) (viewBox : Option ViewBox) (s : Journaled Registry) :
    let c := course table shapes (s.state.opened viewBox)
    (run table shapes viewBox s).1 = c.1.map (fun _ => c.2.records) ∧
      (run table shapes viewBox s).2.state = c.2 := by
  intro c
  have hopen : (⟨s.state.opened viewBox, s.journal⟩ : Journaled Registry).state =
    (⟨s.state.opened viewBox, {}⟩ : Journaled Registry).state := rfl
  obtain ⟨hr, hs⟩ := transparent_steps ht {} shapes hopen
  rw [run_eq, bind_apply, change_apply]
  dsimp only
  rw [bind_apply]
  simp only [c, course, ← hr, ← hs]
  generalize steps table {} shapes _ = t
  obtain ⟨e | p, s₁⟩ := t <;> exact ⟨rfl, rfl⟩

/-- So does a pass with realizers of its own. -/
theorem runPassWith_eq_course {table : Option RealizerTable}
    (ht : ∀ t ∈ table, RealizerTable.ThroughBuilder t) (shapes : List ShapeSpec)
    (viewBox : Option ViewBox) (s : Journaled Registry) :
    let c := Pass.course (table.getD Shape.kinds) shapes (s.state.opened viewBox)
    (runPassWith shapes viewBox table s).1 = c.1.map (fun _ => c.2.records) ∧
      (runPassWith shapes viewBox table s).2.state = c.2 := by
  obtain ⟨j, hr, hs⟩ := exists_call_eq Pass.tracing
    [.registry, .specs shapes, .viewBox viewBox, .realizers (table.map Table.keys)] []
    (fun _ => .value .null) (Pass.run (table.getD Shape.kinds) shapes viewBox) s
  rw [runPassWith, hr, hs]
  exact Pass.run_eq_course (throughBuilder_getD ht) shapes viewBox ⟨s.state, j⟩

/-- So does one with the usual realizers. -/
theorem runPass_eq_course (shapes : List ShapeSpec) (viewBox : Option ViewBox)
    (s : Journaled Registry) :
    let c := Pass.course Shape.kinds shapes (s.state.opened viewBox)
    (runPass shapes viewBox s).1 = c.1.map (fun _ => c.2.records) ∧
      (runPass shapes viewBox s).2.state = c.2 := by
  obtain ⟨j, hr, hs⟩ := exists_call_eq Pass.tracing [.registry, .specs shapes, .viewBox viewBox] []
    (fun _ => .value .null) (Pass.run Shape.kinds shapes viewBox) s
  rw [runPass, hr, hs]
  exact Pass.run_eq_course throughBuilder_kinds shapes viewBox ⟨s.state, j⟩

end AnchorLayout
