import AnchorLayout.Proofs.Pass.Step
import AnchorLayout.Proofs.Registry.Effects

/-!
# What a pass depends on

A pass ends alike in registries that are related, if its shapes cannot leave
the relation (`agrees_steps`). There are two uses of this.

* A pass can be told from the steps that it takes (`runPass_eq_steps`), and it
  does not depend on the journal (`transparent_runPass`).
* A pass does not depend on the registry that it is given, on what has been
  done to it before or on the view box, as long as diagnostics are left out of
  account (`runPass_sameShapes`).
-/

namespace AnchorLayout

open AnchorLayout.Action

/-! ## Passes in related registries -/

section

variable {R : Registry → Registry → Prop} {T : Question → Prop}

/-- A shape that asks the same and is answered the same is realized in the same
    way. -/
theorem agrees_realize {kind : String} {run : Realizer}
    (hk : Shape.kinds.get? kind = some run) {id : ShapeId} (h : Registry.Respects R T id)
    (autoId : Bool) {props : Members} (hT : ∀ q ∈ Question.ofShape id.given? kind props, T q) :
    Agrees R (Pass.realize run kind id autoId props) := by
  unfold Pass.realize
  refine (h.agrees_realizing.realizer (b := { id := id }) hk props hT).bind fun ⟨b, drawn⟩ => ?_
  dsimp only
  have hend : Agrees R (do
      Registry.registerShape id ⟨kind, id, autoId, drawn⟩
      Action.note (.realized kind id)) := by
    refine Agrees.bind ?_ fun _ => agrees_note _
    obtain ⟨e, he⟩ | ⟨-, he⟩ := Registry.registerShape_cases id ⟨kind, id, autoId, drawn⟩
    · rw [he]
      exact agrees_throw e
    · exact he.agrees fun _ _ => h.recorded _
  split_ifs
  · exact hend
  · exact (agrees_throw _).bind fun _ => hend

theorem agrees_step (h : ∀ id, Registry.Respects R (fun _ => True) id) (p : Pass.Progress)
    (d : ShapeSpec) : Agrees R (Pass.step Shape.kinds p d) := by
  rcases Pass.step_cases Shape.kinds p d with ⟨e, he⟩ | ⟨run, key, hk, -, -, he⟩ <;> rw [he]
  · exact agrees_throw e
  · exact (agrees_realize hk (h _) _ fun _ _ => trivial).bind fun _ => agrees_pure _

/-- So a pass goes the same course in registries that no shape can tell
    apart. -/
theorem agrees_steps (h : ∀ id, Registry.Respects R (fun _ => True) id) (p : Pass.Progress)
    (shapes : List ShapeSpec) : Agrees R (Pass.steps Shape.kinds p shapes) := by
  induction shapes generalizing p with
  | nil => exact agrees_pure p
  | cons d rest ih => exact (agrees_step h p d).bind ih

end

/-! ## The journal -/

/-- A registry answers as itself. -/
theorem Registry.respects_eq (T : Question → Prop) (id : ShapeId) : Respects Eq T id where
  answer h _ := h ▸ rfl
  warned _ h := h ▸ rfl
  published _ h := h ▸ rfl
  recorded _ h := h ▸ rfl

/-- The steps of a pass, from the registry in which it begins. -/
def Pass.stepsFrom (shapes : List ShapeSpec) (r : Registry) :
    Except Failure Progress × Journaled Registry :=
  steps Shape.kinds {} shapes ⟨r, {}⟩

/-- A pass ends where its steps do, with the shapes that are recorded there. -/
theorem runPass_eq_steps (shapes : List ShapeSpec) (viewBox : Option ViewBox)
    (s : Journaled Registry) :
    let t := Pass.stepsFrom shapes (s.state.opened viewBox)
    (runPass shapes viewBox s).1 = t.1.map (fun _ => t.2.state.records) ∧
      (runPass shapes viewBox s).2.state = t.2.state := by
  intro t
  obtain ⟨j, hr, hs⟩ := exists_call_eq Pass.tracing [.registry, .specs shapes, .viewBox viewBox] []
    (fun _ => .value .null) (Pass.run Shape.kinds shapes viewBox) s
  rw [runPass, hr, hs, Pass.run_eq, bind_apply, change_apply]
  dsimp only
  have hopen : (⟨s.state.opened viewBox, j⟩ : Journaled Registry).state =
    (⟨s.state.opened viewBox, {}⟩ : Journaled Registry).state := rfl
  obtain ⟨hr', hs'⟩ := agrees_steps (Registry.respects_eq _) {} shapes hopen
  change _ = t.1 at hr'
  change _ = t.2.state at hs'
  rw [bind_apply, ← hr', ← hs']
  generalize Pass.steps Shape.kinds {} shapes _ = u
  obtain ⟨e | p, s₁⟩ := u <;> exact ⟨rfl, rfl⟩

theorem exists_steps_of_runPass {shapes : List ShapeSpec} {viewBox : Option ViewBox}
    {s : Journaled Registry} {records : List ShapeRecord}
    (h : (runPass shapes viewBox s).1 = .ok records) :
    ∃ x s', Pass.steps Shape.kinds {} shapes ⟨s.state.opened viewBox, {}⟩ = (.ok x, s') := by
  rw [(runPass_eq_steps shapes viewBox s).1, Pass.stepsFrom] at h
  generalize Pass.steps Shape.kinds {} shapes _ = t at h ⊢
  obtain ⟨e | x, s'⟩ := t
  · cases h
  · exact ⟨x, s', rfl⟩

theorem runPass_of_steps {shapes : List ShapeSpec} {viewBox : Option ViewBox}
    {s s' : Journaled Registry} {x : Pass.Progress}
    (h : Pass.steps Shape.kinds {} shapes ⟨s.state.opened viewBox, {}⟩ = (.ok x, s')) :
    (runPass shapes viewBox s).1 = .ok s'.state.records ∧
      (runPass shapes viewBox s).2.state = s'.state := by
  obtain ⟨hr, hs⟩ := runPass_eq_steps shapes viewBox s
  rw [hr, hs, Pass.stepsFrom, h]
  exact ⟨rfl, rfl⟩

/-- Whether calls are traced makes no difference to a pass. -/
theorem transparent_runPass (shapes : List ShapeSpec) (viewBox : Option ViewBox) :
    Transparent (runPass shapes viewBox) := by
  intro s s' h
  obtain ⟨hr, hs⟩ := runPass_eq_steps shapes viewBox s
  obtain ⟨hr', hs'⟩ := runPass_eq_steps shapes viewBox s'
  rw [hr, hs, hr', hs', h]
  exact ⟨rfl, rfl⟩

/-! ## The registry and the view box -/

/-- The same anchors and the same shapes, in the same order. -/
structure Registry.SameShapes (r r' : Registry) : Prop where
  anchors : r.anchors = r'.anchors
  shapes : r.shapes = r'.shapes

/-- No answer depends on diagnostics, the view box or the configuration. -/
theorem Registry.respects_sameShapes (T : Question → Prop) (id : ShapeId) :
    Respects SameShapes T id where
  answer h _ := answer_congr (fun _ _ => by rw [h.anchors]) fun _ _ => by rw [h.anchors]
  warned _ h := ⟨h.anchors, h.shapes⟩
  published as h := ⟨congrArg (·.insert id as) h.anchors, h.shapes⟩
  recorded record h := ⟨h.anchors, congrArg (·.insert id record) h.shapes⟩

/-- What a pass gives and what it leaves in the registry does not depend on the
    registry or on view boxes but for the diagnostics: two passes over the same
    shapes end with the same records or the same failure, and leave the same
    anchors and the same shapes, in the same order. And where both registries
    have the same configuration and both passes the same view box in the end,
    the diagnostics are the same too. -/
theorem runPass_sameShapes (shapes : List ShapeSpec) (viewBox viewBox' : Option ViewBox)
    (s s' : Journaled Registry) :
    let one := runPass shapes viewBox s
    let other := runPass shapes viewBox' s'
    one.1 = other.1 ∧ one.2.state.anchors = other.2.state.anchors ∧
    one.2.state.shapes = other.2.state.shapes ∧
    (s.state.config = s'.state.config →
      viewBox.or s.state.viewBox = viewBox'.or s'.state.viewBox →
      one.2.state.diagnostics = other.2.state.diagnostics) := by
  intro one other
  obtain ⟨hr, hs⟩ := runPass_eq_steps shapes viewBox s
  obtain ⟨hr', hs'⟩ := runPass_eq_steps shapes viewBox' s'
  -- Both begin without shapes.
  have hopen : Registry.SameShapes (⟨s.state.opened viewBox, {}⟩ : Journaled Registry).state
    (⟨s'.state.opened viewBox', {}⟩ : Journaled Registry).state := ⟨rfl, rfl⟩
  obtain ⟨hsteps, hshapes⟩ := agrees_steps (Registry.respects_sameShapes _) {} shapes hopen
  refine ⟨?_, ?_, ?_, fun hconfig hviewBox => ?_⟩
  · rw [hr, hr', Pass.stepsFrom, Pass.stepsFrom, hsteps, Registry.records, Registry.records,
      hshapes.shapes]
  · rw [hs, hs']
    exact hshapes.anchors
  · rw [hs, hs']
    exact hshapes.shapes
  · have hopen : s.state.opened viewBox = s'.state.opened viewBox' := by
      rw [Registry.opened, Registry.opened, hviewBox, Registry.cleared, Registry.cleared, hconfig]
    rw [hs, hs', hopen]

/-- A registry that has been used and one that has not, with the same view box
    in the end. -/
theorem runPass_sameShapes_used :
    let shapes : List ShapeSpec :=
      [⟨"circle", .text "a", [("r", .text "5"), ("centerX", .text "$self.r - 9")]⟩]
    let v : ViewBox := ⟨0, 0, 10, 10⟩
    let used : Registry :=
      { anchors := [(.text "a", [("r", .number 1)])], diagnostics := [⟨.error, .text "a", "?"⟩],
        viewBox := some v }
    let one := runPass shapes (some v) ⟨{}, {}⟩
    let other := runPass shapes none ⟨used, {}⟩
    one.1.isOk = true ∧ one.1 = other.1 ∧ one.2.state.anchors = other.2.state.anchors ∧
    one.2.state.diagnostics = other.2.state.diagnostics := by
  intro shapes v used one other
  have hok : one.1.isOk = true := by decide +kernel
  obtain ⟨hr, hanchors, -, hdiagnostics⟩ :=
    runPass_sameShapes shapes (some v) none ⟨{}, {}⟩ ⟨used, {}⟩
  exact ⟨hok, hr, hanchors, hdiagnostics rfl rfl⟩

end AnchorLayout
