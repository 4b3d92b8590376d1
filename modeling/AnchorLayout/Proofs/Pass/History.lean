import AnchorLayout.Proofs.Journal.History
import AnchorLayout.Proofs.Pass.Course
import AnchorLayout.Proofs.Registry.Building

/-!
# The history of a pass

What a builder publishes enters the history of the registry if the call does
not fail, and nothing else that a realizer does enters it (`Registry.Step`). A
pass forgets all that the registry held; then each of its shapes adds what its
realizer publishes and, if it is realized, its record (`Pass.Adds`). The first
shape that fails is the last one that adds anything.

A pass over shapes that are known by texts has such a history
(`Pass.exists_adds`), and what this tells is what the registry holds in the end
(`Pass.Adds.tells_course`).
-/

namespace AnchorLayout

open AnchorLayout.Action

namespace Registry

/-- The anchors and the shapes are the same as before. -/
def KeepsShapes (r r' : Registry) : Prop := r'.anchors = r.anchors ∧ r'.shapes = r.shapes

instance : IsPreorder Registry KeepsShapes where
  refl _ := ⟨rfl, rfl⟩
  trans _ _ _ h h' := ⟨h'.1.trans h.1, h'.2.trans h.2⟩

/-- The operations that are there to ask, to warn and to check leave anchors and
    shapes alone, and so does all that is put together from them. -/
theorem keeping_frames : Keeping fun ⦃_⦄ a => Frames KeepsShapes a where
  pure := frames_pure
  throw := frames_throw
  bind := Frames.bind
  call := Frames.call
  read _ := ⟨rfl, rfl⟩
  note _ _ _ := ⟨rfl, rfl⟩
  report _ _ := ⟨rfl, rfl⟩
  setViewBox _ _ := ⟨rfl, rfl⟩

/-! ## Realizers -/

/-- The changes that a step of a realizer makes. Its builder publishes data by
    calls that are there to do so, as far as they do not fail. -/
inductive Step : ∀ ⦃α : Type⦄, Action Registry α → Journaled Registry → History → Prop where
  | published {b b' : Builder} {c : Builder.Call} {members : Members} {s : Journaled Registry} :
      c.members? = some members → (c.run b s).1 = .ok b' →
        Step (c.run b) s [.published b.id members]
  /-- A call that fails has published nothing, not even in part. -/
  | refused {b : Builder} {c : Builder.Call} {members : Members} {s : Journaled Registry}
      {e : Failure} :
      c.members? = some members → (c.run b s).1 = .error e → Step (c.run b) s []
  | kept {α : Type} {a : Action Registry α} {s : Journaled Registry} :
      Frames KeepsShapes a → Step a s []

/-- A step keeps to what the history tells. -/
theorem Step.tells {α : Type} {a : Action Registry α} {s : Journaled Registry} {h h₀ : History}
    (hs : Step a s h) (ht : h₀.Tells s.state) : History.Tells (h₀ ++ h) (a s).2.state := by
  cases hs with
  | @published b b' c members s hc hok =>
    obtain ⟨e, hrun⟩ | ⟨as, j, has, -, hrun⟩ := Builder.Call.run_of_members?_eq_some (b := b) hc s
    · rw [hrun] at hok
      cases hok
    · rw [hrun]
      exact ht.published has
  | @refused b c members s e hc hno =>
    obtain ⟨e', hrun⟩ | ⟨as, j, -, -, hrun⟩ := Builder.Call.run_of_members?_eq_some (b := b) hc s
    · rw [hrun, List.append_nil]
      exact ht
    · rw [hrun] at hno
      cases hno
  | kept ha =>
    rw [List.append_nil]
    exact ht.of_same (ha s).1 (ha s).2

/-- So does a run that is made of steps, wherever it ends. -/
theorem tells_of_makes {α : Type} {a : Action Registry α} {s : Journaled Registry}
    {h h₀ : History} (hm : Makes Step a s h) (ht : h₀.Tells s.state) :
    History.Tells (h₀ ++ h) (a s).2.state :=
  hm.preserves (fun _ _ _ _ _ => Step.tells) ht

/-- To register anchors is to publish them by a builder that is given up
    then. -/
theorem register_eq_publishPartial (id : ShapeId) (members : Members) :
    register id members = (do
      let _ ← (Builder.Call.publishPartial members).run { id }
      return ()) := by
  change _ = (({ id } : Builder).publishPartial members >>= fun _ => pure ())
  simp only [Builder.publishPartial, bind_assoc, pure_bind]
  exact (bind_pure _).symm

/-- All that a realizer does is made of steps. -/
theorem realizing_made (id : ShapeId) :
    Realizing (fun ⦃_⦄ a => Made Step a) (fun _ => True) id :=
  have h : Reading (fun ⦃_⦄ a => Frames KeepsShapes a) (fun _ => True) id :=
    keeping_frames.reading id
  have hkept {α : Type} {a : Action Registry α} (ha : Frames KeepsShapes a) : Made Step a :=
    made_of_step fun _ => ⟨[], .kept ha⟩
  { pure := made_pure
    throw := made_throw
    bind := Made.bind
    report := fun message => hkept (h.report message)
    checkBounds := fun bounds => hkept (h.checkBounds bounds)
    resolve := fun text hT => hkept (h.resolve text hT)
    resolveOnAxis := fun text axis property hT => hkept (h.resolveOnAxis text axis property hT)
    resolvePoint := fun text hT => hkept (h.resolvePoint text hT)
    register := fun members => by
      rw [register_eq_publishPartial]
      refine Made.bind (made_of_step fun s => ?_) fun _ => made_pure ()
      rcases hs : ((Builder.Call.publishPartial members).run { id } s).1 with e | b
      · exact ⟨_, .refused rfl hs⟩
      · exact ⟨_, .published rfl hs⟩ }

end Registry

/-- So every run of a realizer has a history. -/
theorem RealizerTable.ThroughBuilder.made {table : RealizerTable}
    (ht : RealizerTable.ThroughBuilder table) {kind : String} {run : Realizer}
    (hk : Table.get? table kind = some run) (id : ShapeId) (props : Members) :
    Made Registry.Step (run { id } props) :=
  ht hk (fun ⦃_⦄ a => Made Registry.Step a) { id } props (Registry.realizing_made id)

/-! ## Shapes one by one -/

namespace Pass

/-- What the shapes of a pass add to the history of the registry, one after the
    other, from what is remembered of the shapes before them on. -/
inductive Adds (table : RealizerTable) :
    Progress → List ShapeSpec → Journaled Registry → Registry.History → Prop where
  | nil (p : Progress) (s : Journaled Registry) : Adds table p [] s []
  /-- A shape that is realized adds what its realizer publishes, and its
      record. -/
  | realized {p p' : Progress} {d : ShapeSpec} {rest : List ShapeSpec} {run : Realizer}
      {name : String} {b : Builder} {drawn : Members} {s s₁ s₂ : Journaled Registry}
      {h h' : Registry.History} :
      step table p d s = (.ok p', s₂) → table.get? d.kind = some run → p.idOf d = .text name →
      Makes Registry.Step (run { id := .text name } d.props) s h →
      run { id := .text name } d.props s = (.ok (b, drawn), s₁) → Adds table p' rest s₂ h' →
        Adds table p (d :: rest) s
          (h ++ .recorded name ⟨d.kind, .text name, !d.declares, drawn⟩ :: h')
  /-- A shape that fails adds what it has published by then, and ends the
      pass. -/
  | failed {p : Progress} {d : ShapeSpec} {rest : List ShapeSpec} {e : Failure}
      {s s₁ : Journaled Registry} {h : Registry.History} :
      step table p d s = (.error e, s₁) → Makes Registry.Step (step table p d) s h →
        Adds table p (d :: rest) s h

variable {table : RealizerTable}

/-- A shape that fails does so before it is recorded. -/
theorem made_step_of_error (ht : RealizerTable.ThroughBuilder table) {p : Progress} {d : ShapeSpec}
    {s s' : Journaled Registry} {e : Failure} (hstep : step table p d s = (.error e, s')) :
    ∃ h, Makes Registry.Step (step table p d) s h := by
  obtain ⟨e₀, he⟩ | ⟨run, key, hk, hkey, -, he⟩ := step_cases table p d
  · exact ⟨[], he ▸ .throw e₀ s⟩
  · obtain rfl := ShapeId.eq_of_asKey hkey
    rw [he] at hstep ⊢
    obtain ⟨h, hm⟩ := ht.made hk (idFor p d).1 d.props s
    obtain ⟨e₁, hr, hrealize⟩ | ⟨b, drawn, hr, hb, hrealize⟩ | ⟨b, drawn, j, -, -, hrealize⟩ :=
      realize_split run d.kind hkey (idFor p d).2.1 d.props s
    · exact ⟨h, .stop (.stop hm (Prod.ext hr rfl)) hrealize⟩
    · refine ⟨h ++ [], .stop (.bind hm (Prod.ext hr rfl) ?_) hrealize⟩
      simp only [hb, Bool.false_eq_true, ↓reduceIte]
      exact .stop (.throw _ _) rfl
    · rw [bind_apply, hrealize] at hstep
      cases hstep

/-- Shapes that are known by texts add something to the history, if only
    nothing. -/
theorem exists_adds (ht : RealizerTable.ThroughBuilder table) {shapes : List ShapeSpec}
    (hnamed : ∀ d ∈ shapes, d.IsNamed) (p : Progress) (s : Journaled Registry) :
    ∃ h, Adds table p shapes s h := by
  induction shapes generalizing p s with
  | nil => exact ⟨[], .nil p s⟩
  | cons d rest ih =>
    obtain ⟨hd, hnamed⟩ := List.forall_mem_cons.1 hnamed
    rcases hstep : step table p d s with ⟨e | p', s₂⟩
    · obtain ⟨h, hm⟩ := made_step_of_error ht hstep
      exact ⟨h, .failed hstep hm⟩
    · obtain ⟨run, hk, hrun⟩ := exists_run_of_step hstep
      obtain ⟨hkey, -, -, hrealize⟩ := (hrun _ _ _ _).1 hstep
      obtain ⟨name, hname⟩ := exists_idOf_eq p hd
      rw [hname] at hkey hrealize
      obtain ⟨h, hm⟩ := ht.made hk (.text name) d.props s
      obtain ⟨h', hrest⟩ := ih hnamed p' s₂
      obtain ⟨e, -, hno⟩ | ⟨b, drawn, -, -, hno⟩ | ⟨b, drawn, j, hr, -, -⟩ :=
        realize_split run d.kind hkey (!d.declares) d.props s
      · cases hno.symm.trans hrealize
      · cases hno.symm.trans hrealize
      · exact ⟨_, .realized hstep hk hname hm (Prod.ext hr rfl) hrest⟩

/-- What the history tells stays right, shape by shape. -/
theorem Adds.tells {p : Progress} {shapes : List ShapeSpec} {s : Journaled Registry}
    {h h₀ : Registry.History} (hh : Adds table p shapes s h) (ht : h₀.Tells s.state) :
    Registry.History.Tells (h₀ ++ h) (steps table p shapes s).2.state := by
  induction hh generalizing h₀ with
  | nil p s =>
    rw [List.append_nil]
    exact ht
  | @realized p p' d rest run name b drawn s s₁ s₂ h h' hstep hk hname hm hr _ ih =>
    obtain ⟨run', hk', hrun⟩ := exists_run_of_step hstep
    obtain rfl := Option.some.inj (hk.symm.trans hk')
    obtain ⟨hkey, -, -, hrealize⟩ := (hrun _ _ _ _).1 hstep
    rw [hname] at hkey hrealize
    have h₁ := Registry.tells_of_makes hm ht
    rw [hr] at h₁
    have h₂ := h₁.recorded name ⟨d.kind, .text name, !d.declares, drawn⟩
    -- The registry after the shape is that after its realizer, with the record.
    have hrecorded : s₂.state =
        s₁.state.recorded (.text name) ⟨d.kind, .text name, !d.declares, drawn⟩ := by
      have hsplit := realize_split run d.kind hkey (!d.declares) d.props s
      simp only [hr, hrealize] at hsplit
      obtain ⟨e, hno, -⟩ | ⟨_, _, -, -, hno⟩ | ⟨_, _, j, hb, -, hs⟩ := hsplit
      · cases hno
      · cases hno
      · cases hb
        exact congrArg (·.2.state) hs
    rw [steps, bind_apply, hstep]
    rw [← hrecorded, List.append_assoc] at h₂
    simpa only [List.append_assoc, List.singleton_append] using ih h₂
  | @failed p d rest e s s₁ h hstep hm =>
    have h₁ := Registry.tells_of_makes hm ht
    rw [hstep] at h₁
    rw [steps, bind_apply, hstep]
    exact h₁

/-- A pass forgets what has been before, and adds what its shapes add. -/
theorem Adds.tells_course {shapes : List ShapeSpec} {viewBox : Option ViewBox} {r : Registry}
    {h : Registry.History} (hh : Adds table {} shapes ⟨r.opened viewBox, {}⟩ h)
    (h₀ : Registry.History) :
    Registry.History.Tells (h₀ ++ .cleared :: h) (course table shapes (r.opened viewBox)).2 := by
  have hopened : Registry.History.Tells (h₀ ++ [.cleared])
      (⟨r.opened viewBox, {}⟩ : Journaled Registry).state :=
    .of_empty (Registry.History.recent_cleared h₀) rfl rfl
  have ht := hh.tells hopened
  rwa [List.append_assoc] at ht

end Pass

end AnchorLayout
