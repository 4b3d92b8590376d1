import AnchorLayout.Proofs.Pass.Independence

/-!
# What later shapes leave as it is

A shape that is realized changes its own anchors only, adds diagnostics, and is
recorded last (`Registry.Builds`, `Pass.realize_cases`). Since its id is new,
all shapes before it keep their anchors, and records and diagnostics are added
at the end (`Registry.Grows`). So a pass over some shapes is the beginning of
every pass over more (`runPass_append`).
-/

namespace AnchorLayout

open AnchorLayout.Action

namespace Registry

/-- What the shape `name` changes before it is recorded: its own anchors, and
    diagnostics are added. -/
structure Builds (name : String) (r r' : Registry) : Prop where
  config : r'.config = r.config
  viewBox : r'.viewBox = r.viewBox
  shapes : r'.shapes = r.shapes
  anchors : r'.anchors.erase (.text name) = r.anchors.erase (.text name)
  diagnostics : r.diagnostics <+: r'.diagnostics

variable {name : String}

instance : IsPreorder Registry (Builds name) where
  refl _ := ⟨rfl, rfl, rfl, rfl, List.prefix_rfl⟩
  trans _ _ _ h h' := ⟨h'.config.trans h.config, h'.viewBox.trans h.viewBox,
    h'.shapes.trans h.shapes, h'.anchors.trans h.anchors, h.diagnostics.trans h'.diagnostics⟩

/-- Warnings build nothing. -/
theorem builds_warned (id : ShapeId) (messages : List String) (r : Registry) :
    Builds name r (r.warned id messages) :=
  ⟨rfl, rfl, rfl, rfl, List.prefix_append ..⟩

/-- A shape builds what it publishes. -/
theorem builds_published (as : Anchors) (r : Registry) :
    Builds name r (r.published (.text name) as) :=
  ⟨rfl, rfl, rfl, Table.erase_insert_text as, List.prefix_rfl⟩

/-- The shapes `ids` have the same anchors, and nothing is added but at the
    end. -/
structure Grows (ids : List ShapeId) (r r' : Registry) : Prop where
  anchors : ∀ id ∈ ids, r'.anchors.get? id = r.anchors.get? id
  shapes : r.shapes <+: r'.shapes
  diagnostics : r.diagnostics <+: r'.diagnostics

namespace Grows

variable {ids ids' : List ShapeId} {r r' r'' : Registry}

theorem refl (ids : List ShapeId) (r : Registry) : Grows ids r r :=
  ⟨fun _ _ => rfl, List.prefix_rfl, List.prefix_rfl⟩

theorem trans (h : Grows ids r r') (h' : Grows ids' r' r'') (hids : ids ⊆ ids') :
    Grows ids r r'' :=
  ⟨fun id hid => (h'.anchors id (hids hid)).trans (h.anchors id hid), h.shapes.trans h'.shapes,
    h.diagnostics.trans h'.diagnostics⟩

end Grows

/-- What is built under a new id leaves all that there was. -/
theorem Builds.grows {ids : List ShapeId} {r r' : Registry} (h : Builds name r r')
    (hname : .text name ∉ ids) : Grows ids r r' where
  anchors id hid := Table.get?_eq_of_erase_eq h.anchors fun he => hname (he ▸ hid)
  shapes := by rw [h.shapes]
  diagnostics := h.diagnostics

end Registry

namespace Pass

/-- A shape that is realized changes its own anchors and adds diagnostics. Then
    it fails, or it is recorded. -/
theorem realize_cases {kind : String} {run : Realizer} (hk : Shape.kinds.get? kind = some run)
    (name : String) (autoId : Bool) (props : Members) (s : Journaled Registry) :
    ∃ r j, Registry.Builds name s.state r ∧
      ((∃ e, realize run kind (.text name) autoId props s = (.error e, ⟨r, j⟩)) ∨
      ∃ record, record.id = .text name ∧
        realize run kind (.text name) autoId props s =
          (.ok (), ⟨r.recorded (.text name) record, j⟩)) := by
  have hb := (frames_realizing (R := Registry.Builds name) (fun messages r =>
    Registry.builds_warned (.text name) messages r) Registry.builds_published).realizer
      (b := { id := .text name }) hk props (fun _ _ => trivial) s
  unfold realize
  rw [bind_apply]
  generalize run { id := .text name } props s = u at hb ⊢
  obtain ⟨e | ⟨b, drawn⟩, s₁⟩ := u
  · exact ⟨s₁.state, s₁.journal, hb, .inl ⟨e, rfl⟩⟩
  · dsimp only
    split_ifs
    · exact ⟨s₁.state, _, hb, .inr ⟨_, rfl, rfl⟩⟩
    · exact ⟨s₁.state, s₁.journal, hb, .inl ⟨_, rfl⟩⟩

/-- Only shapes that are remembered are recorded. -/
def Progress.Knows (p : Progress) (r : Registry) : Prop := ∀ id ∈ r.shapes.keys, id ∈ p.ids

variable {p : Progress} {d : ShapeSpec} {s : Journaled Registry}

/-- A shape of a pass adds to the registry and changes nothing in it, even if
    it fails. -/
theorem grows_step (hd : d.IsNamed) (h : p.Knows s.state) :
    Registry.Grows p.ids s.state (step Shape.kinds p d s).2.state ∧
    ∀ p', (step Shape.kinds p d s).1 = .ok p' → p' = p.next d ∧
      p'.Knows (step Shape.kinds p d s).2.state := by
  rcases step_cases Shape.kinds p d with ⟨e, he⟩ | ⟨run, key, hk, hkey, hnew, he⟩
  · rw [he]
    exact ⟨.refl _ _, fun p' hp' => by cases hp'⟩
  · obtain ⟨name, hname⟩ := exists_idOf_eq p hd
    rw [idFor_fst, hname] at hkey
    cases hkey
    rw [ids_idFor, ← Bool.not_eq_true, ShapeId.contains_text] at hnew
    rw [he, bind_apply, idFor_fst, hname, ids_idFor]
    obtain ⟨r, j, hr, ⟨e, hreal⟩ | ⟨record, -, hreal⟩⟩ :=
      realize_cases hk name (idFor p d).2.1 d.props s
    · rw [hreal]
      exact ⟨hr.grows hnew, fun p' hp' => by cases hp'⟩
    · rw [hreal]
      -- The record goes to the end, since the shape
      -- is not among those that are recorded.
      have hshapes : (r.recorded (.text name) record).shapes =
          s.state.shapes ++ [(.text name, record)] := by
        rw [Registry.recorded, hr.shapes]
        exact Table.insert_of_get?_eq_none record
          (Table.get?_text_eq_none fun hid => hnew (h _ hid))
      refine ⟨⟨(hr.grows hnew).anchors, ?_, hr.diagnostics⟩, fun p' hp' => ?_⟩
      · exact hshapes ▸ List.prefix_append ..
      · cases hp'
        refine ⟨by rw [Progress.next, hname], fun id hid => ?_⟩
        change id ∈ Table.keys (r.recorded (.text name) record).shapes at hid
        rw [hshapes, Table.keys, List.map_append] at hid
        exact (List.mem_append.1 hid).elim (fun hid => List.mem_append_left _ (h id hid))
          fun hid => List.mem_append_right _ hid

theorem grows_steps {shapes : List ShapeSpec} (hd : ∀ d ∈ shapes, d.IsNamed)
    (h : p.Knows s.state) :
    Registry.Grows p.ids s.state (steps Shape.kinds p shapes s).2.state ∧
    ∀ p', (steps Shape.kinds p shapes s).1 = .ok p' →
      p'.Knows (steps Shape.kinds p shapes s).2.state := by
  induction shapes generalizing p s with
  | nil =>
    refine ⟨.refl _ _, fun p' hp' => ?_⟩
    cases hp'
    exact h
  | cons d rest ih =>
    obtain ⟨hd, hrest⟩ := List.forall_mem_cons.1 hd
    obtain ⟨hgrow, hknow⟩ := grows_step hd h
    rw [steps, bind_apply]
    generalize step Shape.kinds p d s = u at hgrow hknow ⊢
    obtain ⟨e | p₁, s₁⟩ := u
    · exact ⟨hgrow, fun p' hp' => by cases hp'⟩
    · obtain ⟨rfl, h₁⟩ := hknow p₁ rfl
      obtain ⟨hgrow', hknow'⟩ := ih hrest h₁
      exact ⟨hgrow.trans hgrow' (List.subset_append_left ..), hknow'⟩

end Pass

/-- Later shapes have no influence on earlier ones. If a pass over some shapes
    fails, so does one that goes on with others, with the same failure in the
    same state. If it succeeds, then however one that goes on may end, it
    leaves all these shapes with the anchors that they have after the first
    pass, and it begins with the same records and diagnostics. -/
theorem runPass_append {first rest : List ShapeSpec} (hfirst : ∀ d ∈ first, d.IsNamed)
    (hrest : ∀ d ∈ rest, d.IsNamed) (viewBox : Option ViewBox) (s : Journaled Registry) :
    let alone := runPass first viewBox s
    let both := runPass (first ++ rest) viewBox s
    (∀ e, alone.1 = .error e → both.1 = .error e ∧ both.2.state = alone.2.state) ∧
    ∀ records, alone.1 = .ok records →
      (∀ before d after, first = before ++ d :: after →
        both.2.state.anchorsOf (Pass.idAfter before d) =
          alone.2.state.anchorsOf (Pass.idAfter before d)) ∧
      records <+: both.2.state.records ∧
      alone.2.state.diagnostics <+: both.2.state.diagnostics := by
  intro alone both
  obtain ⟨hr, hs⟩ := runPass_eq_steps first viewBox s
  obtain ⟨hr', hs'⟩ := runPass_eq_steps (first ++ rest) viewBox s
  rw [hr, hs, hr', hs']
  -- The steps over all shapes are those over
  -- the first ones, and others from there on.
  have hsteps := Pass.steps_append Shape.kinds {} first rest
  obtain ⟨-, hknow⟩ := Pass.grows_steps (p := {}) (s := ⟨s.state.opened viewBox, {}⟩) hfirst nofun
  simp only [Pass.stepsFrom, hsteps, bind_apply]
  rcases hu : Pass.steps Shape.kinds {} first ⟨s.state.opened viewBox, {}⟩ with ⟨e | p, s₁⟩
  · exact ⟨fun e' he' => ⟨he', rfl⟩, fun records hrecords => by cases hrecords⟩
  · rw [hu] at hknow
    obtain ⟨hgrow, -⟩ := Pass.grows_steps hrest (hknow p rfl)
    refine ⟨fun e he => ?_, fun records hrecords => ⟨?_, ?_, hgrow.diagnostics⟩⟩
    · cases he
    · rintro before d after rfl
      refine Registry.anchorsOf_congr (hgrow.anchors _ ?_)
      rw [Pass.progress_of_steps hu]
      exact Pass.idAfter_mem d before after
    · cases hrecords
      exact hgrow.shapes.map Prod.snd

/-- A circle, and after it a rectangle beside it and a dot that takes its id. -/
theorem runPass_append_duplicate :
    let first : List ShapeSpec := [⟨"circle", .text "a", [("r", .text "5")]⟩]
    let rest : List ShapeSpec :=
      [⟨"rect", .datum .null 0, [("left", .text "#a.right + 1")]⟩, ⟨"point", .text "a", []⟩]
    let alone := runPass first none ⟨{}, {}⟩
    let both := runPass (first ++ rest) none ⟨{}, {}⟩
    alone.1.isOk = true ∧ both.1.isOk = false ∧
    both.2.state.anchorsOf (.text "a") = alone.2.state.anchorsOf (.text "a") := by
  intro first rest alone both
  have hok : alone.1.isOk = true := by decide +kernel
  have hfail : both.1.isOk = false := by decide +kernel
  obtain ⟨records, hr⟩ := exists_eq_ok_of_isOk hok
  have hfirst : ∀ d ∈ first, d.IsNamed := by simp [first, ShapeSpec.IsNamed]
  have hrest : ∀ d ∈ rest, d.IsNamed := by simp [rest, ShapeSpec.IsNamed]
  have hkeep := ((runPass_append hfirst hrest none ⟨{}, {}⟩).2 records hr).1
  exact ⟨hok, hfail, hkeep [] _ [] rfl⟩

end AnchorLayout
