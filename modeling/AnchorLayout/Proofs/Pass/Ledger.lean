import AnchorLayout.Proofs.Pass.Course
import AnchorLayout.Proofs.Registry.Sameness

/-!
# What a pass leaves of its shapes

While a shape is realized, the registry holds what it held before and perhaps
some anchors of the shape (`Registry.Adjoins`); when it is finished, these are
the final ones of its kind (`Pass.stage_finishes`). So a registry in which
shapes have been realized one after the other tells of each of them what its
realizer has published in the end, and of nothing else (`Pass.Ledger`). A pass
leaves such a registry, or one that holds anchors of the shape at which it has
stopped besides (`Pass.course_cases`).
-/

namespace AnchorLayout

open AnchorLayout.Action

namespace Registry

/-! ## One shape -/

/-- What a registry holds while the shape `id` is realized, where it was `r`
    before. -/
structure Adjoins (id : ShapeId) (r r' : Registry) : Prop where
  shapes : r'.shapes = r.shapes
  anchors : r'.anchors = r.anchors ∨ ∃ as, r'.anchors = r.anchors ++ [(id, as)]

/-- What a realizer gives and what it leaves, where the registry was `r`
    before: if it does not fail, the anchors of the shape are the final ones of
    its kind. -/
structure Concludes (kind : String) (id : ShapeId) (r : Registry)
    (t : Except Failure (Builder × Members) × Journaled Registry) : Prop where
  adjoins : Adjoins id r t.2.state
  final : ∀ b drawn, t.1 = .ok (b, drawn) → b.isFinal = true ∧
    Table.keys b.published = Shape.anchorNames kind ∧
    ∃ as, Anchors.ofMembers id b.published = .ok as ∧
      t.2.state.anchors = r.anchors ++ [(id, as)]

variable {id : ShapeId} {r r' : Registry}

theorem Adjoins.refl (id : ShapeId) (r : Registry) : Adjoins id r r := ⟨rfl, .inl rfl⟩

/-- Whatever anchors the shape has published, others take their place. -/
theorem Adjoins.published (h : Adjoins id r r') (hid : id.asKey = .ok id)
    (hnew : r.anchors.get? id = none) (as : Anchors) :
    (r'.published id as).anchors = r.anchors ++ [(id, as)] := by
  rw [Registry.published]
  obtain ha | ⟨as', ha⟩ := h.anchors
  · rw [ha]
    exact Table.insert_of_get?_eq_none as hnew
  · rw [ha]
    exact Table.insert_concat as' as hid hnew

/-- A registry stays one that adjoins a shape to another. -/
def KeepsAdjoining (id : ShapeId) (r r₁ r₂ : Registry) : Prop := Adjoins id r r₁ → Adjoins id r r₂

instance : IsPreorder Registry (KeepsAdjoining id r) where
  refl _ := fun h => h
  trans _ _ _ h h' := fun hr => h' (h hr)

theorem Adjoins.isPrefix (h : Adjoins id r r') : r.anchors <+: r'.anchors := by
  obtain ha | ⟨as, ha⟩ := h.anchors <;> rw [ha]
  exact List.prefix_append ..

/-- Anchors that are added at the end are no matter of the shapes that have
    some. -/
theorem anchorsOf_of_isPrefix (h : r.anchors <+: r'.anchors) {id : ShapeId} {as : Anchors}
    (has : r.anchorsOf id = .ok as) : r'.anchorsOf id = .ok as := by
  rw [anchorsOf_eq_ok] at has ⊢
  obtain ⟨t, ht⟩ := h
  rw [← ht, Table.get?_append, has.2, Option.some_or]
  exact ⟨has.1, rfl⟩

theorem staging_adjoins (hid : id.asKey = .ok id) (hnew : r.anchors.get? id = none)
    (kind : String) :
    Staging (fun ⦃_⦄ a => Frames (KeepsAdjoining id r) a)
      (fun a => ∀ s, Adjoins id r s.state → Concludes kind id r (a s)) (fun _ => True) kind id :=
  have h : Realizing (fun ⦃_⦄ a => Frames (KeepsAdjoining id r) a) (fun _ => True) id :=
    frames_realizing (fun _ _ hr => ⟨hr.shapes, hr.anchors⟩)
      fun as _ hr => ⟨hr.shapes, .inr ⟨as, hr.published hid hnew as⟩⟩
  { h.gathering with
    register := h.register
    before := by
      intro α a f ha hf s hs
      have hs₁ := ha s hs
      rw [bind_apply]
      generalize a s = t at hs₁ ⊢
      obtain ⟨e | x, s₁⟩ := t
      · exact ⟨hs₁, nofun⟩
      · exact hf x s₁ hs₁
    conclude := by
      intro members check hm hc drawn s hs
      obtain ⟨e, he⟩ | ⟨as, j, has, h⟩ := conclude_cases hc members drawn s
      · rw [he]
        exact ⟨hs, nofun⟩
      · have has' := hs.published hid hnew as
        obtain ⟨e, he⟩ | ⟨bounds, he⟩ := h <;> rw [he]
        · exact ⟨⟨hs.shapes, .inr ⟨as, has'⟩⟩, nofun⟩
        · refine ⟨⟨hs.shapes, .inr ⟨as, has'⟩⟩, fun b drawn' h => ?_⟩
          cases h
          exact ⟨rfl, hm, as, has, has'⟩ }

end Registry

/-- Anchors have the names under which they have been published. -/
theorem Anchors.keys_ofMembers {id : ShapeId} {members : Members} {as : Anchors}
    (h : Anchors.ofMembers id members = .ok as) : Table.keys as = Table.keys members := by
  induction members generalizing as with
  | nil =>
    cases h
    rfl
  | cons m members ih =>
    obtain ⟨a, -, h⟩ := except_bind_iff.1 h
    obtain ⟨as', has', h⟩ := except_bind_iff.1 h
    cases h
    exact congrArg (m.1 :: ·) (ih has')

namespace Pass

/-- What a pass makes of the shape `d` after the shapes `before`, in the
    registry `r` that these have left: its record, and its anchors, which are
    the final ones that its realizer has published last. -/
structure Finished (r : Registry) (before : List ShapeSpec) (d : ShapeSpec) (record : ShapeRecord)
    (as : Anchors) : Prop where
  kind : record.kind = d.kind
  id : record.id = idAfter before d
  autoId : record.autoId = !d.declares
  names : Table.keys as = Shape.anchorNames d.kind
  realized : ∃ run b, Shape.kinds.get? d.kind = some run ∧
    (run { id := record.id } d.props ⟨r, {}⟩).1 = .ok (b, record.props) ∧ b.isFinal = true ∧
    Anchors.ofMembers record.id b.published = .ok as

/-- A shape that comes next leaves the others as they are. It is finished, or
    it leaves no record, and anchors at most. -/
theorem stage_finishes {before : List ShapeSpec} {r : Registry}
    (hanchors : r.anchors.keys = ids before) (hshapes : r.shapes.keys = ids before)
    (hids : ∀ id ∈ ids before, id.asKey = .ok id) (d : ShapeSpec) :
    (∃ e r', stage Shape.kinds before d r = (.error e, r') ∧
      Registry.Adjoins (idAfter before d) r r') ∨
    ∃ record as r', stage Shape.kinds before d r = (.ok (), r') ∧
      (idAfter before d).asKey = .ok (idAfter before d) ∧
      r.anchors.get? (idAfter before d) = none ∧
      r'.anchors = r.anchors ++ [(idAfter before d, as)] ∧
      r'.shapes = r.shapes ++ [(idAfter before d, record)] ∧ Finished r before d record as := by
  obtain ⟨e, he⟩ | ⟨run, hk, hid, hnew, hstage⟩ := stage_cases Shape.kinds before d r
  · exact .inl ⟨e, r, he, .refl _ r⟩
  · -- The id is new, so neither table has an entry under it.
    have hnone := Table.get?_eq_none_of_contains (hanchors ▸ hids) hid (hanchors ▸ hnew)
    have hnone' := Table.get?_eq_none_of_contains (hshapes ▸ hids) hid (hshapes ▸ hnew)
    have hrun := (Registry.staging_adjoins hid hnone d.kind).realizer
      (b := { id := idAfter before d }) hk d.props (fun _ _ => trivial) ⟨r, {}⟩ (.refl _ r)
    rw [hstage]
    obtain ⟨e, -, he⟩ | ⟨b, drawn, hb, hfinal, -⟩ | ⟨b, drawn, j, hb, -, he⟩ :=
      realize_split run d.kind hid (!d.declares) d.props ⟨r, {}⟩
    · rw [he]
      exact .inl ⟨e, _, rfl, hrun.adjoins⟩
    · rw [(hrun.final b drawn hb).1] at hfinal
      cases hfinal
    · rw [he]
      obtain ⟨hfinal, hnames, as, has, hanchors'⟩ := hrun.final b drawn hb
      have hshapes' := hrun.adjoins.shapes
      refine .inr ⟨⟨d.kind, idAfter before d, !d.declares, drawn⟩, as, _, rfl, hid, hnone,
        hanchors', ?_, rfl, rfl, rfl, (Anchors.keys_ofMembers has).trans hnames, run, b, hk, hb,
        hfinal, has⟩
      dsimp only [Registry.recorded]
      rw [hshapes']
      exact Table.insert_of_get?_eq_none _ hnone'

/-! ## The shapes of a pass -/

/-- What the registry `r` holds in which a pass, begun in `r₀`, has realized
    shapes: the records and the final anchors of these shapes, and nothing
    else. -/
structure Ledger (r₀ : Registry) (shapes : List ShapeSpec) (r : Registry) : Prop where
  anchors : r.anchors.keys = ids shapes
  records : r.shapes.keys = ids shapes
  keys : ∀ id ∈ ids shapes, id.asKey = .ok id
  finished : ∀ before d after, shapes = before ++ d :: after → ∃ record as,
    r.records[before.length]? = some record ∧ r.anchorsOf record.id = .ok as ∧
    Finished (course Shape.kinds before r₀).2 before d record as

theorem Ledger.length_records {r₀ r : Registry} {shapes : List ShapeSpec} (h : Ledger r₀ shapes r) :
    r.records.length = shapes.length := by
  rw [← length_ids, ← h.records, Registry.records, Table.keys, List.length_map, List.length_map]

theorem keys_concat {α : Type} (t : Table ShapeId α) (id : ShapeId) (a : α) :
    Table.keys (t ++ [(id, a)]) = t.keys ++ [id] :=
  List.map_append ..

/-- A shape of a list with one more is one of the list, or the last one. -/
theorem eq_or_exists_of_concat_eq {α : Type} {xs before after : List α} {x d : α}
    (h : xs ++ [x] = before ++ d :: after) :
    (before = xs ∧ d = x) ∨ ∃ after', xs = before ++ d :: after' := by
  rcases List.eq_nil_or_concat after with rfl | ⟨after, y, rfl⟩
  · obtain ⟨rfl, hd⟩ := List.append_inj' h rfl
    exact .inl ⟨rfl, (List.singleton_inj.1 hd).symm⟩
  · rw [List.concat_eq_append, ← List.cons_append, ← List.append_assoc] at h
    exact .inr ⟨after, (List.append_inj' h rfl).1⟩

theorem ledger_of_course {shapes : List ShapeSpec} {r₀ r : Registry} (h₀ : r₀.anchors = [])
    (h₀' : r₀.shapes = []) (h : course Shape.kinds shapes r₀ = (.ok (), r)) :
    Ledger r₀ shapes r := by
  induction shapes using List.reverseRecOn generalizing r with
  | nil =>
    rw [course_nil] at h
    cases h
    exact ⟨by rw [h₀]; rfl, by rw [h₀']; rfl, nofun, by simp⟩
  | append_singleton shapes c ih =>
    obtain ⟨r₁, h₁⟩ := exists_course_of_append throughBuilder_kinds h
    rw [course_concat_of_ok throughBuilder_kinds h₁] at h
    have hl := ih h₁
    obtain ⟨e, r', he, -⟩ | ⟨record, as, r', he, hid, hnone, hanchors, hshapes, hfin⟩ :=
      stage_finishes hl.anchors hl.records hl.keys c <;> rw [he] at h <;> cases h
    refine ⟨?_, ?_, ?_, fun before d after hsplit => ?_⟩
    · rw [hanchors, keys_concat, hl.anchors, ids_concat]
    · rw [hshapes, keys_concat, hl.records, ids_concat]
    · rw [ids_concat]
      exact List.forall_mem_append.2 ⟨hl.keys, List.forall_mem_singleton.2 hid⟩
    · have hrecords : r.records = r₁.records ++ [record] := by
        rw [Registry.records, hshapes, List.map_append]
        rfl
      obtain ⟨rfl, rfl⟩ | ⟨after', rfl⟩ := eq_or_exists_of_concat_eq hsplit
      · refine ⟨record, as, ?_, ?_, ?_⟩
        · rw [hrecords, ← hl.length_records, List.getElem?_concat_length]
        · rw [Registry.anchorsOf_eq_ok, hanchors, hfin.id, Table.get?_concat as hid hnone]
          exact ⟨hid, rfl⟩
        · rw [h₁]
          exact hfin
      · obtain ⟨record', as', hrecord', has', hfin'⟩ := hl.finished before d after' rfl
        refine ⟨record', as', ?_, ?_, hfin'⟩
        · rw [hrecords, List.getElem?_append_left (List.getElem?_eq_some_iff.1 hrecord').1,
            hrecord']
        · exact Registry.anchorsOf_of_isPrefix (hanchors ▸ List.prefix_append ..) has'

/-- Every record is that of a finished shape. -/
theorem Ledger.exists_of_mem {r₀ r : Registry} {shapes : List ShapeSpec} (h : Ledger r₀ shapes r)
    {record : ShapeRecord} (hr : record ∈ r.records) :
    ∃ before d after as, shapes = before ++ d :: after ∧ r.anchorsOf record.id = .ok as ∧
      Finished (course Shape.kinds before r₀).2 before d record as := by
  obtain ⟨k, hk⟩ := List.getElem?_of_mem hr
  have hlt : k < shapes.length := h.length_records ▸ (List.getElem?_eq_some_iff.1 hk).1
  obtain ⟨before, d, after, rfl, hlength⟩ := exists_split hlt
  obtain ⟨record', as, hrecord', has, hfin⟩ := h.finished before d after rfl
  rw [hlength, hk] at hrecord'
  cases hrecord'
  exact ⟨before, d, after, as, rfl, has, hfin⟩

/-- A pass realizes all shapes, or it stops at one that leaves anchors at
    most. -/
theorem course_cases (r₀ : Registry) (shapes : List ShapeSpec) (h₀ : r₀.anchors = [])
    (h₀' : r₀.shapes = []) :
    (∃ r, course Shape.kinds shapes r₀ = (.ok (), r) ∧ Ledger r₀ shapes r) ∨
    ∃ before d after r₁ e r, shapes = before ++ d :: after ∧
      course Shape.kinds before r₀ = (.ok (), r₁) ∧ Ledger r₀ before r₁ ∧
      course Shape.kinds (before ++ [d]) r₀ = (.error e, r) ∧
      course Shape.kinds shapes r₀ = (.error e, r) ∧
      Registry.Adjoins (idAfter before d) r₁ r := by
  rcases hc : course Shape.kinds shapes r₀ with ⟨e | _, r⟩
  · obtain ⟨before, d, after, r₁, hsplit, h₁, hd⟩ := exists_of_course_error throughBuilder_kinds hc
    have hl := ledger_of_course h₀ h₀' h₁
    obtain ⟨e', r', he, hr'⟩ | ⟨record, as, r', he, -⟩ :=
      stage_finishes hl.anchors hl.records hl.keys d <;> rw [he] at hd <;> cases hd
    exact .inr ⟨before, d, after, r₁, e, r, hsplit, h₁, hl,
      (course_concat_of_ok throughBuilder_kinds h₁ d).trans he, rfl, hr'⟩
  · exact .inl ⟨r, rfl, ledger_of_course h₀ h₀' hc⟩

/-- A pass that succeeds has realized all shapes, and gives back their
    records. -/
theorem ledger_of_runPass {shapes : List ShapeSpec} {viewBox : Option ViewBox}
    {s : Journaled Registry} {records : List ShapeRecord}
    (h : (runPass shapes viewBox s).1 = .ok records) :
    Ledger (s.state.opened viewBox) shapes (runPass shapes viewBox s).2.state ∧
      (runPass shapes viewBox s).2.state.records = records := by
  obtain ⟨hr, hs⟩ := runPass_eq_course shapes viewBox s
  rw [h] at hr
  rcases hc : course Shape.kinds shapes (s.state.opened viewBox) with ⟨e | _, r⟩
  · rw [hc] at hr
    cases hr
  · rw [hc] at hr hs
    cases hr
    rw [hs]
    exact ⟨ledger_of_course rfl rfl hc, rfl⟩

end Pass

end AnchorLayout
