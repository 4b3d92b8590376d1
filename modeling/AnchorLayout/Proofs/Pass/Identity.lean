import AnchorLayout.Proofs.Decimal.Reading
import AnchorLayout.Proofs.Pass.Course
import AnchorLayout.Proofs.Pass.Growth
import AnchorLayout.Proofs.Shape.Failures

/-!
# The ids of a pass

A shape that declares no id gets one that is made up of its kind and the number
of such shapes. Such an id tells both, because no dash stands in a numeral
(`Pass.madeUp_inj`), so no two shapes get the same one (`Pass.idAfter_ne`). An
id that is declared may look like one that is made up; where an id is taken, be
it declared or made up, the shape is refused before anything is done for it
(`Pass.stage_of_mem`). So all shapes that are recorded have different ids,
namely their own, in order (`Pass.listed_of_course`).

This is so with any table of realizers that work through their builders
(`runPassWith_ids`).
-/

namespace AnchorLayout

open AnchorLayout.Action

/-! ## Ids that are made up -/

namespace Pass

/-- Where two texts are the same, so are the parts behind their last dashes,
    and those before. -/
theorem eq_of_append_dash_eq {xs ys ds es : List Char} (hd : '-' ∉ ds) (he : '-' ∉ es)
    (h : xs ++ '-' :: ds = ys ++ '-' :: es) : xs = ys ∧ ds = es := by
  obtain ⟨as, hys, has⟩ | ⟨as, hxs, has⟩ := List.append_eq_append_iff.1 h
  · obtain ⟨rfl, hes⟩ | ⟨as, rfl, hds⟩ := List.cons_eq_append_iff.1 has
    · rw [List.append_nil] at hys
      exact ⟨hys.symm, (List.cons.inj hes).2.symm⟩
    · exact absurd (hds ▸ List.mem_append_right as List.mem_cons_self) hd
  · obtain ⟨rfl, hes⟩ | ⟨as, rfl, hds⟩ := List.cons_eq_append_iff.1 has
    · rw [List.append_nil] at hxs
      exact ⟨hxs, (List.cons.inj hes).2⟩
    · exact absurd (hds ▸ List.mem_append_right as List.mem_cons_self) he

theorem dash_notMem_toString (n : ℕ) : '-' ∉ (toString n).toList := fun h =>
  absurd (Decimal.allDigits_toString n '-' h) (by decide)

/-- An id that is made up tells the kind and the count that it is made up
    from. -/
theorem madeUp_inj {kind kind' : String} {n n' : ℕ}
    (h : kind ++ "-" ++ toString n = kind' ++ "-" ++ toString n') : kind = kind' ∧ n = n' := by
  have hlist := congrArg String.toList h
  simp only [String.toList_append, List.append_assoc] at hlist
  obtain ⟨hkind, hn⟩ :=
    eq_of_append_dash_eq (dash_notMem_toString n) (dash_notMem_toString n') hlist
  exact ⟨String.toList_inj.1 hkind, Nat.repr_inj.1 (String.toList_inj.1 hn)⟩

theorem idAfter_of_declares {before : List ShapeSpec} {d : ShapeSpec} (hd : d.declares = true) :
    idAfter before d = d.id := by
  rw [idAfter, ShapeSpec.idAs, if_pos hd]

theorem idAfter_of_not_declares {before : List ShapeSpec} {d : ShapeSpec}
    (hd : d.declares = false) :
    idAfter before d = .text (d.kind ++ "-" ++
      toString ((before ++ [d]).countP fun c => !c.declares && c.kind == d.kind)) := by
  have hcount : (before ++ [d]).countP (fun c => !c.declares && c.kind == d.kind) =
      before.countP (fun c => !c.declares && c.kind == d.kind) + 1 := by
    simp [List.countP_append, hd]
  rw [idAfter, ShapeSpec.idAs, if_neg (by rw [hd]; exact Bool.false_ne_true), hcount]

/-- Ids that are made up for different shapes are different. -/
theorem idAfter_ne {d d' : ShapeSpec} (hd : d.declares = false) (hd' : d'.declares = false)
    (before between : List ShapeSpec) :
    idAfter before d ≠ idAfter (before ++ d :: between) d' := by
  rw [idAfter_of_not_declares hd, idAfter_of_not_declares hd', Ne, ShapeId.text.injEq]
  intro h
  obtain ⟨hkind, hn⟩ := madeUp_inj h
  -- The count goes up between them.
  rw [hkind] at hn
  simp [List.countP_append, hd, hd', hkind] at hn

/-! ## A shape and its id -/

theorem exists_idAfter_eq (before : List ShapeSpec) {d : ShapeSpec} (hd : d.IsNamed) :
    ∃ name, idAfter before d = .text name :=
  ShapeSpec.exists_idAs_eq hd _

variable {table : RealizerTable} {before : List ShapeSpec} {d : ShapeSpec} {r : Registry}

/-- A shape with a name or without an id is accepted under its id, if it is of
    a kind that there is. -/
theorem step_eq_accept (hd : d.IsNamed) {run : Realizer} (hk : table.get? d.kind = some run)
    (p : Progress) :
    step table p d = accept run d (p.idOf d) (!d.declares) (idFor p d).2.2 := by
  rw [← idFor_fst p d, ← idFor_autoId p d, step, hk]
  obtain ⟨name, hname⟩ | ⟨mark, hmark⟩ := hd
  · rw [hname]
    rfl
  · rw [hmark]
    rfl

variable (hd : d.IsNamed) {run : Realizer} (hk : table.get? d.kind = some run)
include hd hk

/-- A shape with the id of one before it is refused, with nothing done to the
    registry. -/
theorem stage_of_mem (hid : idAfter before d ∈ ids before) (r : Registry) :
    stage table before d r = (.error (.duplicateId (idAfter before d)), r) := by
  obtain ⟨name, hname⟩ := exists_idAfter_eq before hd
  have hold := ShapeId.contains_text.2 (hname ▸ hid)
  rw [← ids_after, ← ids_idFor _ d] at hold
  rw [stage, step_eq_accept hd hk, ← idAfter_eq, hname, accept_of_contains rfl hold]
  rfl

/-- A shape with an id of its own is realized under it. -/
theorem stage_of_notMem (hid : idAfter before d ∉ ids before) (r : Registry) :
    let t := realize run d.kind (idAfter before d) (!d.declares) d.props ⟨r, {}⟩
    stage table before d r = (t.1, t.2.state) := by
  obtain ⟨name, hname⟩ := exists_idAfter_eq before hd
  have hnew := mt ShapeId.contains_text.1 (hname ▸ hid)
  rw [Bool.not_eq_true, ← ids_after, ← ids_idFor _ d] at hnew
  rw [stage, step_eq_accept hd hk, ← idAfter_eq, hname, accept_eq rfl hnew, bind_apply]
  generalize realize run _ _ _ _ _ = t
  obtain ⟨e | _, s₁⟩ := t <;> rfl

omit hd hk

/-! ## The records of a pass -/

/-- What a registry records in which shapes have been realized: all of them,
    under their ids, which are different. -/
structure Listed (shapes : List ShapeSpec) (r : Registry) : Prop where
  keys : r.shapes.keys = ids shapes
  named : r.records.map (·.id) = ids shapes
  marked : r.records.map (·.autoId) = shapes.map fun d => !d.declares
  distinct : (ids shapes).Nodup

/-- A shape that is realized is recorded last. -/
theorem Listed.stage {r' : Registry} (h : Listed before r) (hd : d.IsNamed)
    (hk : table.get? d.kind = some run) (hrun : run.ThroughBuilder)
    (hr : stage table before d r = (.ok (), r')) : Listed (before ++ [d]) r' := by
  by_cases hid : idAfter before d ∈ ids before
  · rw [stage_of_mem hd hk hid] at hr
    cases hr
  · rw [stage_of_notMem hd hk hid] at hr
    obtain ⟨name, hname⟩ := exists_idAfter_eq before hd
    rw [hname] at hid hr
    -- The realizer adds no records.
    have hshapes := (hrun (fun ⦃_⦄ a => Frames (Registry.Builds name) a) { id := .text name }
      d.props (frames_realizing (Registry.builds_warned _) Registry.builds_published)
      ⟨r, {}⟩).shapes
    obtain ⟨e, -, he⟩ | ⟨b, drawn, -, -, he⟩ | ⟨b, drawn, j, -, -, he⟩ :=
      realize_split run d.kind (ShapeId.asKey_text name) (!d.declares) d.props ⟨r, {}⟩
    all_goals
      rw [he] at hr
      cases hr
    have hnew : Registry.shapes (.recorded (.text name) ⟨d.kind, .text name, !d.declares, drawn⟩
        (run { id := .text name } d.props ⟨r, {}⟩).2.state) =
        r.shapes ++ [(.text name, ⟨d.kind, .text name, !d.declares, drawn⟩)] := by
      rw [Registry.recorded, hshapes]
      exact Table.insert_of_get?_eq_none _ (Table.get?_text_eq_none (h.keys ▸ hid))
    refine ⟨?_, ?_, ?_, ?_⟩
    · rw [hnew, ids_concat, hname, Table.keys, List.map_append]
      exact congrArg (· ++ _) h.keys
    · rw [Registry.records, hnew, ids_concat, hname, List.map_append, List.map_append]
      exact congrArg (· ++ _) h.named
    · rw [Registry.records, hnew, List.map_append, List.map_append, List.map_append]
      exact congrArg (· ++ _) h.marked
    · rw [ids_concat, hname]
      exact List.nodup_append_comm.1 (List.nodup_cons.2 ⟨hid, h.distinct⟩)

theorem listed_of_course (ht : RealizerTable.ThroughBuilder table) {shapes : List ShapeSpec}
    (hd : ∀ d ∈ shapes, d.IsNamed) (hk : ∀ d ∈ shapes, (table.get? d.kind).isSome)
    {r₀ : Registry} (h₀ : r₀.shapes = []) (h : course table shapes r₀ = (.ok (), r)) :
    Listed shapes r := by
  induction shapes using List.reverseRecOn generalizing r with
  | nil =>
    rw [course_nil] at h
    cases h
    exact ⟨by rw [h₀]; rfl, by rw [Registry.records, h₀]; rfl, by rw [Registry.records, h₀]; rfl,
      List.nodup_nil⟩
  | append_singleton before d ih =>
    obtain ⟨hd, hd'⟩ := List.forall_mem_append.1 hd
    obtain ⟨hk, hk'⟩ := List.forall_mem_append.1 hk
    obtain ⟨r₁, h₁⟩ := exists_course_of_append ht h
    rw [course_concat_of_ok ht h₁] at h
    obtain ⟨run, hrun⟩ := Option.isSome_iff_exists.1 (hk' d List.mem_cons_self)
    exact (ih hd hk h₁).stage (hd' d List.mem_cons_self) hrun (ht hrun) h

/-! ## Where a pass fails -/

/-- What passes over different shapes give, and what they leave. -/
abbrev Over := List ShapeSpec → Except Failure (List ShapeRecord) × Journaled Registry

/-- A pass realizes the shapes `before` and fails at the shape `d` after
    them. -/
def FailsAt (pass : Over) (before : List ShapeSpec) (d : ShapeSpec) (e : Failure) : Prop :=
  (pass before).1.isOk = true ∧ (pass (before ++ [d])).1 = .error e

/-- What becomes of the shape `d` of a pass that has realized the shapes
    `before`: if one of these has its id, it is refused with nothing done to
    the registry, else it is realized under its id. -/
structure Treats (table : RealizerTable) (pass : Over) (before : List ShapeSpec) (d : ShapeSpec) :
    Prop where
  refused : idAfter before d ∈ ids before →
    (pass (before ++ [d])).1 = .error (.duplicateId (idAfter before d)) ∧
    (pass (before ++ [d])).2.state = (pass before).2.state
  realized : idAfter before d ∉ ids before → ∃ run, table.get? d.kind = some run ∧
    let t := realize run d.kind (idAfter before d) (!d.declares) d.props
      ⟨(pass before).2.state, {}⟩
    (pass (before ++ [d])).1 = t.1.map (fun _ => t.2.state.records) ∧
    (pass (before ++ [d])).2.state = t.2.state

/-- Passes take the course of their shapes, from the registry `r₀` on. -/
structure Follows (table : RealizerTable) (r₀ : Registry) (pass : Over) : Prop where
  result : ∀ shapes,
    (pass shapes).1 = (course table shapes r₀).1.map fun _ => (course table shapes r₀).2.records
  state : ∀ shapes, (pass shapes).2.state = (course table shapes r₀).2

namespace Follows

variable {r₀ : Registry} {pass : Over} (h : Follows table r₀ pass)
  (ht : RealizerTable.ThroughBuilder table)
include h

theorem course_of_isOk {shapes : List ShapeSpec} (hok : (pass shapes).1.isOk = true) :
    course table shapes r₀ = (.ok (), (pass shapes).2.state) := by
  rw [h.result] at hok
  rw [h.state]
  generalize course table shapes r₀ = c at hok ⊢
  obtain ⟨e | _, r⟩ := c
  · cases hok
  · rfl

theorem course_of_error {shapes : List ShapeSpec} {e : Failure}
    (he : (pass shapes).1 = .error e) :
    course table shapes r₀ = (.error e, (pass shapes).2.state) := by
  rw [h.result] at he
  rw [h.state]
  generalize course table shapes r₀ = c at he ⊢
  obtain ⟨e | _, r⟩ := c <;> cases he
  rfl

include ht

/-- A pass that fails does so at one shape. -/
theorem exists_failsAt {shapes : List ShapeSpec} {e : Failure} (he : (pass shapes).1 = .error e) :
    ∃ before d after, shapes = before ++ d :: after ∧ FailsAt pass before d e := by
  obtain ⟨before, d, after, r₁, hsplit, hbefore, hd⟩ :=
    exists_of_course_error ht (h.course_of_error he)
  refine ⟨before, d, after, hsplit, ?_, ?_⟩
  · rw [h.result, hbefore]
    rfl
  · rw [h.result, course_concat_of_ok ht hbefore, hd]
    rfl

/-- Where a pass fails, it ends. -/
theorem append_of_failsAt {e : Failure} (he : FailsAt pass before d e) (after : List ShapeSpec) :
    (pass (before ++ d :: after)).1 = .error e ∧
      (pass (before ++ d :: after)).2.state = (pass (before ++ [d])).2.state := by
  have hc := course_append_of_error ht (h.course_of_error he.2) after
  rw [List.append_assoc, List.singleton_append] at hc
  rw [h.result, h.state (before ++ d :: after), hc]
  exact ⟨rfl, rfl⟩

theorem treats (hd : d.IsNamed) (hk : (table.get? d.kind).isSome)
    (hok : (pass before).1.isOk = true) : Treats table pass before d := by
  obtain ⟨run, hk⟩ := Option.isSome_iff_exists.1 hk
  have hc := course_concat_of_ok ht (h.course_of_isOk hok) d
  constructor
  · intro hid
    rw [h.result, h.state (before ++ [d]), hc, stage_of_mem hd hk hid]
    exact ⟨rfl, rfl⟩
  · intro hid
    refine ⟨run, hk, ?_⟩
    rw [h.result, h.state (before ++ [d]), hc, stage_of_notMem hd hk hid]
    exact ⟨rfl, rfl⟩

end Follows

/-- What a pass does with a shape that its realizer is run for fails for an id
    that is taken only where the realizer itself does. -/
theorem realize_duplicateId_iff (run : Realizer) (kind : String) {id : ShapeId}
    (hid : id.asKey = .ok id) (autoId : Bool) (props : Members) (s : Journaled Registry)
    (id' : ShapeId) :
    (realize run kind id autoId props s).1 = .error (.duplicateId id') ↔
      (run { id } props s).1 = .error (.duplicateId id') := by
  obtain ⟨e, ht, he⟩ | ⟨b, drawn, ht, -, he⟩ | ⟨b, drawn, j, ht, -, he⟩ :=
    realize_split run kind hid autoId props s
  all_goals rw [he, ht]
  · constructor <;> intro h <;> cases h <;> rfl
  · constructor <;> intro h <;> cases h
  · constructor <;> intro h <;> cases h

theorem Treats.duplicateId_iff {pass : Over} (h : Treats table pass before d) (hd : d.IsNamed)
    {id : ShapeId} : (pass (before ++ [d])).1 = .error (.duplicateId id) ↔
      id = idAfter before d ∧ id ∈ ids before ∨
      idAfter before d ∉ ids before ∧ ∃ run, table.get? d.kind = some run ∧
        (run { id := idAfter before d } d.props ⟨(pass before).2.state, {}⟩).1 =
          .error (.duplicateId id) := by
  by_cases hid : idAfter before d ∈ ids before
  · rw [(h.refused hid).1]
    constructor
    · intro he
      cases he
      exact .inl ⟨rfl, hid⟩
    · rintro (⟨rfl, -⟩ | ⟨hnew, -⟩)
      · rfl
      · exact absurd hid hnew
  · obtain ⟨run, hk, hr, -⟩ := h.realized hid
    obtain ⟨name, hname⟩ := exists_idAfter_eq before hd
    have hkey : (idAfter before d).asKey = .ok (idAfter before d) := by rw [hname]; rfl
    have hiff := realize_duplicateId_iff run d.kind hkey (!d.declares) d.props
      ⟨(pass before).2.state, {}⟩ id
    rw [hr]
    generalize realize run d.kind _ _ _ _ = t at hiff ⊢
    constructor
    · intro he
      obtain ⟨e | _, s₁⟩ := t <;> cases he
      exact .inr ⟨hid, run, hk, hiff.1 rfl⟩
    · rintro (⟨rfl, hold⟩ | ⟨-, run', hk', he⟩)
      · exact absurd hold hid
      · cases hk.symm.trans hk'
        rw [hiff.2 he]
        rfl

/-- Of the realizers only those of a table of its own can make a pass fail in
    this way. -/
theorem exists_table {table : Option RealizerTable} {kind : String} {run : Realizer}
    (hk : (table.getD Shape.kinds).get? kind = some run) {b : Builder} {props : Members}
    {s : Journaled Registry} {id : ShapeId} (he : (run b props s).1 = .error (.duplicateId id)) :
    ∃ t ∈ table, t.get? kind = some run := by
  cases table with
  | none => exact absurd rfl (Shape.ofShape_realizer hk b props s _ he id)
  | some t => exact ⟨t, rfl, hk⟩

end Pass

/-- The ids of a pass over shapes with names or without ids, of kinds that
    there are. A shape goes by its name, or by its kind and the number of such
    shapes so far; what is made up in this way is never the same for two
    shapes. A pass that fails does so at one shape, with all before it
    realized. It fails for an id that is taken exactly where one of the shapes
    before has that id, and then nothing is done to the registry for the shape;
    with realizers of its own, it may fail in the same way where one of these
    does. If it succeeds, the records have the ids of the shapes, in order,
    which are different from each other, and those that have been made up are
    marked. -/
theorem runPassWith_ids {shapes : List ShapeSpec} (hd : ∀ d ∈ shapes, d.IsNamed)
    {table : Option RealizerTable} (ht : ∀ t ∈ table, RealizerTable.ThroughBuilder t)
    (hk : ∀ d ∈ shapes, ((table.getD Shape.kinds).get? d.kind).isSome) (viewBox : Option ViewBox)
    (s : Journaled Registry) :
    let pass := fun shapes => runPassWith shapes viewBox table s
    (∀ before d after, shapes = before ++ d :: after →
      (Pass.ids shapes)[before.length]? = some (Pass.idAfter before d) ∧
      (∀ name, d.id = .text name → name ≠ "" → Pass.idAfter before d = .text name) ∧
      (d.id = .text "" ∨ (∃ mark, d.id = .datum .null mark) → Pass.idAfter before d =
        .text (d.kind ++ "-" ++
          toString ((before ++ [d]).countP fun c => !c.declares && c.kind == d.kind)))) ∧
    (∀ before d between d' after, shapes = before ++ d :: (between ++ d' :: after) →
      d.declares = false → d'.declares = false →
      Pass.idAfter before d ≠ Pass.idAfter (before ++ d :: between) d') ∧
    (∀ e, (pass shapes).1 = .error e →
      ∃ before d after, shapes = before ++ d :: after ∧ Pass.FailsAt pass before d e) ∧
    (∀ before d after, shapes = before ++ d :: after →
      (∀ e, Pass.FailsAt pass before d e → (pass shapes).1 = .error e ∧
        (pass shapes).2.state = (pass (before ++ [d])).2.state) ∧
      ((pass before).1.isOk = true → Pass.Treats (table.getD Shape.kinds) pass before d) ∧
      ∀ id, Pass.FailsAt pass before d (.duplicateId id) ↔ (pass before).1.isOk = true ∧
        (id = Pass.idAfter before d ∧ id ∈ Pass.ids before ∨
          Pass.idAfter before d ∉ Pass.ids before ∧ ∃ t ∈ table, ∃ run, t.get? d.kind = some run ∧
            (run { id := Pass.idAfter before d } d.props ⟨(pass before).2.state, {}⟩).1 =
              .error (.duplicateId id))) ∧
    ∀ records, (pass shapes).1 = .ok records → records.map (·.id) = Pass.ids shapes ∧
      (Pass.ids shapes).Nodup ∧ records.map (·.autoId) = shapes.map fun d => !d.declares := by
  intro pass
  have ht' := throughBuilder_getD ht
  have hf : Pass.Follows (table.getD Shape.kinds) (s.state.opened viewBox) pass :=
    ⟨fun shapes => (runPassWith_eq_course ht shapes viewBox s).1,
      fun shapes => (runPassWith_eq_course ht shapes viewBox s).2⟩
  refine ⟨?_, ?_, fun e he => hf.exists_failsAt ht' he, ?_, fun records hrecords => ?_⟩
  · rintro before d after rfl
    refine ⟨Pass.getElem?_ids before d after, fun name hname hne => ?_, fun hid => ?_⟩
    · rw [Pass.idAfter_of_declares (ShapeSpec.declares_of_text hname hne), hname]
    · exact Pass.idAfter_of_not_declares (ShapeSpec.declares_eq_false hid)
  · rintro before d between d' after - hd hd'
    exact Pass.idAfter_ne hd hd' before between
  · rintro before d after rfl
    have hmem : d ∈ before ++ d :: after := List.mem_append_right _ List.mem_cons_self
    have htreats : (pass before).1.isOk = true →
        Pass.Treats (table.getD Shape.kinds) pass before d :=
      hf.treats ht' (hd d hmem) (hk d hmem)
    refine ⟨fun e he => hf.append_of_failsAt ht' he after, htreats, fun id =>
      and_congr_right fun hok => ((htreats hok).duplicateId_iff (hd d hmem)).trans ?_⟩
    refine or_congr_right (and_congr_right fun _ => ?_)
    constructor
    · rintro ⟨run, hrun, he⟩
      obtain ⟨t, ht, hrun⟩ := Pass.exists_table hrun he
      exact ⟨t, ht, run, hrun, he⟩
    · rintro ⟨t, rfl, run, hrun, he⟩
      exact ⟨run, hrun, he⟩
  · have hc := hf.course_of_isOk (by rw [hrecords]; rfl)
    have hl := Pass.listed_of_course ht' hd hk rfl hc
    rw [hf.result, hc] at hrecords
    cases hrecords
    exact ⟨hl.named, hl.distinct, hl.marked⟩

/-- Kinds of which one looks like the other with a count, and at last a name
    that looks like an id that has been made up before. -/
theorem runPassWith_ids_kinds :
    let table : RealizerTable := [("a", Shape.dot), ("a-1", Shape.dot)]
    let first : List ShapeSpec := [⟨"a-1", .datum .null 0, []⟩, ⟨"a", .datum .null 1, []⟩,
      ⟨"a-1", .text "", []⟩, ⟨"a", .text "b", []⟩]
    let last : ShapeSpec := ⟨"a", .text "a-1-1", []⟩
    let pass := fun shapes => runPassWith shapes none (some table) ⟨{}, {}⟩
    (∃ records, (pass first).1 = .ok records ∧
      records.map (·.id) = [.text "a-1-1", .text "a-1", .text "a-1-2", .text "b"] ∧
      records.map (·.autoId) = [true, true, true, false]) ∧
    (pass (first ++ [last])).1 = .error (.duplicateId (.text "a-1-1")) ∧
    (pass (first ++ [last])).2.state = (pass first).2.state := by
  intro table first last pass
  have hdot : ∀ t ∈ some table, RealizerTable.ThroughBuilder t := by
    rintro t ⟨⟩ kind run hk
    have hrun : run = Shape.dot := by
      simp only [table, Table.get?] at hk
      split_ifs at hk <;> exact (Option.some.inj hk).symm
    have hpoint : Table.get? Shape.kinds "point" = some Shape.dot := rfl
    exact hrun ▸ throughBuilder_kinds hpoint
  have hd : ∀ d ∈ first ++ [last], d.IsNamed := by simp [first, last, ShapeSpec.IsNamed]
  have hk : ∀ d ∈ first ++ [last], (table.get? d.kind).isSome := by decide +kernel
  obtain ⟨records, hr⟩ : ∃ records, (pass first).1 = .ok records :=
    exists_eq_ok_of_isOk (by decide +kernel)
  have hids : Pass.ids first = [.text "a-1-1", .text "a-1", .text "a-1-2", .text "b"] := rfl
  have hfirst := runPassWith_ids (List.forall_mem_append.1 hd).1 hdot
    (List.forall_mem_append.1 hk).1 none ⟨{}, {}⟩
  obtain ⟨hnamed, -, hmarked⟩ := hfirst.2.2.2.2 records hr
  have hall := runPassWith_ids hd hdot hk none ⟨{}, {}⟩
  obtain ⟨-, htreats, -⟩ := hall.2.2.2.1 first last [] rfl
  have hold : Pass.idAfter first last ∈ Pass.ids first := hids ▸ List.mem_cons_self
  obtain ⟨hfail, hstate⟩ := (htreats (by rw [hr]; rfl)).refused hold
  exact ⟨⟨records, hr, hnamed.trans hids, hmarked⟩, hfail, hstate⟩

end AnchorLayout
