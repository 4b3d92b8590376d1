import AnchorLayout.Proofs.Expr.Meaning
import AnchorLayout.Proofs.Expr.Reference
import AnchorLayout.Proofs.Pass.Ledger

/-!
# References to the shapes of a pass

An anchor of a shape that a pass has realized is found by a reference to it if
the id of the shape can be written there. That is so with all ids that are made
up (`Pass.isId_madeUp`). A pass accepts other ids too; but an expression names
no shape whose id is not made up of the characters of ids
(`ShapeId.InExpression`), and a bare reference none with a point in its id
(`ShapeId.InReference`), nor does either one name a shape whose id is no text.
The anchors of such a shape make no difference to any answer
(`Registry.valueOf_published`, `Registry.pointOf_published`).
-/

namespace AnchorLayout

open AnchorLayout.Action

/-! ## Names of anchors -/

namespace Shape

theorem nodup_anchorNames (kind : String) : (anchorNames kind).Nodup := by
  unfold anchorNames
  split <;> decide

theorem isAnchorName_of_mem {kind name : String} (h : name ∈ anchorNames kind) :
    IsAnchorName name := by
  unfold anchorNames at h
  split at h <;> revert name <;> decide

theorem point_notMem_of_mem {kind name : String} (h : name ∈ anchorNames kind) :
    '.' ∉ name.toList := by
  unfold anchorNames at h
  split at h <;> revert name <;> decide

end Shape

/-! ## Ids that are made up -/

namespace Pass

theorem isId_of_mem_kinds : ∀ kind ∈ Table.keys Shape.kinds, IsId kind := by decide

theorem isIdChar_of_mem_toString {n : ℕ} {c : Char} (h : c ∈ (toString n).toList) :
    isIdChar c = true := by
  have hd := Decimal.allDigits_toString n c h
  simp [isIdChar, Char.isAlphanum, hd]

/-- An id that is made up for one of the usual kinds can be named in an
    expression. -/
theorem isId_madeUp {kind : String} {run : Realizer} (hk : Shape.kinds.get? kind = some run)
    (n : ℕ) : IsId (kind ++ "-" ++ toString n) := by
  have hkind : IsId kind := isId_of_mem_kinds kind (List.mem_map_of_mem (Table.mem_of_get? hk))
  constructor
  · simp
  · intro c hc
    simp only [String.toList_append, List.mem_append] at hc
    obtain (hc | hc) | hc := hc
    · exact hkind.2 c hc
    · rw [List.mem_singleton.1 hc]
      rfl
    · exact isIdChar_of_mem_toString hc

end Pass

/-! ## Ids that can be written -/

/-- An id that an expression can name. -/
def ShapeId.InExpression (id : ShapeId) : Prop := ∃ name, id = .text name ∧ IsId name

/-- An id that a bare reference can name. -/
def ShapeId.InReference (id : ShapeId) : Prop := ∃ name, id = .text name ∧ '.' ∉ name.toList

theorem ShapeId.InExpression.inReference {id : ShapeId} (h : id.InExpression) : id.InReference := by
  obtain ⟨name, hid, hname⟩ := h
  exact ⟨name, hid, hname.point_notMem⟩

theorem Expr.isId_of_mem_shapes {ν : Type} {e : Expr ν} (h : e.WellNamed) {name : String}
    (hname : name ∈ e.shapes) : IsId name := by
  induction e with
  | literal | selfRef | foreign => cases hname
  | unknown => cases h
  | ref id anchor =>
    cases List.mem_singleton.1 hname
    exact h.1
  | binary op l r ihl ihr =>
    obtain hname | hname := List.mem_append.1 hname
    · exact ihl h.1 hname
    · exact ihr h.2 hname

namespace Question

theorem isId_of_mem_shapes {text name : String} {self : Option ShapeId}
    (h : name ∈ (Question.value text self).shapes) : IsId name := by
  rw [shapes] at h
  split at h
  · next e he => exact Expr.isId_of_mem_shapes (Expr.wellNamed_of_parse he) h
  · cases h

theorem point_notMem_of_mem_shapes {text name : String}
    (h : name ∈ (Question.point text).shapes) : '.' ∉ name.toList := by
  rw [shapes] at h
  split at h
  · next ref href =>
    cases List.mem_singleton.1 h
    exact Reference.point_notMem_id href
  · cases h

end Question

/-! ## Answers -/

namespace Registry

variable {r : Registry}

/-- A reference to an anchor that is a number is an expression with that
    value. -/
theorem valueOf_referenceText {id name : String} {x : Float} (hid : IsId id)
    (hname : IsAnchorName name) (h : r.anchor (.text id) name = .ok (.number x))
    (self : Option ShapeId) : r.valueOf self (referenceText id name) = .ok x := by
  refine except_bind_iff.2 ⟨.ref id name, ?_, number_eq_ok.2 h⟩
  rw [expression, Expr.parse_ref hid hname]

/-- A reference with an id that an expression cannot name is no expression,
    unless there is a point in the id. -/
theorem valueOf_referenceText_error {id : String} (hp : '.' ∉ id.toList) (hid : ¬ IsId id)
    (name : String) (self : Option ShapeId) :
    ∃ err, r.valueOf self (referenceText id name) = .error (.misread err) := by
  obtain ⟨err, he⟩ := Expr.exists_parse_error hp hid name
  exact ⟨err, by rw [valueOf, expression, he]; rfl⟩

/-- A bare reference to an anchor that is a point has that for its point. -/
theorem pointOf_referenceText {id name : String} {p : Point} (hid : id ≠ "")
    (hp : '.' ∉ id.toList) (hname : IsAnchorName name)
    (h : r.anchor (.text id) name = .ok (.point p)) : r.pointOf (referenceText id name) = .ok p :=
  except_bind_iff.2 ⟨⟨id, name⟩, Reference.ofText_ref hid hp hname.ne_empty hname.line_notMem,
    point_eq_ok.2 h⟩

/-- What an expression stands for does not depend on the anchors of a shape
    that no expression can name. -/
theorem valueOf_published {id : ShapeId} (hid : ¬ id.InExpression) (text : String) (as : Anchors) :
    (r.published id as).valueOf none text = r.valueOf none text := by
  refine valueOf_eq_of_answer (answer_congr nofun fun name hname => ?_)
  exact Table.get?_text_insert_of_ne as fun h =>
    hid ⟨name, h, Question.isId_of_mem_shapes hname⟩

theorem pointOf_published {id : ShapeId} (hid : ¬ id.InReference) (text : String) (as : Anchors) :
    (r.published id as).pointOf text = r.pointOf text := by
  refine pointOf_eq_of_answer (answer_congr nofun fun name hname => ?_)
  exact Table.get?_text_insert_of_ne as fun h =>
    hid ⟨name, h, Question.point_notMem_of_mem_shapes hname⟩

/-- A reference to a shape with a point in its id is read as one to an anchor
    that no shape has. -/
theorem pointOf_referenceText_ne_ok {id : String} (hp : '.' ∈ id.toList) (name : String)
    (hr : ∀ id as, r.anchors.get? (.text id) = some as → ∀ name ∈ Table.keys as,
      '.' ∉ name.toList) (p : Point) : r.pointOf (referenceText id name) ≠ .ok p := by
  intro h
  obtain ⟨ref, href, h⟩ := except_bind_iff.1 h
  obtain ⟨as, -, has, ha⟩ := anchor_eq_ok.1 (point_eq_ok.1 h)
  exact hr ref.id as has ref.anchor (List.mem_map_of_mem (Table.mem_of_get? ha))
    (Reference.point_mem_of_ofText hp href)

/-- How one can refer to a shape that is recorded with the anchors `as`. -/
structure ReferredTo (r : Registry) (record : ShapeRecord) (as : Anchors) : Prop where
  anchors : r.anchorsOf record.id = .ok as
  /-- An id that is made up can be written in expressions. -/
  madeUp : record.autoId = true → record.id.InExpression
  /-- Where the id can be written, a reference to an anchor is answered with
      that anchor. -/
  number : record.id.InExpression → ∀ name x, (name, Anchor.number x) ∈ as → ∀ self j,
    (resolve (referenceText record.id.plainText name) self ⟨r, j⟩).1 = .ok x
  point : record.id.InReference → ∀ name p, (name, Anchor.point p) ∈ as → ∀ j,
    (resolvePoint (referenceText record.id.plainText name) ⟨r, j⟩).1 = .ok p
  /-- Where it cannot be written, no text at all has an answer that depends on
      the anchors. -/
  unseen : ¬ record.id.InExpression → ∀ text as' j,
    (resolve text (.byPlace none) ⟨r.published record.id as', j⟩).1 =
      (resolve text (.byPlace none) ⟨r, j⟩).1
  unseenBare : ¬ record.id.InReference → ∀ text as' j,
    (resolvePoint text ⟨r.published record.id as', j⟩).1 = (resolvePoint text ⟨r, j⟩).1
  /-- With another character than those of ids in the id, a reference is no
      expression, at least if that is not a point. -/
  misread : ∀ id, record.id = .text id → '.' ∉ id.toList → ¬ IsId id → ∀ name self j, ∃ err,
    (resolve (referenceText record.id.plainText name) self ⟨r, j⟩).1 = .error (.misread err)
  /-- With a point in the id, a bare reference is not answered. -/
  unanswered : ∀ id, record.id = .text id → '.' ∈ id.toList → ∀ name j p,
    (resolvePoint (referenceText record.id.plainText name) ⟨r, j⟩).1 ≠ .ok p

end Registry

/-! ## Passes -/

namespace Pass

/-- No anchor of a shape that has been realized has a point in its name. -/
theorem Ledger.point_notMem {r₀ r : Registry} {shapes : List ShapeSpec} (h : Ledger r₀ shapes r)
    {id name : String} {as : Anchors} (has : r.anchors.get? (.text id) = some as)
    (hname : name ∈ as.keys) : '.' ∉ name.toList := by
  have hmem : ShapeId.text id ∈ r.anchors.keys := by
    by_contra hn
    rw [Table.get?_text_eq_none hn] at has
    cases has
  rw [h.anchors] at hmem
  obtain ⟨before, d, after, rfl, hid⟩ := exists_of_mem_ids hmem
  obtain ⟨record, as', -, has', hfin⟩ := h.finished before d after rfl
  have hget := (Registry.anchorsOf_eq_ok.1 has').2
  rw [hfin.id, hid, has] at hget
  cases hget
  exact Shape.point_notMem_of_mem (hfin.names ▸ hname)

variable {r : Registry} {before : List ShapeSpec} {d : ShapeSpec} {record : ShapeRecord}
  {as : Anchors} (h : Finished r before d record as)
include h

/-- A text that is the id of a shape is not empty. -/
theorem Finished.ne_empty {id : String} (hid : record.id = .text id) : id ≠ "" := by
  rintro rfl
  rw [h.id, idAfter, ShapeSpec.idAs] at hid
  split_ifs at hid with hd
  · rw [ShapeSpec.declares_eq_false (.inl hid)] at hd
    cases hd
  · have htext := congrArg String.length (ShapeId.text.inj hid)
    simp at htext

theorem Finished.inExpression (hauto : record.autoId = true) : record.id.InExpression := by
  obtain ⟨run, -, hk, -⟩ := h.realized
  have hd : ¬ d.declares = true := by
    rw [h.autoId] at hauto
    simpa using hauto
  rw [h.id, idAfter, ShapeSpec.idAs, if_neg hd]
  exact ⟨_, rfl, isId_madeUp hk _⟩

end Pass

/-- After a pass that succeeds, every shape has anchors, which can be referred
    to just as far as its id can be written. -/
theorem runPass_reference {shapes : List ShapeSpec} {viewBox : Option ViewBox}
    {s : Journaled Registry} {records : List ShapeRecord} {record : ShapeRecord}
    (h : (runPass shapes viewBox s).1 = .ok records) (hrecord : record ∈ records) :
    ∃ as, Registry.ReferredTo (runPass shapes viewBox s).2.state record as := by
  obtain ⟨hl, rfl⟩ := Pass.ledger_of_runPass h
  generalize (runPass shapes viewBox s).2.state = r at hl hrecord ⊢
  obtain ⟨before, d, after, as, -, has, hfin⟩ := hl.exists_of_mem hrecord
  obtain ⟨hkey, hget⟩ := Registry.anchorsOf_eq_ok.1 has
  have hanchor {name : String} {a : Anchor} (ha : (name, a) ∈ as) :
      IsAnchorName name ∧ r.anchor record.id name = .ok a := by
    have hname : name ∈ Shape.anchorNames d.kind := hfin.names ▸ List.mem_map_of_mem ha
    have hnodup : (Table.keys as).Nodup := hfin.names ▸ Shape.nodup_anchorNames d.kind
    exact ⟨Shape.isAnchorName_of_mem hname,
      Registry.anchor_eq_ok.2 ⟨as, hkey, hget, Table.get?_of_mem hnodup ha⟩⟩
  refine ⟨as, ?_⟩
  constructor
  case anchors => exact has
  case madeUp => exact hfin.inExpression
  case number =>
    rintro ⟨id, hid, hisId⟩ name x hx self j
    obtain ⟨hname, ha⟩ := hanchor hx
    rw [hid] at ha ⊢
    rw [Registry.resolve_fst]
    exact Registry.valueOf_referenceText hisId hname ha _
  case point =>
    rintro ⟨id, hid, hpoint⟩ name p hp j
    obtain ⟨hname, ha⟩ := hanchor hp
    rw [hid] at ha ⊢
    rw [Registry.resolvePoint_fst]
    exact Registry.pointOf_referenceText (hfin.ne_empty hid) hpoint hname ha
  case unseen =>
    intro hid text as' j
    rw [Registry.resolve_fst, Registry.resolve_fst]
    exact Registry.valueOf_published hid text as'
  case unseenBare =>
    intro hid text as' j
    rw [Registry.resolvePoint_fst, Registry.resolvePoint_fst]
    exact Registry.pointOf_published hid text as'
  case misread =>
    intro id hid hpoint hisId name self j
    rw [hid, Registry.resolve_fst]
    exact Registry.valueOf_referenceText_error hpoint hisId name _
  case unanswered =>
    intro id hid hpoint name j p
    rw [hid, Registry.resolvePoint_fst]
    exact Registry.pointOf_referenceText_ne_ok hpoint name
      (fun id as has name hname => hl.point_notMem has hname) p

/-- A point that declares no id, and references to it. -/
theorem runPass_reference_point :
    let t := runPass [⟨"point", .datum .null 0, [("x", .int 2)]⟩] none ⟨{}, {}⟩
    (t.1.isOk = true ∧ t.2.state.records.map (·.autoId) = [true]) ∧
    (∃ x, t.2.state.number (.text "point-1") "x" = .ok x ∧
      ∀ self j, (Registry.resolve "#point-1.x" self ⟨t.2.state, j⟩).1 = .ok x) ∧
    ∃ p, t.2.state.point (.text "point-1") "center" = .ok p ∧
      ∀ j, (Registry.resolvePoint "#point-1.center" ⟨t.2.state, j⟩).1 = .ok p := by
  intro t
  obtain ⟨records, hok⟩ : ∃ records, t.1 = .ok records := exists_eq_ok_of_isOk (by decide +kernel)
  have hany : t.1.toOption.map (·.any (·.id == .text "point-1")) = some true := by decide +kernel
  rw [hok] at hany
  obtain ⟨x, hx⟩ : ∃ x, t.2.state.number (.text "point-1") "x" = .ok x :=
    exists_eq_ok_of_isOk (by decide +kernel)
  obtain ⟨p, hp⟩ : ∃ p, t.2.state.point (.text "point-1") "center" = .ok p :=
    exists_eq_ok_of_isOk (by decide +kernel)
  obtain ⟨record, hrecord, hid⟩ := List.any_eq_true.1 (Option.some.inj hany)
  have hid := ShapeId.beq_text.1 hid
  obtain ⟨as, h⟩ := runPass_reference hok hrecord
  have hmem {name : String} {a : Anchor} (ha : t.2.state.anchor (.text "point-1") name = .ok a) :
      (name, a) ∈ as := by
    obtain ⟨as', -, has, ha⟩ := Registry.anchor_eq_ok.1 ha
    have has' := h.anchors
    rw [hid, Registry.anchorsOf_eq_ok, has] at has'
    cases has'.2
    exact Table.mem_of_get? ha
  have hin : record.id.InExpression := ⟨"point-1", hid, by decide⟩
  have hnumber := h.number hin "x" x (hmem (Registry.number_eq_ok.1 hx))
  have hpoint := h.point hin.inReference "center" p (hmem (Registry.point_eq_ok.1 hp))
  rw [hid] at hnumber hpoint
  exact ⟨⟨by rw [hok]; rfl, by decide +kernel⟩, ⟨x, hx, hnumber⟩, p, hp, hpoint⟩

/-- Points whose ids are a text with a space in it, a text with a point in it,
    and a number. The pass succeeds with all of them, and they have a number
    and a point for anchors; but of the references to these, only the bare one
    to the first is answered. -/
theorem runPass_reference_refused :
    let shapes : List ShapeSpec :=
      [⟨"point", .text "a b", []⟩, ⟨"point", .text "c.d", []⟩, ⟨"point", .datum (.int 5) 0, []⟩]
    let t := runPass shapes none ⟨{}, {}⟩
    let r := t.2.state
    (t.1.isOk = true ∧ r.records.map (·.id.plainText) = ["a b", "c.d", "5"]) ∧
    (∀ record ∈ r.records, ∃ as x p, r.anchorsOf record.id = .ok as ∧
      ("x", .number x) ∈ as ∧ ("center", .point p) ∈ as) ∧
    r.records.map (fun record =>
        (Registry.resolve (referenceText record.id.plainText "x") (.byPlace none) ⟨r, {}⟩).1.isOk) =
      [false, false, false] ∧
    r.records.map (fun record =>
        (Registry.resolvePoint (referenceText record.id.plainText "center") ⟨r, {}⟩).1.isOk) =
      [true, false, false] := by
  intro shapes t r
  have hall : r.records.all (fun record =>
      (r.number record.id "x").isOk && (r.point record.id "center").isOk) = true := by
    decide +kernel
  refine ⟨⟨by decide +kernel, by decide +kernel⟩, fun record hrecord => ?_, by decide +kernel,
    by decide +kernel⟩
  obtain ⟨hx, hp⟩ := Bool.and_eq_true_iff.1 (List.all_eq_true.1 hall record hrecord)
  obtain ⟨x, hx⟩ := exists_eq_ok_of_isOk hx
  obtain ⟨p, hp⟩ := exists_eq_ok_of_isOk hp
  obtain ⟨as, hid, has, hx⟩ := Registry.anchor_eq_ok.1 (Registry.number_eq_ok.1 hx)
  obtain ⟨as', -, has', hp⟩ := Registry.anchor_eq_ok.1 (Registry.point_eq_ok.1 hp)
  rw [has] at has'
  cases has'
  exact ⟨as, x, p, Registry.anchorsOf_eq_ok.2 ⟨hid, has⟩, Table.mem_of_get? hx,
    Table.mem_of_get? hp⟩

end AnchorLayout
