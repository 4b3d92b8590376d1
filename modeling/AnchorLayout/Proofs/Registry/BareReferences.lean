import AnchorLayout.Proofs.Expr.Pieces
import AnchorLayout.Proofs.Expr.Reference
import AnchorLayout.Proofs.Registry.Effects

/-!
# An anchor as a number and as a point

An anchor can be asked for as a number or as a point. Just one of the two
questions has an answer, or there is no such anchor and both of them fail for
the same reason (`Registry.Outcomes`). A text that is cut into nothing but a
reference is read as the same reference by an expression and as a bare one, so
it can be used for both questions (`Registry.resolve_bare`).
-/

namespace AnchorLayout

namespace Registry

/-- How asking for an anchor as a number ends, and as a point. -/
inductive Outcomes (r : Registry) (id name : String) :
    Except Failure Float → Except Failure Point → Prop where
  | noShape (missing : r.anchors.get? (.text id) = none) :
      Outcomes r id name (.error (.shapeNotFound (.text id) name))
        (.error (.shapeNotFound (.text id) name))
  | noAnchor {as : Anchors} (shape : r.anchors.get? (.text id) = some as)
      (missing : Table.get? as name = none) :
      Outcomes r id name (.error (.anchorNotFound (.text id) name))
        (.error (.anchorNotFound (.text id) name))
  | number {as : Anchors} {x : Float} (shape : r.anchors.get? (.text id) = some as)
      (anchor : Table.get? as name = some (.number x)) :
      Outcomes r id name (.ok x) (.error (.anchorIsNumber (.text id) name))
  | point {as : Anchors} {p : Point} (shape : r.anchors.get? (.text id) = some as)
      (anchor : Table.get? as name = some (.point p)) :
      Outcomes r id name (.error (.anchorIsPoint (.text id) name)) (.ok p)

/-- Where one of the two questions fails, the reference cannot be resolved. -/
theorem Outcomes.category {r : Registry} {id name : String} {x : Except Failure Float}
    {p : Except Failure Point} (h : r.Outcomes id name x p) :
    (∀ err, x = .error err → err.category = .resolution) ∧
    (∀ err, p = .error err → err.category = .resolution) := by
  cases h <;> constructor <;> rintro _ ⟨⟩ <;> rfl

theorem outcomes (r : Registry) (id name : String) :
    r.Outcomes id name (r.number (.text id) name) (r.point (.text id) name) := by
  rw [Registry.number, Registry.point]
  cases hshape : r.anchors.get? (.text id) with
  | none =>
    have herr : r.anchor (.text id) name = .error (.shapeNotFound (.text id) name) := by
      simp only [Registry.anchor, ShapeId.asKey_text, bind, Except.bind, hshape]
      rfl
    rw [herr]
    exact .noShape hshape
  | some as =>
    cases ha : Table.get? as name with
    | none =>
      have herr : r.anchor (.text id) name = .error (.anchorNotFound (.text id) name) := by
        simp only [Registry.anchor, ShapeId.asKey_text, bind, Except.bind, hshape, ha]
        rfl
      rw [herr]
      exact .noAnchor hshape ha
    | some a =>
      rw [anchor_eq_ok.2 ⟨as, rfl, hshape, ha⟩]
      cases a with
      | number x => exact .number hshape ha
      | point p => exact .point hshape ha

end Registry

/-- A text that is cut into nothing but a reference is the text that refers to
    an anchor. -/
theorem Token.exists_referenceText {text : String}
    (h : listing text = .ok [⟨"REF", text, 0⟩, endRow text]) :
    ∃ id anchor, IsId id ∧ IsAnchorName anchor ∧ text = referenceText id anchor := by
  obtain ⟨ts, hts, hrows⟩ := listing_eq_ok_iff.1 h
  obtain ⟨t, rfl, ht⟩ : ∃ t, ts = [t] ∧ t.row = ⟨"REF", text, 0⟩ := by
    have hmap : ts.map row = [⟨"REF", text, 0⟩] := List.append_cancel_right hrows
    exact List.map_eq_singleton_iff.1 hmap
  obtain ⟨hkind, htext, -⟩ := Row.mk.inj ht
  have hwf := wellFormed_of_mem_scanFrom hts t List.mem_cons_self
  cases hl : t.lexeme with
  | ref id anchor =>
    rw [hl] at hwf htext
    refine ⟨id, anchor, hwf.1, hwf.2, String.toList_inj.1 ?_⟩
    rw [← htext, toList_referenceText, Lexeme.text, String.toList_ofList, Lexeme.chars]
  | operator op => cases op <;> simp [hl, Lexeme.kind] at hkind
  | number | selfRef | opening | closing => simp [hl, Lexeme.kind] at hkind

namespace Registry

/-- A text that is cut into nothing but a reference is read as the same one by
    an expression and as a bare one. Resolving it as a number or as a point,
    one gets the anchor by the one way or the other, or by neither for the same
    reason; and the registry stays as it is. -/
theorem resolve_bare {text : String}
    (h : Token.listing text = .ok [⟨"REF", text, 0⟩, Token.endRow text]) :
    ∃ id name, Expr.parse text = .ok (.ref id name : Expr Value) ∧
      Reference.ofText text = .ok ⟨id, name⟩ ∧
      ∀ (r : Registry) (self : SelfArgument) (j j' : Journal),
        let number := resolve text self ⟨r, j⟩
        let point := resolvePoint text ⟨r, j'⟩
        r.Outcomes id name number.1 point.1 ∧
        (∀ err, number.1 = .error err → err.category = .resolution) ∧
        (∀ err, point.1 = .error err → err.category = .resolution) ∧
        number.2.state = r ∧ point.2.state = r := by
  obtain ⟨id, name, hid, hname, rfl⟩ := Token.exists_referenceText h
  have hparse := Expr.parse_ref hid hname
  have hbare := Reference.ofText_ref hid.ne_empty hid.point_notMem hname.ne_empty
    hname.line_notMem
  refine ⟨id, name, hparse, hbare, fun r self j j' => ?_⟩
  have hnumber : (resolve (referenceText id name) self ⟨r, j⟩).1 = r.number (.text id) name := by
    rw [resolve_fst, valueOf, expression, hparse]
    rfl
  have hpoint : (resolvePoint (referenceText id name) ⟨r, j'⟩).1 = r.point (.text id) name := by
    rw [resolvePoint_fst, pointOf, hbare]
    rfl
  have houtcomes := r.outcomes id name
  rw [← hnumber, ← hpoint] at houtcomes
  exact ⟨houtcomes, houtcomes.category.1, houtcomes.category.2, resolve_state _ _ _,
    resolvePoint_state _ _⟩

/-- A reference to an anchor with points in its name, which is a number. -/
theorem resolve_bare_number :
    let r : Registry := { anchors := [(.text "tri", [("v0.x.", .number 2)])] }
    Token.listing "#tri.v0.x." = .ok [⟨"REF", "#tri.v0.x.", 0⟩, ⟨"EOF", "", 10⟩] ∧
    Expr.parse "#tri.v0.x." = .ok (.ref "tri" "v0.x." : Expr Value) ∧
    (resolve "#tri.v0.x." (.byPlace none) ⟨r, {}⟩).1 = .ok 2 ∧
    (resolvePoint "#tri.v0.x." ⟨r, {}⟩).1 = .error (.anchorIsNumber (.text "tri") "v0.x.") := by
  intro r
  have hlisting : Token.listing "#tri.v0.x." =
      .ok [⟨"REF", "#tri.v0.x.", 0⟩, Token.endRow "#tri.v0.x."] := by cbv
  have hbare : Reference.ofText "#tri.v0.x." = .ok ⟨"tri", "v0.x."⟩ := by cbv
  obtain ⟨id, name, hparse, hbare', hr⟩ := resolve_bare hlisting
  obtain ⟨rfl, rfl⟩ := Reference.mk.inj (Except.ok.inj (hbare'.symm.trans hbare))
  have hget : r.anchors.get? (.text "tri") = some [("v0.x.", .number 2)] := by decide +kernel
  have hname : Table.get? [("v0.x.", Anchor.number 2)] "v0.x." = some (.number 2) := by
    decide +kernel
  refine ⟨hlisting, hparse, ?_⟩
  have houtcomes := (hr r (.byPlace none) {} {}).1
  generalize (resolve "#tri.v0.x." (.byPlace none) ⟨r, {}⟩).1 = number at houtcomes ⊢
  generalize (resolvePoint "#tri.v0.x." ⟨r, {}⟩).1 = point at houtcomes ⊢
  cases houtcomes with
  | noShape missing => simp [hget] at missing
  | noAnchor shape missing =>
    cases hget.symm.trans shape
    simp [hname] at missing
  | number shape anchor =>
    cases hget.symm.trans shape
    cases hname.symm.trans anchor
    exact ⟨rfl, rfl⟩
  | point shape anchor =>
    cases hget.symm.trans shape
    cases hname.symm.trans anchor

end Registry

end AnchorLayout
