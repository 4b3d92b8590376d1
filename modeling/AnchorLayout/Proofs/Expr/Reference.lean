import AnchorLayout.Proofs.Expr.Layout
import AnchorLayout.Proofs.Expr.Meaning
import AnchorLayout.Reference

/-!
# Texts that refer to an anchor

An anchor is referred to by the id of its shape and its name. In an expression,
such a text is read as that reference if the id is made up of the characters of
ids (`Expr.parse_ref`). As a bare reference it is read so if there is no point
in the id (`Reference.ofText_ref`), because the id ends at the first one. Other
texts that are written like this are refused, or they are read as a reference
to another anchor.

More is taken for a bare reference than a reference of an expression: any
characters may stand in it but a point in the id and a line feed in the anchor,
and a line feed may follow it (`Reference.Written`). None of these further
texts is just the reference that it is taken for, as an expression reads it
(`Reference.ofText_bare_iff`).
-/

namespace AnchorLayout

/-- The text that refers to an anchor. -/
def referenceText (id anchor : String) : String := "#" ++ id ++ "." ++ anchor

theorem toList_referenceText (id anchor : String) :
    (referenceText id anchor).toList = '#' :: (id.toList ++ '.' :: anchor.toList) := by
  simp [referenceText]

/-- There is no point in an id that an expression can name. -/
theorem IsId.point_notMem {id : String} (h : IsId id) : '.' ∉ id.toList := fun hp =>
  absurd (h.2 '.' hp) (by decide)

theorem IsId.ne_empty {id : String} (h : IsId id) : id ≠ "" := by
  rintro rfl
  exact absurd h (by decide)

theorem IsAnchorName.ne_empty {name : String} (h : IsAnchorName name) : name ≠ "" := by
  rintro rfl
  exact absurd h (by decide)

theorem IsAnchorName.line_notMem {name : String} (h : IsAnchorName name) : '\n' ∉ name.toList :=
  fun hl => absurd (h.2 '\n' hl) (by decide)

/-! ## In expressions -/

namespace Expr

theorem parse_ref {id anchor : String} (hid : IsId id) (ha : IsAnchorName anchor) :
    (parse (referenceText id anchor) : Except SyntaxError (Expr Value)) = .ok (.ref id anchor) := by
  have hname : (Expr.ref id anchor : Expr Value).WellNamed := ⟨hid, ha⟩
  exact parse_format hname nofun rfl

/-- Where no point follows, no anchor is read. -/
theorem exists_readAnchor_error {c : Char} (hc : c ≠ '.') (after : String) (width : ℕ)
    (cs : List Char) : ∃ err, Lexeme.readAnchor after width (c :: cs) = .error err := by
  rw [Lexeme.readAnchor.eq_def]
  split
  · next heq => exact absurd (List.cons.inj heq).1 hc
  · exact ⟨_, rfl⟩

/-- A text without a point that is no id is not read as one, because what is
    read of it ends before the point. -/
theorem exists_readRef_error {id : String} (hp : '.' ∉ id.toList) (h : ¬ IsId id)
    (rest : List Char) : ∃ err, Lexeme.readRef (id.toList ++ '.' :: rest) = .error err := by
  by_cases hall : ∀ c ∈ id.toList, isIdChar c = true
  · have hnil : id.toList = [] := by_contra fun hne => h ⟨hne, hall⟩
    rw [hnil]
    exact ⟨_, rfl⟩
  · obtain ⟨c, cs, hcs⟩ : ∃ c cs, id.toList.dropWhile isIdChar = c :: cs :=
      List.exists_cons_of_ne_nil fun hnil => hall (List.dropWhile_eq_nil_iff.1 hnil)
    have hpoint : c ≠ '.' := by
      rintro rfl
      exact hp ((List.dropWhile_sublist _).subset (hcs ▸ List.mem_cons_self))
    have hstop : ∀ c' ∈ (c :: (cs ++ '.' :: rest)).head?, isIdChar c' = false := by
      have hdrop : ∀ c' ∈ (c :: cs).head?, isIdChar c' = false := hcs ▸ not_head_dropWhile
      exact hdrop
    have hsplit : id.toList ++ '.' :: rest =
        id.toList.takeWhile isIdChar ++ c :: (cs ++ '.' :: rest) := by
      rw [← List.cons_append, ← hcs, ← List.append_assoc, List.takeWhile_append_dropWhile]
    have hid : ∀ c ∈ id.toList.takeWhile isIdChar, isIdChar c = true := fun _ =>
      List.mem_takeWhile_imp
    rw [hsplit]
    simp only [Lexeme.readRef, takeWhile_append_of_ends hid hstop,
      dropWhile_append_of_ends hid hstop]
    split_ifs
    · exact ⟨_, rfl⟩
    · obtain ⟨err, he⟩ := exists_readAnchor_error hpoint "shape id"
        (1 + (id.toList.takeWhile isIdChar).length) (cs ++ '.' :: rest)
      rw [he]
      exact ⟨_, rfl⟩

theorem exists_parse_error {id : String} (hp : '.' ∉ id.toList) (h : ¬ IsId id)
    (anchor : String) :
    ∃ err, (parse (referenceText id anchor) : Except SyntaxError (Expr Value)) = .error err := by
  obtain ⟨err, he⟩ := exists_readRef_error hp h anchor.toList
  have hread : Lexeme.read true '#' (id.toList ++ '.' :: anchor.toList) = .error err := by
    rw [Lexeme.read, Lexeme.number?_eq_none rfl (by decide) (.inl (by decide))]
    exact he
  rw [parse, Token.scan, toList_referenceText, Token.scanFrom, hread]
  exact ⟨_, rfl⟩

end Expr

/-! ## Bare -/

namespace Reference

/-- A text is written like a bare reference: an id without a point, and an
    anchor that is one line, with or without a line feed at the end. -/
structure Written (text : String) (ref : Reference) : Prop where
  id_ne : ref.id ≠ ""
  point_notMem : '.' ∉ ref.id.toList
  anchor_ne : ref.anchor ≠ ""
  line_notMem : '\n' ∉ ref.anchor.toList
  text : ∃ after, (after = "" ∨ after = "\n") ∧ text = referenceText ref.id ref.anchor ++ after

/-- What is left of a text at its first line feed is that line feed, if it is
    not longer. -/
theorem dropWhile_line {cs : List Char} (h : ¬ 1 < (cs.dropWhile (· != '\n')).length) :
    cs.dropWhile (· != '\n') = [] ∨ cs.dropWhile (· != '\n') = ['\n'] := by
  have hline : ∀ c ∈ (cs.dropWhile (· != '\n')).head?, (c != '\n') = false := not_head_dropWhile
  cases hend : cs.dropWhile (· != '\n') with
  | nil => exact .inl rfl
  | cons c after =>
    rw [hend] at h hline
    have hc : c = '\n' := by simpa using hline c rfl
    have hnil : after = [] := List.length_eq_zero_iff.1 (by simpa using h)
    exact .inr (by rw [hc, hnil])

theorem written_of_split? {text : String} {cs : List Char} {ref : Reference}
    (hcs : text.toList = '#' :: cs) (h : split? cs = some ref) : Written text ref := by
  rw [split?] at h
  split at h
  · cases h
  · next p rest hdrop =>
    dsimp only at h
    split_ifs at h with hcond
    cases h
    simp only [Bool.or_eq_true, List.isEmpty_iff, decide_eq_true_eq, not_or] at hcond
    obtain ⟨⟨hid, hanchor⟩, hafter⟩ := hcond
    constructor
    case id_ne => exact mt String.ofList_eq_empty_iff.1 hid
    case anchor_ne => exact mt String.ofList_eq_empty_iff.1 hanchor
    case point_notMem =>
      rw [String.toList_ofList]
      exact fun hp => absurd (List.mem_takeWhile_imp hp) (by decide)
    case line_notMem =>
      rw [String.toList_ofList]
      exact fun hl => absurd (List.mem_takeWhile_imp hl) (by decide)
    case text =>
      have hpoint : ∀ c ∈ (cs.dropWhile (· != '.')).head?, (c != '.') = false := not_head_dropWhile
      rw [hdrop] at hpoint
      obtain rfl : p = '.' := by simpa using hpoint p rfl
      refine ⟨String.ofList (rest.dropWhile (· != '\n')), ?_, String.toList_inj.1 ?_⟩
      · rcases dropWhile_line hafter with hend | hend
        · exact .inl (by rw [hend])
        · exact .inr (by rw [hend])
      · rw [String.toList_append, toList_referenceText, String.toList_ofList, String.toList_ofList,
          String.toList_ofList, List.cons_append, List.append_assoc, List.cons_append,
          List.takeWhile_append_dropWhile, ← hdrop, List.takeWhile_append_dropWhile, hcs]

theorem split?_append {id anchor after : List Char} (hid : id ≠ []) (hp : '.' ∉ id)
    (ha : anchor ≠ []) (hl : '\n' ∉ anchor) (hafter : after = [] ∨ after = ['\n']) :
    split? (id ++ '.' :: (anchor ++ after)) = some ⟨String.ofList id, String.ofList anchor⟩ := by
  have hid' : ∀ c ∈ id, (c != '.') = true := fun c hc => bne_iff_ne.2 fun h => hp (h ▸ hc)
  have hanchor : ∀ c ∈ anchor, (c != '\n') = true := fun c hc => bne_iff_ne.2 fun h => hl (h ▸ hc)
  have hpoint : ∀ c ∈ ('.' :: (anchor ++ after)).head?, (c != '.') = false := by simp
  have hend : ∀ c ∈ after.head?, (c != '\n') = false := by
    rcases hafter with rfl | rfl <;> simp
  have hlength : ¬ 1 < after.length := by
    rcases hafter with rfl | rfl <;> simp
  simp only [split?, takeWhile_append_of_ends hid' hpoint, dropWhile_append_of_ends hid' hpoint,
    takeWhile_append_of_ends hanchor hend, dropWhile_append_of_ends hanchor hend]
  simp [hid, ha, hlength]

/-- The texts that are taken for bare references are those written like one. -/
theorem ofText_eq_ok_iff {text : String} {ref : Reference} :
    ofText text = .ok ref ↔ Written text ref := by
  constructor
  · intro h
    rw [ofText] at h
    split at h
    · next cs hcs =>
      split at h
      · next ref' hsplit =>
        cases h
        exact written_of_split? hcs hsplit
      · cases h
    · cases h
  · rintro ⟨hid, hp, ha, hl, after, hafter, rfl⟩
    have hafter' : after.toList = [] ∨ after.toList = ['\n'] := by
      rcases hafter with rfl | rfl
      · exact .inl rfl
      · exact .inr rfl
    have hsplit := split?_append (mt String.toList_eq_nil_iff.1 hid) hp
      (mt String.toList_eq_nil_iff.1 ha) hl hafter'
    rw [ofText, String.toList_append, toList_referenceText, List.cons_append, List.append_assoc,
      List.cons_append]
    simp only [hsplit, String.ofList_toList]

theorem ofText_ref {id anchor : String} (hid : id ≠ "") (hp : '.' ∉ id.toList)
    (ha : anchor ≠ "") (hl : '\n' ∉ anchor.toList) :
    ofText (referenceText id anchor) = .ok ⟨id, anchor⟩ :=
  ofText_eq_ok_iff.2 ⟨hid, hp, ha, hl, "", .inl rfl, String.append_empty.symm⟩

/-- The id of a reference ends at the first point. -/
theorem point_notMem_id {text : String} {ref : Reference} (h : ofText text = .ok ref) :
    '.' ∉ ref.id.toList :=
  (ofText_eq_ok_iff.1 h).point_notMem

/-- Where there is a point in the id, one is left for the anchor. -/
theorem point_mem_of_ofText {id anchor : String} {ref : Reference} (hp : '.' ∈ id.toList)
    (h : ofText (referenceText id anchor) = .ok ref) : '.' ∈ ref.anchor.toList := by
  obtain ⟨-, hid, -, -, after, hafter, htext⟩ := ofText_eq_ok_iff.1 h
  obtain ⟨xs, ys, hxs, hx⟩ := List.eq_append_cons_of_mem hp
  have hlist : xs ++ '.' :: (ys ++ '.' :: anchor.toList) =
      ref.id.toList ++ '.' :: (ref.anchor.toList ++ after.toList) := by
    have := congrArg String.toList htext
    simpa [toList_referenceText, hxs] using this
  -- The id is what stands before the first point, so the last point stands behind it.
  have hanchor := (Expr.eq_of_append_point hx hid hlist).2
  have hmem : '.' ∈ ref.anchor.toList ++ after.toList := hanchor ▸ by simp
  have hnot : '.' ∉ after.toList := by rcases hafter with rfl | rfl <;> decide
  exact (List.mem_append.1 hmem).resolve_right hnot

/-! ## What is taken for a bare reference -/

/-- A text that is just a reference, as it stands in an expression. -/
def Bare (text : String) : Prop :=
  ∃ id anchor, IsId id ∧ IsAnchorName anchor ∧ text = referenceText id anchor

theorem ofText_eq_ok_or (text : String) :
    (∃ ref, ofText text = .ok ref) ∨ ofText text = .error (.invalidReference text) := by
  rw [ofText]
  split
  · split
    · exact .inl ⟨_, rfl⟩
    · exact .inr rfl
  · exact .inr rfl

/-- A text is taken for a bare reference exactly if it is written like one, and
    otherwise it is refused. What it is taken for is all of the text, and what
    an expression reads there, exactly if the text is just a reference or is
    refused; so of the texts that are not just a reference, those that are
    written like one are read in two ways. -/
theorem ofText_bare_iff (text : String) :
    (∀ ref, ofText text = .ok ref ↔ Written text ref) ∧
    (ofText text = .error (.invalidReference text) ↔ ¬ ∃ ref, Written text ref) ∧
    ((∀ ref, ofText text = .ok ref → text = referenceText ref.id ref.anchor ∧
        Expr.parse text = .ok (.ref ref.id ref.anchor : Expr Value)) ↔
      Bare text ∨ ¬ ∃ ref, Written text ref) ∧
    ((¬ Bare text → ofText text = .error (.invalidReference text)) ↔
      Bare text ∨ ¬ ∃ ref, Written text ref) := by
  have hrefused : ofText text = .error (.invalidReference text) ↔ ¬ ∃ ref, Written text ref := by
    constructor
    · rintro herr ⟨ref, href⟩
      rw [ofText_eq_ok_iff.2 href] at herr
      cases herr
    · intro hnone
      refine (ofText_eq_ok_or text).resolve_left fun ⟨ref, href⟩ => ?_
      exact hnone ⟨ref, ofText_eq_ok_iff.1 href⟩
  refine ⟨fun ref => ofText_eq_ok_iff, hrefused, ⟨fun h => ?_, ?_⟩, ?_⟩
  · by_cases href : ∃ ref, Written text ref
    · -- Only with the characters of a reference is a text read as one.
      obtain ⟨ref, href⟩ := href
      obtain ⟨htext, hparse⟩ := h ref (ofText_eq_ok_iff.2 href)
      obtain ⟨hid, ha⟩ := Expr.wellNamed_of_parse hparse
      exact .inl ⟨ref.id, ref.anchor, hid, ha, htext⟩
    · exact .inr href
  · rintro (⟨id, anchor, hid, ha, rfl⟩ | hnone) ref href
    · have hok := ofText_ref hid.ne_empty hid.point_notMem ha.ne_empty ha.line_notMem
      obtain rfl := Except.ok.inj (hok.symm.trans href)
      exact ⟨rfl, Expr.parse_ref hid ha⟩
    · exact absurd ⟨ref, ofText_eq_ok_iff.1 href⟩ hnone
  · rw [hrefused]
    exact or_iff_not_imp_left.symm

/-- A sum is taken for a bare reference, though an expression reads it as a
    sum, and so is a reference with a line feed behind it. -/
theorem ofText_not_bare :
    (ofText "#a.b + 1" = .ok ⟨"a", "b + 1"⟩ ∧
      Expr.parse "#a.b + 1" ≠ .ok (.ref "a" "b + 1" : Expr Value)) ∧
    ofText "#a.b\n" = .ok ⟨"a", "b"⟩ ∧ "#a.b\n" ≠ referenceText "a" "b" := by
  have hscan : Token.scan "#a.b + 1" =
      .ok [⟨.ref "a" "b", 0⟩, ⟨.operator .add, 5⟩, ⟨.number "1", 7⟩] := by cbv
  have hparse : Expr.parse "#a.b + 1" = .ok (.binary .add (.ref "a" "b")
      (.literal (Decimal.ofNumeral ['1']).toFloat) : Expr Value) := by
    rw [Expr.parse, hscan]
    rfl
  refine ⟨⟨by cbv, ?_⟩, by cbv, by decide⟩
  rw [hparse]
  rintro ⟨⟩

end Reference

end AnchorLayout
