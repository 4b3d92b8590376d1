import AnchorLayout.Proofs.Expr.Layout

/-!
# The texts that are cut into tokens

A text has tokens if it can be put together from pieces: spaces, symbols,
numerals and references (`Piece`). The lexemes are not simply these pieces,
since each is read as far as it goes: a reference takes in a minus sign and
digits that follow it, and so does a numeral with digits behind a point. What
is left behind a reference can still be put together (`Cut.dropWhile`), and so
can what is left behind a numeral, provided that no piece was a numeral with a
digit right after it (`Cut.after_numeral`). Under this condition the two agree
(`listing_iff_pieces`); without it they do not (`not_listing_iff_any_pieces`).
-/

namespace AnchorLayout

namespace Token

/-! ## Pieces -/

/-- The pieces that a text may be put together from. -/
inductive Piece : List Char → Prop where
  | space {c : Char} (space : isSpace c = true) : Piece [c]
  | operator (op : Operator) : Piece [op.symbol]
  | opening : Piece ['(']
  | closing : Piece [')']
  | numeral {cs : List Char} (numeral : Decimal.Numeral cs) : Piece cs
  | ref {id anchor : String} (isId : IsId id) (isName : IsAnchorName anchor) :
      Piece ('#' :: (id.toList ++ '.' :: anchor.toList))
  | selfRef {anchor : String} (isName : IsAnchorName anchor) :
      Piece (selfWord ++ '.' :: anchor.toList)

/-- No numeral among the pieces has a digit right after it. -/
def NumeralsEnd (pieces : List (List Char)) : Prop :=
  ∀ before p after, pieces = before ++ p :: after → Decimal.Numeral p →
    ∀ c ∈ after.flatten.head?, c.isDigit = false

/-- The text can be put together from pieces of which no numeral has a digit
    right after it. -/
inductive Cut : List Char → Prop where
  | nil : Cut []
  | cons {p rest : List Char} (piece : Piece p)
      (ends : Decimal.Numeral p → ∀ c ∈ rest.head?, c.isDigit = false) (more : Cut rest) :
      Cut (p ++ rest)

theorem cut_iff {cs : List Char} :
    Cut cs ↔ ∃ pieces : List (List Char),
      (∀ p ∈ pieces, Piece p) ∧ NumeralsEnd pieces ∧ pieces.flatten = cs := by
  constructor
  · intro h
    induction h with
    | nil => exact ⟨[], by simp, fun before p after h => by simp at h, rfl⟩
    | @cons p rest hp hends _ ih =>
      obtain ⟨pieces, hpieces, hnum, rfl⟩ := ih
      refine ⟨p :: pieces, List.forall_mem_cons.2 ⟨hp, hpieces⟩, fun before q after h => ?_, rfl⟩
      cases before with
      | nil =>
        obtain ⟨rfl, rfl⟩ := List.cons.inj h
        exact hends
      | cons p' before => exact hnum before q after (List.cons.inj h).2
  · rintro ⟨pieces, hpieces, hnum, rfl⟩
    induction pieces with
    | nil => exact .nil
    | cons p pieces ih =>
      obtain ⟨hp, hpieces⟩ := List.forall_mem_cons.1 hpieces
      refine .cons hp (hnum [] p pieces rfl) (ih hpieces fun before q after h => ?_)
      exact hnum (p :: before) q after (by rw [h]; rfl)

/-! ## How pieces begin -/

theorem isAnchorChar_of_mem_numeral {cs : List Char} (h : Decimal.Numeral cs) :
    ∀ c ∈ cs, isAnchorChar c = true := by
  intro c hc
  rcases h.mem hc with hd | rfl
  · simp [isAnchorChar, isIdChar, Char.isAlphanum, hd]
  · rfl

theorem not_numeral {c : Char} {cs : List Char} (hd : c.isDigit = false) (hp : c ≠ '.') :
    ¬ Decimal.Numeral (c :: cs) := by
  intro h
  obtain ⟨c', cs', heq, hc⟩ := h.exists_cons
  obtain ⟨rfl, -⟩ := List.cons.inj heq
  simp [hd, hp] at hc

/-- A piece is a numeral or a minus sign, or it begins with a character that no
    name has. -/
theorem Piece.begins {p : List Char} (h : Piece p) :
    Decimal.Numeral p ∨ p = ['-'] ∨ ∃ c cs, p = c :: cs ∧ isAnchorChar c = false := by
  cases h with
  | numeral h => exact .inl h
  | space h => exact .inr (.inr ⟨_, [], rfl, not_isAnchorChar_of_isSpace h⟩)
  | operator op =>
    cases op with
    | sub => exact .inr (.inl rfl)
    | add | mul | div => exact .inr (.inr ⟨_, [], rfl, rfl⟩)
  | opening | closing | ref | selfRef => exact .inr (.inr ⟨_, _, rfl, rfl⟩)

/-! ## What is cut into tokens is put together from pieces -/

/-- A piece that begins like no numeral does not depend on what follows it. -/
theorem Cut.symbol {c : Char} {cs rest : List Char} (hp : Piece (c :: cs))
    (hd : c.isDigit = false) (hpoint : c ≠ '.') (h : Cut rest) : Cut (c :: cs ++ rest) :=
  .cons hp (fun hn => absurd hn (not_numeral hd hpoint)) h

theorem cut_of_laid {sign : Bool} {pos : ℕ} {cs : List Char} {ts : List Token}
    (h : Laid sign pos cs ts) : Cut cs := by
  induction h with
  | nil => exact .nil
  | space hspace _ ih =>
    obtain ⟨hd, hpoint⟩ := not_isAnchorChar (not_isAnchorChar_of_isSpace hspace)
    exact .symbol (.space hspace) hd hpoint ih
  | @lexeme sign pos l rest ts hwf hends _ ih =>
    cases l with
    | number text =>
      obtain ⟨negative, ds, hds, rfl⟩ := hwf
      have hcut := Cut.cons (.numeral hds) (fun _ => hends.2) ih
      rw [Lexeme.chars, Decimal.toList_signed]
      split_ifs
      · exact @Cut.symbol '-' [] _ (.operator .sub) rfl (by decide) hcut
      · exact hcut
    | ref id anchor => exact .symbol (.ref hwf.1 hwf.2) rfl (by decide) ih
    | selfRef anchor => exact .symbol (.selfRef hwf) rfl (by decide) ih
    | operator op => cases op <;> exact .symbol (.operator _) rfl (by decide) ih
    | opening => exact .symbol .opening rfl (by decide) ih
    | closing => exact .symbol .closing rfl (by decide) ih

/-! ## What is put together from pieces is cut into tokens -/

/-- A point at the start of a text belongs to a numeral. -/
theorem Cut.point {cs : List Char} (h : Cut ('.' :: cs)) :
    ∃ fraction rest, cs = fraction ++ rest ∧ Decimal.AllDigits fraction ∧
      (∀ c ∈ rest.head?, c.isDigit = false) ∧ Cut rest := by
  generalize htext : '.' :: cs = text at h
  cases h with
  | nil => cases htext
  | @cons p rest hp hends hmore =>
    rcases hp.begins with hnum | rfl | ⟨c, cs', rfl, hc⟩
    · have hr := hends hnum
      rcases hnum with ⟨hd, hne⟩ | @⟨whole, fraction, hd, hne⟩
      · obtain ⟨c, cs', rfl⟩ := List.exists_cons_of_ne_nil hne
        cases htext
        exact absurd (hd '.' List.mem_cons_self) (by decide)
      · cases whole with
        | nil =>
          cases htext
          exact ⟨fraction, rest, rfl, hd, hr, hmore⟩
        | cons c whole =>
          cases htext
          exact absurd (hd '.' List.mem_cons_self) (by decide)
    · cases htext
    · cases htext
      exact absurd rfl (not_isAnchorChar hc).2

/-- What is left behind a numeral that is read can be put together from pieces.
    The numeral is that of the first piece, or takes in the second one too. -/
theorem Cut.after_numeral {cs ds : List Char} (h : Cut cs) (hds : Lexeme.numeral? cs = some ds) :
    ∃ rest, cs = ds ++ rest ∧ Cut rest := by
  cases h with
  | nil => cases hds
  | @cons p rest hp hends hmore =>
    rcases hp.begins with hnum | rfl | ⟨c, cs', rfl, hc⟩
    · have hr := hends hnum
      rcases hnum with ⟨hd, hne⟩ | @⟨whole, fraction, hd, hne⟩
      · by_cases hpoint : ∃ cs', rest = '.' :: cs'
        · obtain ⟨cs', rfl⟩ := hpoint
          obtain ⟨fraction, rest', rfl, hf, hr', hcut⟩ := hmore.point
          have hne' : p ++ fraction ≠ [] := fun hnil => hne (List.append_eq_nil_iff.1 hnil).1
          rw [Lexeme.numeral?_fractional (hd.append hf) hne' hr'] at hds
          exact ⟨rest', by rw [← Option.some.inj hds]; simp, hcut⟩
        · have hr' : ∀ c ∈ rest.head?, c.isDigit = false ∧ c ≠ '.' := by
            refine fun c hc => ⟨hr c hc, ?_⟩
            rintro rfl
            exact hpoint (List.head?_eq_some_iff.1 hc)
          rw [Lexeme.numeral?_integer hd hne hr'] at hds
          exact ⟨rest, by rw [← Option.some.inj hds], hmore⟩
      · rw [List.append_assoc, List.cons_append, Lexeme.numeral?_fractional hd hne hr] at hds
        exact ⟨rest, by rw [← Option.some.inj hds, List.append_assoc, List.cons_append], hmore⟩
    · rw [List.singleton_append, Lexeme.numeral?_symbol rfl (by decide)] at hds
      cases hds
    · obtain ⟨hd, hpoint⟩ := not_isAnchorChar hc
      rw [List.cons_append, Lexeme.numeral?_symbol hd hpoint] at hds
      cases hds

/-- What is left behind the characters of a name can be put together from
    pieces, since a piece that begins with such a character has no others. -/
theorem Cut.dropWhile {cs : List Char} (h : Cut cs) : Cut (cs.dropWhile isAnchorChar) := by
  induction h with
  | nil => exact .nil
  | @cons p rest hp hends hmore ih =>
    rcases hp.begins with hnum | rfl | ⟨c, cs', rfl, hc⟩
    · rwa [List.dropWhile_append_of_pos (isAnchorChar_of_mem_numeral hnum)]
    · exact ih
    · rw [List.cons_append, List.dropWhile_cons_of_neg (by simp [hc])]
      exact .cons hp hends hmore

/-- A space or the symbol of an operation is a piece by itself. -/
theorem Cut.tail {c : Char} {cs : List Char} (h : Cut (c :: cs)) (hd : c.isDigit = false)
    (hpoint : c ≠ '.') (href : c ≠ '#') (hself : c ≠ '$') : Cut cs := by
  generalize htext : c :: cs = text at h
  cases h with
  | nil => cases htext
  | @cons p rest hp _ hmore =>
    cases hp with
    | numeral hnum =>
      obtain ⟨c', cs', rfl, -⟩ := hnum.exists_cons
      cases htext
      exact absurd hnum (not_numeral hd hpoint)
    | ref =>
      cases htext
      exact absurd rfl href
    | selfRef =>
      cases htext
      exact absurd rfl hself
    | _ =>
      cases htext
      exact hmore

/-- The characters of a name that follow an anchor name go it on. -/
theorem exists_anchorName {anchor : String} (h : IsAnchorName anchor) (rest : List Char) :
    ∃ anchor', IsAnchorName anchor' ∧
      anchor.toList ++ rest = anchor'.toList ++ rest.dropWhile isAnchorChar := by
  obtain ⟨⟨c, hc, hid⟩, hall⟩ := h
  refine ⟨String.ofList (anchor.toList ++ rest.takeWhile isAnchorChar), ⟨?_, fun d hd => ?_⟩, ?_⟩
  · obtain ⟨cs, hcs⟩ := List.head?_eq_some_iff.1 hc
    exact ⟨c, by rw [String.toList_ofList, hcs]; rfl, hid⟩
  · rw [String.toList_ofList] at hd
    exact (List.mem_append.1 hd).elim (hall d) fun hd => List.mem_takeWhile_imp hd
  · rw [String.toList_ofList, List.append_assoc, List.takeWhile_append_dropWhile]

/-- Where a text goes on that can be put together from pieces, a lexeme is read,
    and what is left behind it can be put together too. -/
theorem Cut.exists_read {c : Char} {cs : List Char} (h : Cut (c :: cs)) (hc : isSpace c = false)
    (sign : Bool) :
    ∃ l rest, Lexeme.read sign c cs = .ok l ∧ c :: cs = l.chars ++ rest ∧ Cut rest := by
  cases hnum : Lexeme.number? sign (c :: cs) with
  | some text =>
    -- The number is a numeral, or a minus sign with the numeral after it.
    suffices hrest : ∃ rest, c :: cs = text ++ rest ∧ Cut rest by
      obtain ⟨rest, htext, hrest⟩ := hrest
      refine ⟨_, rest, Lexeme.read_of_number? hnum, ?_, hrest⟩
      rw [Lexeme.chars, String.toList_ofList, htext]
    rw [Lexeme.number?.eq_def] at hnum
    split at hnum
    · next heq =>
      obtain ⟨rfl, rfl⟩ := List.cons.inj heq
      split_ifs at hnum
      obtain ⟨ds, hds, rfl⟩ := Option.map_eq_some_iff.1 hnum
      obtain ⟨rest, rfl, hrest⟩ :=
        (h.tail rfl (by decide) (by decide) (by decide)).after_numeral hds
      exact ⟨rest, rfl, hrest⟩
    · exact h.after_numeral hnum
  | none =>
    -- The first piece is read, as far as it goes.
    generalize htext : c :: cs = text at h
    cases h with
    | nil => cases htext
    | @cons p rest hp _ hmore =>
      cases hp with
      | space hspace =>
        cases htext
        rw [hc] at hspace
        cases hspace
      | numeral hds =>
        have hne := Lexeme.numeral?_ne_none hds rest
        obtain ⟨c', cs', rfl, hc'⟩ := hds.exists_cons
        cases htext
        rw [Lexeme.number?.eq_def] at hnum
        split at hnum
        · next heq =>
          obtain ⟨rfl, -⟩ := List.cons.inj heq
          exact absurd hc' (by decide)
        · exact absurd hnum hne
      | operator op =>
        cases htext
        refine ⟨.operator op, rest, ?_, rfl, hmore⟩
        rw [Lexeme.read.eq_def, hnum]
        cases op <;> rfl
      | opening =>
        cases htext
        exact ⟨.opening, rest, by rw [Lexeme.read.eq_def, hnum]; rfl, rfl, hmore⟩
      | closing =>
        cases htext
        exact ⟨.closing, rest, by rw [Lexeme.read.eq_def, hnum]; rfl, rfl, hmore⟩
      | @ref id anchor hid hname =>
        cases htext
        obtain ⟨anchor', hname', hrest⟩ := exists_anchorName hname rest
        have happ : (id.toList ++ '.' :: anchor.toList) ++ rest =
            id.toList ++ '.' :: (anchor'.toList ++ rest.dropWhile isAnchorChar) := by
          rw [List.append_assoc, List.cons_append, hrest]
        rw [List.append_eq, happ] at hnum ⊢
        refine ⟨.ref id anchor', rest.dropWhile isAnchorChar, ?_, ?_, hmore.dropWhile⟩
        · rw [Lexeme.read.eq_def, hnum]
          exact Lexeme.readRef_append hid hname' not_head_dropWhile
        · rw [List.cons_append, happ, Lexeme.chars, List.cons_append, List.append_assoc,
            List.cons_append]
      | @selfRef anchor hname =>
        cases htext
        obtain ⟨anchor', hname', hrest⟩ := exists_anchorName hname rest
        refine ⟨.selfRef anchor', rest.dropWhile isAnchorChar, ?_, ?_, hmore.dropWhile⟩
        · rw [Lexeme.read.eq_def, hnum]
          show Lexeme.readSelfRef (selfWord ++ '.' :: (anchor.toList ++ rest)) = _
          rw [hrest]
          exact Lexeme.readSelfRef_append hname' not_head_dropWhile
        · show selfWord ++ '.' :: (anchor.toList ++ rest) = _
          rw [hrest, Lexeme.chars, List.append_assoc, List.cons_append]

theorem exists_scanFrom {cs : List Char} (h : Cut cs) (sign : Bool) (pos : ℕ) :
    ∃ ts, scanFrom sign pos cs = .ok ts := by
  induction hlen : cs.length using Nat.strong_induction_on generalizing cs sign pos with
  | _ n ih =>
    subst hlen
    cases cs with
    | nil => exact ⟨[], by rw [scanFrom]⟩
    | cons c cs =>
      by_cases hc : isSpace c = true
      · obtain ⟨hd, hpoint⟩ := not_isAnchorChar (not_isAnchorChar_of_isSpace hc)
        rw [scanFrom, if_pos hc]
        refine ih cs.length (by simp) (h.tail hd hpoint ?_ ?_) _ _ rfl <;> rintro rfl <;> cases hc
      · rw [Bool.not_eq_true] at hc
        obtain ⟨l, rest, hread, hcs, hrest⟩ := h.exists_read hc sign
        obtain ⟨cs', -, hl, -, -⟩ := Lexeme.exists_chars_of_read hread
        rw [hl, List.cons_append] at hcs
        obtain ⟨-, rfl⟩ := List.cons.inj hcs
        obtain ⟨ts, pos', -, hts⟩ := scansTo_lexeme hl hc hread pos
        obtain ⟨ts', hts'⟩ := ih rest.length (by simp) hrest l.signMayFollow pos' rfl
        refine ⟨ts ++ ts', ?_⟩
        rw [← List.cons_append, ← hl, hts, hts']
        rfl

/-! ## The texts that are listed -/

theorem listing_eq_ok_iff {text : String} {rows : List Row} :
    listing text = .ok rows ↔ ∃ ts, scan text = .ok ts ∧ ts.map row ++ [endRow text] = rows := by
  cases h : scan text with
  | error e =>
    rw [listing, h]
    simp [bind, Except.bind]
  | ok ts =>
    rw [listing, h]
    simp [bind, Except.bind, pure, Except.pure]

theorem exists_scan_iff {text : String} : (∃ ts, scan text = .ok ts) ↔ Cut text.toList :=
  ⟨fun ⟨_, h⟩ => cut_of_laid (laid_of_scanFrom h), fun h => exists_scanFrom h true 0⟩

/-- The rows of a text can be listed exactly if the text can be put together
    from pieces of which no numeral has a digit right after it. The row of the
    end stands last and no other is of its kind, and those before it tell all
    of the text but its spaces. -/
theorem listing_iff_pieces (text : String) :
    ((∃ rows, listing text = .ok rows) ↔
      ∃ pieces : List (List Char), (∀ p ∈ pieces, Piece p) ∧ NumeralsEnd pieces ∧
        pieces.flatten = text.toList) ∧
    ∀ rows, listing text = .ok rows → ∃ tokens, rows = tokens ++ [⟨"EOF", "", text.length⟩] ∧
      (∀ r ∈ tokens, r.kind ≠ "EOF") ∧ Describes tokens text.toList := by
  constructor
  · rw [← cut_iff, ← exists_scan_iff]
    constructor
    · rintro ⟨rows, h⟩
      obtain ⟨ts, hts, -⟩ := listing_eq_ok_iff.1 h
      exact ⟨ts, hts⟩
    · rintro ⟨ts, hts⟩
      exact ⟨_, listing_eq_ok_iff.2 ⟨ts, hts, rfl⟩⟩
  · intro rows h
    obtain ⟨ts, hts, rfl⟩ := listing_eq_ok_iff.1 h
    refine ⟨ts.map row, rfl, fun r hr => ?_, describes_of_laid (laid_of_scanFrom hts)⟩
    obtain ⟨t, -, rfl⟩ := List.mem_map.1 hr
    rcases hl : t.lexeme with _ | _ | _ | op | _ | _ <;> try cases op
    all_goals simp [row, hl, Lexeme.kind]

/-- The condition on numerals is needed: `1.5.` is made of the numerals `1.` and
    `5.`, but the digit is read as one of the first, and the second point begins
    no numeral. -/
theorem not_listing_iff_any_pieces :
    ¬ ((∃ rows, listing "1.5." = .ok rows) ↔
      ∃ pieces : List (List Char), (∀ p ∈ pieces, Piece p) ∧
        pieces.flatten = "1.5.".toList) := by
  intro h
  have hone : Decimal.Numeral ['1', '.'] :=
    @Decimal.Numeral.fractional ['1'] [] (by simp [Decimal.AllDigits]) (by simp)
  have hfive : Decimal.Numeral ['5', '.'] :=
    @Decimal.Numeral.fractional ['5'] [] (by simp [Decimal.AllDigits]) (by simp)
  obtain ⟨rows, hrows⟩ := h.2 ⟨[['1', '.'], ['5', '.']], by simp [Piece.numeral, hone, hfive], rfl⟩
  have herr : listing "1.5." = .error ⟨3, .unexpectedCharacter '.'⟩ := by cbv
  rw [herr] at hrows
  cases hrows

end Token

end AnchorLayout
