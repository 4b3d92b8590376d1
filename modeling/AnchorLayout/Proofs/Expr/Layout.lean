import AnchorLayout.Proofs.Expr.Token

/-!
# How tokens lie in a text

A lexeme that is read stands at the start of the text, and what follows it does
not go it on (`Lexeme.EndsBefore`). So the tokens of a text lie in it one behind
the other with nothing but space around them (`Token.Laid`), and the rows that
are listed for them can be checked against the text (`Token.Describes`).
-/

namespace AnchorLayout

/-- What stops a run of characters of a class is not of the class. -/
theorem not_head_dropWhile {p : Char → Bool} {cs : List Char} :
    ∀ c ∈ (cs.dropWhile p).head?, p c = false := by
  intro c hc
  have h := List.head?_dropWhile_not p cs
  rwa [Option.mem_def.1 hc] at h

namespace Lexeme

/-! ## Where a lexeme ends -/

/-- What is true of a lexeme that is read where `rest` follows it; `sign` tells
    whether a number may begin with a minus sign. No digit follows a number and
    no character of a name follows a reference, and a minus sign that could be
    that of a number is no operation. -/
def EndsBefore (sign : Bool) (rest : List Char) : Lexeme → Prop
  | .number text =>
    (text.toList.head? = some '-' → sign = true) ∧ ∀ c ∈ rest.head?, c.isDigit = false
  | .ref _ _ => ∀ c ∈ rest.head?, isAnchorChar c = false
  | .selfRef _ => ∀ c ∈ rest.head?, isAnchorChar c = false
  | .operator .sub => sign = true → numeral? rest = none
  | _ => True

theorem exists_rest_of_numeral? {cs text : List Char} (h : numeral? cs = some text) :
    ∃ rest, cs = text ++ rest ∧ ∀ c ∈ rest.head?, c.isDigit = false := by
  have hcs := List.takeWhile_append_dropWhile (p := Char.isDigit) (l := cs)
  simp only [numeral?] at h
  split at h
  · next rest hempty hrest =>
    split_ifs at h
    refine ⟨rest.dropWhile Char.isDigit, ?_, not_head_dropWhile⟩
    rw [← Option.some.inj h, List.cons_append, List.takeWhile_append_dropWhile, ← hrest]
    rw [List.isEmpty_iff.1 hempty] at hcs
    exact hcs.symm
  · cases h
  · next rest _ hrest =>
    refine ⟨rest.dropWhile Char.isDigit, ?_, not_head_dropWhile⟩
    rw [← Option.some.inj h, List.append_assoc, List.cons_append,
      List.takeWhile_append_dropWhile, ← hrest, hcs]
  · rw [← Option.some.inj h]
    exact ⟨_, hcs.symm, not_head_dropWhile⟩

/-- A numeral at the start of a text is read, though perhaps not it alone. -/
theorem numeral?_ne_none {ds : List Char} (h : Decimal.Numeral ds) (rest : List Char) :
    numeral? (ds ++ rest) ≠ none := by
  have hdigit : ∀ {c : Char} {cs : List Char}, c.isDigit = true → numeral? (c :: cs) ≠ none := by
    intro c cs hc
    simp only [numeral?, List.takeWhile_cons_of_pos hc, List.isEmpty_cons]
    split <;> simp_all
  rcases h with ⟨hd, hne⟩ | ⟨hd, hne⟩
  · obtain ⟨c, cs, rfl⟩ := List.exists_cons_of_ne_nil hne
    exact hdigit (hd c List.mem_cons_self)
  · rename_i whole fraction
    cases whole with
    | cons c whole => exact hdigit (hd c List.mem_cons_self)
    | nil =>
      obtain ⟨c, cs, rfl⟩ := List.exists_cons_of_ne_nil hne
      have hc : c.isDigit = true := hd c List.mem_cons_self
      simp [numeral?, hc]

theorem exists_rest_of_number? {sign : Bool} {cs text : List Char}
    (h : number? sign cs = some text) :
    ∃ rest, cs = text ++ rest ∧ (text.head? = some '-' → sign = true) ∧
      ∀ c ∈ rest.head?, c.isDigit = false := by
  rw [number?.eq_def] at h
  split at h
  · split_ifs at h with hsign
    obtain ⟨ds, hds, rfl⟩ := Option.map_eq_some_iff.1 h
    obtain ⟨rest, rfl, hr⟩ := exists_rest_of_numeral? hds
    exact ⟨rest, rfl, fun _ => hsign, hr⟩
  · obtain ⟨rest, rfl, hr⟩ := exists_rest_of_numeral? h
    refine ⟨rest, rfl, fun hminus => ?_, hr⟩
    -- A numeral begins with no sign of its own.
    obtain ⟨c, cs', rfl, hc⟩ := (numeral_of_numeral? h).exists_cons
    cases hminus
    exact absurd hc (by decide)

theorem exists_rest_of_readAnchor {after : String} {width : ℕ} {cs : List Char} {anchor : String}
    (h : readAnchor after width cs = .ok anchor) :
    ∃ rest, cs = '.' :: (anchor.toList ++ rest) ∧ ∀ c ∈ rest.head?, isAnchorChar c = false := by
  rw [readAnchor.eq_def] at h
  split at h
  · next cs =>
    split_ifs at h
    refine ⟨cs.dropWhile isAnchorChar, ?_, not_head_dropWhile⟩
    rw [← Except.ok.inj h, String.toList_ofList, List.takeWhile_append_dropWhile]
  · cases h

/-- A lexeme is read from the start of a text and ends where it cannot go on. -/
theorem exists_rest_of_read {sign : Bool} {c : Char} {cs : List Char} {l : Lexeme}
    (h : read sign c cs = .ok l) : ∃ rest, c :: cs = l.chars ++ rest ∧ l.EndsBefore sign rest := by
  rw [read.eq_def] at h
  split at h
  · next text hnum =>
    rw [← Except.ok.inj h]
    obtain ⟨rest, hcs, hsign, hr⟩ := exists_rest_of_number? hnum
    refine ⟨rest, by rw [chars, String.toList_ofList, hcs], ?_, hr⟩
    rwa [String.toList_ofList]
  · next hnum =>
    split at h
    case h_2 =>
      rw [← Except.ok.inj h]
      refine ⟨cs, rfl, fun hsign => ?_⟩
      rw [hsign, number?, if_pos rfl, Option.map_eq_none_iff] at hnum
      exact hnum
    case h_7 =>
      simp only [readRef] at h
      split_ifs at h
      obtain ⟨anchor, ha, rfl⟩ := exists_of_map_eq_ok h
      obtain ⟨rest, hrest, hr⟩ := exists_rest_of_readAnchor ha
      refine ⟨rest, ?_, hr⟩
      rw [chars, String.toList_ofList, List.cons_append, List.append_assoc, List.cons_append,
        ← hrest, List.takeWhile_append_dropWhile]
    case h_8 =>
      rw [readSelfRef] at h
      split_ifs at h with hself
      obtain ⟨anchor, ha, rfl⟩ := exists_of_map_eq_ok h
      obtain ⟨rest, hrest, hr⟩ := exists_rest_of_readAnchor ha
      obtain ⟨cs', hcs'⟩ := List.isPrefixOf_iff_prefix.1 hself
      refine ⟨rest, ?_, hr⟩
      rw [← hcs', List.drop_left] at hrest
      rw [chars, List.append_assoc, List.cons_append, ← hrest, hcs']
    case h_9 => cases h
    all_goals
      rw [← Except.ok.inj h]
      exact ⟨cs, rfl, trivial⟩

/-- A lexeme that is read begins with the first character of the text, and the
    others follow it. -/
theorem exists_chars_of_read {sign : Bool} {c : Char} {cs : List Char} {l : Lexeme}
    (h : read sign c cs = .ok l) :
    ∃ cs' rest, l.chars = c :: cs' ∧ cs = cs' ++ rest ∧ l.EndsBefore sign rest := by
  obtain ⟨rest, hcs, hends⟩ := exists_rest_of_read h
  obtain ⟨c', cs', hl⟩ := List.exists_cons_of_ne_nil (chars_ne_nil (wellFormed_of_read h))
  rw [hl, List.cons_append] at hcs
  obtain ⟨rfl, rfl⟩ := List.cons.inj hcs
  exact ⟨cs', rest, hl, rfl, hends⟩

end Lexeme

namespace Token

/-! ## Where tokens lie -/

/-- The tokens `ts` lie in the text `cs`, before which `pos` characters have
    been read; `sign` tells whether a number may begin with a minus sign. -/
inductive Laid : Bool → ℕ → List Char → List Token → Prop where
  | nil {sign : Bool} {pos : ℕ} : Laid sign pos [] []
  | space {sign : Bool} {pos : ℕ} {c : Char} {cs : List Char} {ts : List Token}
      (space : isSpace c = true) (more : Laid sign (pos + 1) cs ts) : Laid sign pos (c :: cs) ts
  | lexeme {sign : Bool} {pos : ℕ} {l : Lexeme} {rest : List Char} {ts : List Token}
      (wellFormed : l.WellFormed) (ends : l.EndsBefore sign rest)
      (more : Laid l.signMayFollow (pos + l.chars.length) rest ts) :
      Laid sign pos (l.chars ++ rest) (⟨l, pos⟩ :: ts)

theorem laid_of_scanFrom {sign : Bool} {pos : ℕ} {cs : List Char} {ts : List Token}
    (h : scanFrom sign pos cs = .ok ts) : Laid sign pos cs ts := by
  fun_induction scanFrom sign pos cs generalizing ts with
  | case1 =>
    rw [← Except.ok.inj h]
    exact .nil
  | case2 sign pos c cs hspace ih => exact .space hspace (ih h)
  | case3 => cases h
  | case4 sign pos c cs _ l hread width =>
    rename_i ih
    obtain ⟨ts', hts', rfl⟩ := exists_of_map_eq_ok h
    obtain ⟨cs', rest, hl, rfl, hends⟩ := Lexeme.exists_chars_of_read hread
    -- The text goes on behind the characters of the lexeme.
    have hrest : (cs' ++ rest).drop (width - 1) = rest := by simp [width, hl]
    rw [hrest] at hts' ih
    rw [← List.cons_append, ← hl]
    exact .lexeme (Lexeme.wellFormed_of_read hread) hends (ih hts')

/-- Whether a number may begin with a minus sign after some tokens, `sign`
    telling whether it may before them. -/
def signAfter (sign : Bool) (ts : List Token) : Bool :=
  (ts.getLast?.map fun t => t.lexeme.signMayFollow).getD sign

namespace Laid

variable {sign : Bool} {pos : ℕ} {cs : List Char} {ts : List Token}

theorem le_pos (h : Laid sign pos cs ts) : ∀ t ∈ ts, pos ≤ t.pos := by
  induction h with
  | nil => simp
  | space _ _ ih => exact fun t ht => Nat.le_of_succ_le (ih t ht)
  | lexeme _ _ _ ih =>
    intro t ht
    rcases List.mem_cons.1 ht with rfl | ht
    · exact Nat.le_refl _
    · exact (Nat.le_add_right ..).trans (ih t ht)

/-- Each token begins after the one before it has ended. -/
theorem ordered (h : Laid sign pos cs ts) :
    ts.Pairwise fun t t' => t.pos + t.lexeme.chars.length ≤ t'.pos := by
  induction h with
  | nil => exact .nil
  | space _ _ ih => exact ih
  | lexeme _ _ more ih => exact .cons more.le_pos ih

/-- A character that belongs to no token is a space. -/
theorem gap (h : Laid sign pos cs ts) {i : ℕ} {c : Char} (hc : cs[i]? = some c)
    (hout : ∀ t ∈ ts, pos + i < t.pos ∨ t.pos + t.lexeme.chars.length ≤ pos + i) :
    isSpace c = true := by
  induction h generalizing i with
  | nil => cases hc
  | @space sign pos c' cs ts hspace _ ih =>
    cases i with
    | zero =>
      cases hc
      exact hspace
    | succ i =>
      refine ih hc fun t ht => ?_
      have := hout t ht
      omega
  | @lexeme sign pos l rest ts _ _ _ ih =>
    -- The character is not one of the lexeme, so it is one of the rest.
    have hi : l.chars.length ≤ i := by
      have := hout _ List.mem_cons_self
      simp only at this
      omega
    rw [List.getElem?_append_right hi] at hc
    refine ih hc fun t ht => ?_
    have := hout t (List.mem_cons_of_mem _ ht)
    omega

/-- Each token stands in the text where its position says, and ends there. -/
theorem split (h : Laid sign pos cs ts) {before after : List Token} {t : Token}
    (ht : ts = before ++ t :: after) :
    ∃ left rest, cs = left ++ (t.lexeme.chars ++ rest) ∧ t.pos = pos + left.length ∧
      t.lexeme.WellFormed ∧ t.lexeme.EndsBefore (signAfter sign before) rest := by
  induction h generalizing before with
  | nil => simp at ht
  | @space _ _ c _ _ _ _ ih =>
    obtain ⟨left, rest, rfl, hpos, ht⟩ := ih ht
    refine ⟨c :: left, rest, rfl, ?_, ht⟩
    rw [hpos, List.length_cons]
    omega
  | @lexeme sign pos l rest ts hwf hends _ ih =>
    cases before with
    | nil =>
      obtain ⟨rfl, -⟩ := List.cons.inj ht
      exact ⟨[], rest, rfl, rfl, hwf, hends⟩
    | cons t' before =>
      obtain ⟨rfl, hts⟩ := List.cons.inj ht
      obtain ⟨left, rest', rfl, hpos, hwf', hends'⟩ := ih hts
      refine ⟨l.chars ++ left, rest', (List.append_assoc ..).symm, ?_, hwf', ?_⟩
      · rw [hpos, List.length_append]
        omega
      · -- The sign is settled by the last token before, which may be this one.
        cases before with
        | nil => exact hends'
        | cons t'' before => simpa [signAfter, List.getLast?_cons] using hends'

end Laid

/-! ## What is listed -/

namespace Row

/-- The number of characters before the end of a row. -/
def stop (r : Row) : ℕ := r.pos + r.text.length

/-- After these rows a minus sign may belong to a number: there are none, or the
    last of them is an operation or an opening parenthesis. -/
def SignMayFollow (rows : List Row) : Prop :=
  ∀ r ∈ rows.getLast?, r.kind ∈ ["PLUS", "MINUS", "STAR", "SLASH", "LPAREN"]

end Row

/-- The rows are true of the text `cs`, and together they tell all of it but its
    spaces. -/
structure Describes (rows : List Row) (cs : List Char) : Prop where
  /-- Each row has a text, and this is what stands in `cs` at its position. -/
  slice : ∀ r ∈ rows, r.text ≠ "" ∧ r.text.toList <+: cs.drop r.pos
  /-- Each row begins after those before it have ended. -/
  ordered : rows.Pairwise fun r r' => r.stop ≤ r'.pos
  /-- What belongs to no row is space. -/
  gap : ∀ i c, cs[i]? = some c → (∀ r ∈ rows, i < r.pos ∨ r.stop ≤ i) → isSpace c = true
  /-- References end where no character follows that may stand in an anchor
      name. -/
  reference : ∀ r ∈ rows, r.kind = "REF" ∨ r.kind = "SELF_REF" →
    ∀ c, cs[r.stop]? = some c → isAnchorChar c = false
  /-- A number has a sign only where one may follow what stands before it. -/
  sign : ∀ before r after, rows = before ++ r :: after → r.kind = "NUMBER" →
    r.text.toList.head? = some '-' → Row.SignMayFollow before
  /-- There, a minus sign before a numeral is no operation. -/
  minus : ∀ before r after, rows = before ++ r :: after → r.kind = "MINUS" →
    Row.SignMayFollow before → ∀ digits rest, Decimal.Numeral digits →
    cs.drop r.stop ≠ digits ++ rest

@[simp] theorem length_text_row (t : Token) : t.row.text.length = t.lexeme.chars.length := by
  simp [row, Lexeme.text]

@[simp] theorem toList_text_row (t : Token) : t.row.text.toList = t.lexeme.chars := by
  simp [row, Lexeme.text]

theorem signMayFollow_iff {ts : List Token} :
    Row.SignMayFollow (ts.map row) ↔ signAfter true ts = true := by
  rw [Row.SignMayFollow, List.getLast?_map, signAfter]
  cases ts.getLast? with
  | none => simp
  | some t =>
    rcases ht : t.lexeme with _ | _ | _ | op | _ | _ <;> try cases op
    all_goals simp [row, ht, Lexeme.kind, Lexeme.signMayFollow]

/-- Each row is that of a lexeme which stands in the text. -/
theorem Laid.split_row {cs : List Char} {ts : List Token} (h : Laid true 0 cs ts)
    {before after : List Row} {r : Row} (hr : ts.map row = before ++ r :: after) :
    ∃ l left rest sign, r = row ⟨l, left.length⟩ ∧ cs = left ++ (l.chars ++ rest) ∧
      l.WellFormed ∧ l.EndsBefore sign rest ∧ (Row.SignMayFollow before ↔ sign = true) := by
  obtain ⟨ts₁, ts', rfl, rfl, hts'⟩ := List.map_eq_append_iff.1 hr
  obtain ⟨⟨l, pos⟩, ts₂, rfl, rfl, rfl⟩ := List.map_eq_cons_iff.1 hts'
  obtain ⟨left, rest, hcs, hpos, hwf, hends⟩ := h.split rfl
  rw [Nat.zero_add] at hpos
  exact ⟨l, left, rest, _, by rw [← hpos], hcs, hwf, hends, signMayFollow_iff⟩

theorem describes_of_laid {cs : List Char} {ts : List Token} (h : Laid true 0 cs ts) :
    Describes (ts.map row) cs where
  slice r hr := by
    obtain ⟨before, after, hrows⟩ := List.append_of_mem hr
    obtain ⟨l, left, rest, sign, rfl, rfl, hwf, -⟩ := h.split_row hrows
    refine ⟨fun hempty => Lexeme.chars_ne_nil hwf ?_, ?_⟩
    · rw [← toList_text_row ⟨l, left.length⟩, hempty]
      rfl
    · rw [toList_text_row, row, List.drop_left]
      exact List.prefix_append ..
  ordered := by
    rw [List.pairwise_map]
    refine h.ordered.imp fun hle => ?_
    rwa [Row.stop, length_text_row]
  gap i c hc hout := by
    refine h.gap hc fun t ht => ?_
    have := hout t.row (List.mem_map_of_mem ht)
    rw [Row.stop, length_text_row] at this
    rwa [Nat.zero_add]
  reference r hr hkind c hc := by
    obtain ⟨before, after, hrows⟩ := List.append_of_mem hr
    obtain ⟨l, left, rest, sign, rfl, rfl, -, hends, -⟩ := h.split_row hrows
    have hc' : c ∈ rest.head? := by
      rw [Row.stop, length_text_row, row, ← List.append_assoc, ← List.length_append,
        List.getElem?_append_right (Nat.le_refl _), Nat.sub_self] at hc
      rwa [List.head?_eq_getElem?]
    cases l with
    | ref | selfRef => exact hends c hc'
    | operator op => cases op <;> simp [row, Lexeme.kind] at hkind
    | _ => simp [row, Lexeme.kind] at hkind
  sign before r after hrows hkind hminus := by
    obtain ⟨l, left, rest, sign, rfl, -, -, hends, hsign⟩ := h.split_row hrows
    rw [toList_text_row] at hminus
    cases l with
    | number text => exact hsign.2 (hends.1 hminus)
    | operator op => cases op <;> simp [row, Lexeme.kind] at hkind
    | _ => simp [row, Lexeme.kind] at hkind
  minus before r after hrows hkind hfollow ds rest' hds hrest := by
    obtain ⟨l, left, rest, sign, rfl, rfl, -, hends, hsign⟩ := h.split_row hrows
    rw [Row.stop, length_text_row, row, ← List.append_assoc, ← List.length_append,
      List.drop_left] at hrest
    cases l with
    | operator op =>
      cases op with
      | sub => exact Lexeme.numeral?_ne_none hds rest' (hrest ▸ hends (hsign.1 hfollow))
      | _ => simp [row, Lexeme.kind] at hkind
    | _ => simp [row, Lexeme.kind] at hkind

end Token

end AnchorLayout
