import AnchorLayout.Proofs.Expr.Parser
import AnchorLayout.Proofs.Expr.Pieces

/-!
# Spaces around lexemes

A text with tokens is a row of lexemes with spaces around them (`Spaced`). What
it is cut into is settled by the order of the lexemes and by which of them
touch: of two that touch, the second must not begin with a character that might
go on the first one (`Lexeme.GoesOn`, `Spaced.Parted`). How much space there is
elsewhere is no matter (`Spaced.scansTo_append`), so a text keeps its lexemes
where more space is put between its tokens, and where all of them are set one
space apart (`Token.scan_widened`).
-/

namespace AnchorLayout

namespace Lexeme

/-! ## Lexemes that touch -/

theorem number?_of_read {sign : Bool} {c : Char} {cs : List Char} {text : String}
    (h : read sign c cs = .ok (.number text)) : number? sign (c :: cs) = some text.toList := by
  rw [read.eq_def] at h
  split at h
  · next text' hnum =>
    cases h
    rw [hnum, String.toList_ofList]
  · split at h
    case h_7 =>
      simp only [readRef] at h
      split_ifs at h
      obtain ⟨_, -, ⟨⟩⟩ := exists_of_map_eq_ok h
    case h_8 =>
      rw [readSelfRef] at h
      split_ifs at h
      obtain ⟨_, -, ⟨⟩⟩ := exists_of_map_eq_ok h
    all_goals cases h

/-- A number that has no point would be read on if one followed it. -/
theorem point_mem_of_read {sign : Bool} {c : Char} {cs rest : List Char} {text : String}
    (h : read sign c cs = .ok (.number text)) (hcs : c :: cs = text.toList ++ '.' :: rest) :
    '.' ∈ text.toList := by
  have hnum := number?_of_read h
  obtain ⟨negative, ds, hds, rfl⟩ := wellFormed_of_read h
  by_contra hpoint
  rw [Decimal.mem_toList_signed (by decide)] at hpoint
  have hd : Decimal.AllDigits ds := fun d hd =>
    (hds.mem hd).resolve_right fun hp => hpoint (hp ▸ hd)
  have hne : ds ≠ [] := by
    rintro rfl
    obtain ⟨_, _, ⟨⟩, -⟩ := hds.exists_cons
  -- The digits, the point and the digits behind
  -- it are a numeral, which is what is read.
  have hf : Decimal.AllDigits (rest.takeWhile Char.isDigit) := fun d hd => List.mem_takeWhile_imp hd
  have hlong : Decimal.Numeral (ds ++ '.' :: rest.takeWhile Char.isDigit) :=
    .fractional (hd.append hf) fun hnil => hne (List.append_eq_nil_iff.1 hnil).1
  have hsign : negative = true → sign = true := by
    rintro rfl
    obtain ⟨-, -, hs, -⟩ := exists_rest_of_number? hnum
    exact hs (by simp)
  have hend : ∀ d ∈ (rest.dropWhile Char.isDigit).head?, d.isDigit = false := not_head_dropWhile
  have hread := number?_append hlong hsign fun d hd => ⟨hend d hd, fun _ => by simp⟩
  have happ : (Decimal.signed negative (ds ++ '.' :: rest.takeWhile Char.isDigit)).toList ++
      rest.dropWhile Char.isDigit = c :: cs := by
    rw [hcs, Decimal.toList_signed, Decimal.toList_signed]
    split_ifs <;> simp
  rw [happ, hnum, Option.some_inj] at hread
  have hmem : '.' ∈ (Decimal.signed negative (ds ++ '.' :: rest.takeWhile Char.isDigit)).toList :=
    (Decimal.mem_toList_signed (by decide)).2 (by simp)
  rw [← hread, Decimal.mem_toList_signed (by decide)] at hmem
  exact hpoint hmem

/-- What stands behind a lexeme that is read does not go it on, unless it
    begins with a point that begins no numeral. -/
theorem not_goesOn_of_read {sign : Bool} {c : Char} {cs rest : List Char} {l : Lexeme}
    (h : read sign c cs = .ok l) (hcs : c :: cs = l.chars ++ rest)
    (hrest : ∀ cs', rest = '.' :: cs' → numeral? rest ≠ none) :
    l.MayStand sign ∧ ∀ d ∈ rest.head?, ¬ l.GoesOn sign d := by
  obtain ⟨rest', hcs', hends⟩ := exists_rest_of_read h
  obtain rfl : rest = rest' := List.append_cancel_left (hcs.symm.trans hcs')
  cases l with
  | number text =>
    refine ⟨hends.1, fun d hd => ?_⟩
    rintro (hdigit | ⟨rfl, hpoint⟩)
    · rw [hends.2 d hd] at hdigit
      cases hdigit
    · obtain ⟨rest, rfl⟩ := List.head?_eq_some_iff.1 hd
      exact hpoint (point_mem_of_read h hcs)
  | ref | selfRef => exact ⟨trivial, fun d hd => Bool.eq_false_iff.1 (hends d hd)⟩
  | operator op =>
    refine ⟨trivial, fun d hd => ?_⟩
    cases op with
    | sub =>
      rintro ⟨hsign, hdigit | rfl⟩
      · obtain ⟨rest, rfl⟩ := List.head?_eq_some_iff.1 hd
        have hnum : Decimal.Numeral [d] := .integer (by simpa [Decimal.AllDigits]) (by simp)
        exact numeral?_ne_none hnum rest (hends hsign)
      · obtain ⟨rest, rfl⟩ := List.head?_eq_some_iff.1 hd
        exact hrest rest rfl (hends hsign)
    | add | mul | div => exact id
  | opening | closing => exact ⟨trivial, fun _ _ => id⟩

end Lexeme

/-! ## Rows of lexemes -/

/-- A text as a row of lexemes, with what stands around them. -/
inductive Spaced where
  /-- The end, with what stands before it. -/
  | last (gap : List Char)
  /-- A lexeme with what stands before it, and the row behind it. -/
  | before (gap : List Char) (l : Lexeme) (more : Spaced)

namespace Spaced

open Token

/-- The characters of the text. -/
def chars : Spaced → List Char
  | .last gap => gap
  | .before gap l more => gap ++ (l.chars ++ more.chars)

/-- The lexemes of the row. -/
def lexemes : Spaced → List Lexeme
  | .last _ => []
  | .before _ l more => l :: more.lexemes

/-- What stands before the lexemes, and at the end. -/
def gaps : Spaced → List (List Char)
  | .last gap => [gap]
  | .before gap _ more => gap :: more.gaps

/-- Nothing but spaces stands around the lexemes. -/
def OnlySpaces (s : Spaced) : Prop := ∀ gap ∈ s.gaps, ∀ c ∈ gap, isSpace c = true

/-- The first character of the first lexeme, if nothing stands before it. -/
def touching : Spaced → Option Char
  | .before [] l _ => l.chars.head?
  | _ => none

/-- Every lexeme may stand in its place, and none is gone on by one that
    touches it. `sign` tells whether a number may begin with a minus sign at
    the start. -/
def Parted : Bool → Spaced → Prop
  | _, .last _ => True
  | sign, .before _ l more => l.WellFormed ∧ l.MayStand sign ∧
      (∀ c ∈ more.touching, ¬ l.GoesOn sign c) ∧ more.Parted l.signMayFollow

/-- The tokens `ts` in the text `cs`, before which `pos` characters stand, as a
    row. -/
def ofTokens (pos : ℕ) (cs : List Char) : List Token → Spaced
  | [] => .last cs
  | t :: ts => .before (cs.take (t.pos - pos)) t.lexeme
      (ofTokens (t.pos + t.lexeme.chars.length)
        (cs.drop (t.pos - pos + t.lexeme.chars.length)) ts)

/-- The row `s` is the text `cs`, cut into the lexemes `ls`. -/
structure Sets (sign : Bool) (cs : List Char) (ls : List Lexeme) (s : Spaced) : Prop where
  chars : s.chars = cs
  lexemes : s.lexemes = ls
  onlySpaces : s.OnlySpaces
  parted : s.Parted sign

/-! ## Texts that are rows -/

/-- A row with a further character before it. -/
def prepend (c : Char) : Spaced → Spaced
  | .last gap => .last (c :: gap)
  | .before gap l more => .before (c :: gap) l more

theorem Sets.prepend {sign : Bool} {c : Char} {cs : List Char} {ls : List Lexeme} {s : Spaced}
    (h : s.Sets sign cs ls) (hc : isSpace c = true) : (s.prepend c).Sets sign (c :: cs) ls := by
  obtain ⟨rfl, rfl, hspaces, hparted⟩ := h
  cases s with
  | last gap =>
    refine ⟨rfl, rfl, ?_, trivial⟩
    simpa [OnlySpaces, Spaced.prepend, gaps, hc] using hspaces
  | before gap l more =>
    refine ⟨rfl, rfl, ?_, hparted⟩
    simpa [OnlySpaces, Spaced.prepend, gaps, hc] using hspaces

theorem ofTokens_cons {pos : ℕ} {c : Char} {cs : List Char} {ts : List Token}
    (h : ∀ t ∈ ts, pos + 1 ≤ t.pos) :
    ofTokens pos (c :: cs) ts = (ofTokens (pos + 1) cs ts).prepend c := by
  cases ts with
  | nil => rfl
  | cons t ts =>
    obtain ⟨k, hk⟩ := Nat.exists_eq_add_of_le (h t List.mem_cons_self)
    have hpos : t.pos - pos = k + 1 := by omega
    have hpos' : t.pos - (pos + 1) = k := by omega
    rw [ofTokens, ofTokens, hpos, hpos', Nat.add_right_comm]
    rfl

theorem mem_head?_of_touching {s : Spaced} {c : Char} (h : c ∈ s.touching) : c ∈ s.chars.head? := by
  rw [touching.eq_def] at h
  split at h
  · obtain ⟨cs, hcs⟩ := List.head?_eq_some_iff.1 h
    rw [chars, hcs]
    rfl
  · cases h

/-- A point with which a text with tokens begins is that of a numeral. -/
theorem numeral?_ne_none_of_scanFrom {sign : Bool} {pos : ℕ} {cs : List Char} {ts : List Token}
    (h : scanFrom sign pos ('.' :: cs) = .ok ts) : Lexeme.numeral? ('.' :: cs) ≠ none := by
  intro hnone
  have hnum : Lexeme.number? sign ('.' :: cs) = none := hnone
  rw [scanFrom, if_neg (by decide), Lexeme.read.eq_def, hnum] at h
  cases h

/-- A text with tokens is the row of these. -/
theorem sets_ofTokens {sign : Bool} {pos : ℕ} {cs : List Char} {ts : List Token}
    (h : scanFrom sign pos cs = .ok ts) : (ofTokens pos cs ts).Sets sign cs (ts.map lexeme) := by
  fun_induction scanFrom sign pos cs generalizing ts with
  | case1 sign =>
    rw [← Except.ok.inj h]
    exact ⟨rfl, rfl, by simp [OnlySpaces, ofTokens, gaps], trivial⟩
  | case2 sign pos c cs hspace ih =>
    rw [ofTokens_cons (laid_of_scanFrom h).le_pos]
    exact (ih h).prepend hspace
  | case3 => cases h
  | case4 sign pos c cs _ l hread width =>
    rename_i ih
    obtain ⟨ts', hts', rfl⟩ := exists_of_map_eq_ok h
    obtain ⟨cs', rest, hl, rfl, -⟩ := Lexeme.exists_chars_of_read hread
    have hrest : (cs' ++ rest).drop (width - 1) = rest := by simp [width, hl]
    rw [hrest] at hts' ih
    obtain ⟨hchars, hlexemes, hspaces, hparted⟩ := ih hts'
    have hcs : c :: (cs' ++ rest) = l.chars ++ rest := by rw [hl, List.cons_append]
    -- The rest has tokens, so what it begins with does not go on the lexeme.
    obtain ⟨hsign, hends⟩ := Lexeme.not_goesOn_of_read hread hcs (by
      rintro cs₁ rfl
      exact numeral?_ne_none_of_scanFrom hts')
    rw [hcs, ofTokens]
    simp only [Nat.sub_self, List.take_zero, Nat.zero_add, List.drop_left]
    refine ⟨by rw [chars, hchars]; rfl, by rw [lexemes, hlexemes]; rfl, ?_,
      Lexeme.wellFormed_of_read hread, hsign, fun d hd => ?_, hparted⟩
    · exact List.forall_mem_cons.2 ⟨List.forall_mem_nil _, hspaces⟩
    · exact hends d (hchars ▸ mem_head?_of_touching hd)

/-! ## Rows that are cut into their lexemes -/

theorem scansTo_gap {gap : List Char} (h : ∀ c ∈ gap, isSpace c = true) (sign : Bool)
    (rest : List Char) : ScansTo sign (gap ++ rest) [] sign rest := by
  induction gap with
  | nil => exact .refl sign rest
  | cons c gap ih =>
    obtain ⟨hc, hgap⟩ := List.forall_mem_cons.1 h
    exact (scansTo_isSpace hc sign _).trans (ih hgap)

/-- What stands behind a lexeme in a row, or behind the row, does not go it
    on. -/
theorem not_goesOn_head {sign sign' : Bool} {l : Lexeme} {s : Spaced} {rest : List Char}
    (hspaces : s.OnlySpaces) (hparted : s.Parted sign')
    (h : ∀ c ∈ s.touching, ¬ l.GoesOn sign c) (hr : ∀ c ∈ rest.head?, isAnchorChar c = false) :
    ∀ c ∈ (s.chars ++ rest).head?, ¬ l.GoesOn sign c := by
  have hspace : ∀ c, isSpace c = true → ¬ l.GoesOn sign c := fun c hc =>
    Lexeme.not_goesOn (not_isAnchorChar_of_isSpace hc)
  intro c hc
  cases s with
  | last gap =>
    cases gap with
    | nil => exact Lexeme.not_goesOn (hr c hc)
    | cons c' gap =>
      cases hc
      exact hspace c (hspaces _ List.mem_cons_self c List.mem_cons_self)
  | before gap l' more =>
    cases gap with
    | nil =>
      obtain ⟨c', cs', hl⟩ := List.exists_cons_of_ne_nil (Lexeme.chars_ne_nil hparted.1)
      rw [chars, hl] at hc
      rw [touching, hl] at h
      exact h c hc
    | cons c' gap =>
      cases hc
      exact hspace c (hspaces _ List.mem_cons_self c List.mem_cons_self)

/-- A row is cut into its lexemes, whatever stands behind it, unless that
    begins with a character of names. -/
theorem scansTo_append {sign : Bool} {s : Spaced} {rest : List Char} (hspaces : s.OnlySpaces)
    (h : s.Parted sign) (hr : ∀ c ∈ rest.head?, isAnchorChar c = false) :
    ∃ sign', ScansTo sign (s.chars ++ rest) s.lexemes sign' rest := by
  induction s generalizing sign with
  | last gap => exact ⟨sign, scansTo_gap (hspaces gap List.mem_cons_self) sign rest⟩
  | before gap l more ih =>
    obtain ⟨hgap, hmore⟩ := List.forall_mem_cons.1 hspaces
    obtain ⟨hwf, hsign, hends, hparted⟩ := h
    obtain ⟨sign', hscan⟩ := ih hmore hparted
    have hlexeme := scansTo_of_not_goesOn hwf hsign (not_goesOn_head hmore hparted hends hr)
    rw [chars, List.append_assoc, List.append_assoc]
    exact ⟨sign', (scansTo_gap hgap sign _).trans (hlexeme.trans hscan)⟩

theorem exists_scan {text : String} {s : Spaced} (htext : text.toList = s.chars)
    (hspaces : s.OnlySpaces) (h : s.Parted true) :
    ∃ ts, scan text = .ok ts ∧ ts.map lexeme = s.lexemes := by
  have hend : ∀ c ∈ ([] : List Char).head?, isAnchorChar c = false := nofun
  obtain ⟨sign, hscan⟩ := scansTo_append hspaces h hend
  obtain ⟨ts, pos, hts, hscan⟩ := hscan 0
  rw [List.append_nil, ← htext] at hscan
  exact ⟨ts, by rw [scan, hscan, scanFrom, Except.map, List.append_nil], hts⟩

/-! ## Rows with other spaces -/

/-- The row `s'` is `s` with more space around the lexemes. -/
structure Widened (s s' : Spaced) : Prop where
  lexemes : s'.lexemes = s.lexemes
  gaps : List.Forall₂ List.Sublist s.gaps s'.gaps
  onlySpaces : s'.OnlySpaces

/-- Lexemes that have been put apart touch no more, and no others have come to
    touch. -/
theorem Parted.widened {sign : Bool} {s s' : Spaced} (h : s.Parted sign) (hw : s.Widened s') :
    s'.Parted sign := by
  obtain ⟨hl, hg, hspaces⟩ := hw
  induction s generalizing sign s' with
  | last gap =>
    cases s' with
    | last gap' => trivial
    | before gap' l' more' => cases hl
  | before gap l more ih =>
    cases s' with
    | last gap' => cases hl
    | before gap' l' more' =>
      obtain ⟨rfl, hls⟩ := List.cons.inj hl
      obtain ⟨-, hg⟩ := List.forall₂_cons.1 hg
      obtain ⟨hwf, hsign, hends, hparted⟩ := h
      refine ⟨hwf, hsign, fun c hc => hends c ?_,
        ih hparted hls hg (List.forall_mem_cons.1 hspaces).2⟩
      -- What touches the lexeme now has touched it before.
      rw [touching.eq_def] at hc
      split at hc
      · cases more with
        | last => cases hls
        | before gap₁ l₁ more₁ =>
          obtain ⟨rfl, -⟩ := List.cons.inj hls
          obtain ⟨hsub, -⟩ := List.forall₂_cons.1 hg
          rw [List.sublist_nil.1 hsub]
          exact hc
      · cases hc

/-- Lexemes with one space before each of them. -/
def evenly : List Lexeme → Spaced
  | [] => .last []
  | l :: ls => .before [' '] l (evenly ls)

@[simp] theorem lexemes_evenly (ls : List Lexeme) : (evenly ls).lexemes = ls := by
  induction ls with
  | nil => rfl
  | cons l ls ih => rw [evenly, lexemes, ih]

theorem onlySpaces_evenly (ls : List Lexeme) : (evenly ls).OnlySpaces := by
  induction ls with
  | nil => simp [evenly, OnlySpaces, gaps]
  | cons l ls ih => exact List.forall_mem_cons.2 ⟨by simp [isSpace], ih⟩

theorem touching_evenly (ls : List Lexeme) : (evenly ls).touching = none := by
  cases ls <;> rfl

theorem chars_evenly_cons (l : Lexeme) (ls : List Lexeme) :
    (evenly (l :: ls)).chars = ' ' :: (" ".intercalate ((l :: ls).map Lexeme.text)).toList := by
  induction ls generalizing l with
  | nil => simp [Spaced.evenly, chars, Lexeme.text]
  | cons l' ls ih =>
    rw [Spaced.evenly, chars, ih]
    simp [Lexeme.text]

/-- Lexemes with one space between them. -/
def joined : List Lexeme → Spaced
  | [] => .last []
  | l :: ls => .before [] l (evenly ls)

@[simp] theorem lexemes_joined (ls : List Lexeme) : (joined ls).lexemes = ls := by
  cases ls with
  | nil => rfl
  | cons l ls => rw [joined, lexemes, lexemes_evenly]

theorem onlySpaces_joined (ls : List Lexeme) : (joined ls).OnlySpaces := by
  cases ls with
  | nil => simp [joined, OnlySpaces, gaps]
  | cons l ls => exact List.forall_mem_cons.2 ⟨List.forall_mem_nil _, onlySpaces_evenly ls⟩

theorem chars_joined (ls : List Lexeme) :
    (joined ls).chars = (" ".intercalate (ls.map Lexeme.text)).toList := by
  cases ls with
  | nil => rfl
  | cons l ls => exact (List.cons.inj (chars_evenly_cons l ls)).2

/-- Lexemes that are set apart do not touch. -/
theorem Parted.joined {sign : Bool} {s : Spaced} (h : s.Parted sign) :
    (joined s.lexemes).Parted sign := by
  induction s generalizing sign with
  | last gap => trivial
  | before gap l more ih =>
    obtain ⟨hwf, hsign, -, hparted⟩ := h
    have hmore := ih hparted
    refine ⟨hwf, hsign, ?_, ?_⟩
    · rw [touching_evenly]
      exact nofun
    · cases more with
      | last => trivial
      | before => exact hmore

end Spaced

/-! ## Texts with other spaces -/

namespace Token

variable {ν : Type}

/-- How much space stands around the tokens of a text is no matter, nor whether
    there is any: if more of it is put there, or if the tokens are set one
    space apart, the text has tokens of the same kinds with the same texts in
    the same order, and it is read as the same tree or as none. -/
theorem scan_widened {text text' : String} {ts : List Token} (h : scan text = .ok ts)
    (h' : (∃ s, (Spaced.ofTokens 0 text.toList ts).Widened s ∧ text' = String.ofList s.chars) ∨
      text' = " ".intercalate (ts.map (·.lexeme.text))) :
    (∃ ts', scan text' = .ok ts' ∧ ts'.map lexeme = ts.map lexeme) ∧
    ∀ e : Expr ν, Expr.parse text' = .ok e ↔ Expr.parse text = .ok e := by
  obtain ⟨-, hlexemes, -, hparted⟩ := Spaced.sets_ofTokens h
  have hrow : ∃ s : Spaced, text'.toList = s.chars ∧ s.lexemes = ts.map lexeme ∧ s.OnlySpaces ∧
      s.Parted true := by
    rcases h' with ⟨s, hs, rfl⟩ | rfl
    · exact ⟨s, String.toList_ofList, hs.lexemes.trans hlexemes, hs.onlySpaces, hparted.widened hs⟩
    · refine ⟨Spaced.joined (ts.map lexeme), ?_, Spaced.lexemes_joined _,
        Spaced.onlySpaces_joined _, hlexemes ▸ hparted.joined⟩
      rw [Spaced.chars_joined, List.map_map]
      rfl
  obtain ⟨s, hchars, hls, hspaces, hparted'⟩ := hrow
  obtain ⟨ts', hts', hlexemes'⟩ := Spaced.exists_scan hchars hspaces hparted'
  rw [hls] at hlexemes'
  refine ⟨⟨ts', hts', hlexemes'⟩, fun e => ?_⟩
  rw [Expr.parse_eq_ok_iff, Expr.parse_eq_ok_iff, h, hts']
  simp [hlexemes']

/-- Two numbers that touch stay two where they are set apart, and so do a minus
    sign between operands and the number behind it. -/
theorem scan_widened_numbers :
    scan "1..5--2/#a.b" = .ok [⟨.number "1.", 0⟩, ⟨.number ".5", 2⟩, ⟨.operator .sub, 4⟩,
      ⟨.number "-2", 5⟩, ⟨.operator .div, 7⟩, ⟨.ref "a" "b", 8⟩] ∧
    (∃ ts, scan "1. .5 - -2 / #a.b" = .ok ts ∧ ts.map lexeme = [.number "1.", .number ".5",
      .operator .sub, .number "-2", .operator .div, .ref "a" "b"]) ∧
    (∃ ts, scan "\t1..5-\r\n-2/ #a.b " = .ok ts ∧ ts.map lexeme = [.number "1.", .number ".5",
      .operator .sub, .number "-2", .operator .div, .ref "a" "b"]) := by
  have hscan : scan "1..5--2/#a.b" = .ok [⟨.number "1.", 0⟩, ⟨.number ".5", 2⟩, ⟨.operator .sub, 4⟩,
    ⟨.number "-2", 5⟩, ⟨.operator .div, 7⟩, ⟨.ref "a" "b", 8⟩] := by cbv
  have hspaces : ∀ gap ∈ [['\t'], [], [], ['\r', '\n'], [], [' '], [' ']], ∀ c ∈ gap,
      isSpace c = true := by simp [isSpace]
  have hjoined := @scan_widened Empty _ "1. .5 - -2 / #a.b" _ hscan (.inr (by decide))
  have hwidened := @scan_widened Empty _ "\t1..5-\r\n-2/ #a.b " _ hscan (.inl
    ⟨.before ['\t'] (.number "1.") (.before [] (.number ".5") (.before [] (.operator .sub)
      (.before ['\r', '\n'] (.number "-2") (.before [] (.operator .div)
        (.before [' '] (.ref "a" "b") (.last [' '])))))), ⟨by decide, by decide, hspaces⟩,
      by decide⟩)
  exact ⟨hscan, hjoined.1, hwidened.1⟩

end Token

end AnchorLayout
