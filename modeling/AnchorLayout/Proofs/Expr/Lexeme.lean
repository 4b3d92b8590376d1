import AnchorLayout.Expr.Lexeme
import AnchorLayout.Proofs.Decimal.Reading

/-!
# Lexemes at the start of a text

Which lexemes can be read at all (`Lexeme.WellFormed`): a number is a numeral,
with or without a sign, and the ids and anchor names of references are of their
own characters. Nothing else is read (`wellFormed_of_read`), and each of these
is read back from its characters where it may stand and what follows does not
begin with a character that might go it on (`read_of_not_goesOn`).
-/

namespace AnchorLayout

theorem exists_of_map_eq_ok {ε α β : Type} {f : α → β} {x : Except ε α} {b : β}
    (h : x.map f = .ok b) : ∃ a, x = .ok a ∧ f a = b := by
  cases x with
  | error => cases h
  | ok a => exact ⟨a, rfl, Except.ok.inj h⟩

/-! ## Names -/

/-- A text that can be the id of a reference. -/
def IsId (id : String) : Prop := id.toList ≠ [] ∧ ∀ c ∈ id.toList, isIdChar c = true

/-- A text that can be the anchor name of a reference. -/
def IsAnchorName (anchor : String) : Prop :=
  (∃ c ∈ anchor.toList.head?, isIdChar c = true) ∧ ∀ c ∈ anchor.toList, isAnchorChar c = true

instance (id : String) : Decidable (IsId id) :=
  decidable_of_iff (id.toList.isEmpty = false ∧ id.toList.all isIdChar = true) (by
    rw [IsId, List.all_eq_true, List.isEmpty_eq_false_iff])

instance (anchor : String) : Decidable (IsAnchorName anchor) :=
  decidable_of_iff
    (anchor.toList.head?.any isIdChar = true ∧ anchor.toList.all isAnchorChar = true) (by
    rw [IsAnchorName, List.all_eq_true, Option.any_eq_true]
    rfl)

/-- What can follow a lexeme in a canonical text: the end, a space, or a closing
    parenthesis. None of them can go on a name or a number. -/
def Ends (rest : List Char) : Prop := ∀ c ∈ rest.head?, c = ' ' ∨ c = ')'

theorem ends_nil : Ends [] := by simp [Ends]

theorem ends_space (cs : List Char) : Ends (' ' :: cs) := by simp [Ends]

theorem ends_closing (cs : List Char) : Ends (')' :: cs) := by simp [Ends]

theorem Ends.not_isAnchorChar {rest : List Char} (h : Ends rest) :
    ∀ c ∈ rest.head?, isAnchorChar c = false := by
  intro c hc
  rcases h c hc with rfl | rfl <;> rfl

/-- A run of characters of a class ends where a text ends. -/
theorem takeWhile_append_of_ends {p : Char → Bool} {cs rest : List Char}
    (h : ∀ c ∈ cs, p c = true) (hr : ∀ c ∈ rest.head?, p c = false) :
    (cs ++ rest).takeWhile p = cs := by
  rw [List.takeWhile_append_of_pos h]
  cases rest with
  | nil => simp
  | cons c rest => rw [List.takeWhile_cons_of_neg (by simp [hr c rfl]), List.append_nil]

theorem dropWhile_append_of_ends {p : Char → Bool} {cs rest : List Char}
    (h : ∀ c ∈ cs, p c = true) (hr : ∀ c ∈ rest.head?, p c = false) :
    (cs ++ rest).dropWhile p = rest := by
  rw [List.dropWhile_append_of_pos h]
  cases rest with
  | nil => rfl
  | cons c rest => exact List.dropWhile_cons_of_neg (by simp [hr c rfl])

/-! ## Characters -/

theorem not_isAnchorChar {c : Char} (h : isAnchorChar c = false) :
    c.isDigit = false ∧ c ≠ '.' := by
  constructor
  · rw [Bool.eq_false_iff]
    exact fun hd => absurd h (by simp [isAnchorChar, isIdChar, Char.isAlphanum, hd])
  · rintro rfl
    cases h

theorem not_isAnchorChar_of_isSpace {c : Char} (h : isSpace c = true) : isAnchorChar c = false := by
  simp only [isSpace, Bool.or_eq_true, beq_iff_eq] at h
  rcases h with ((rfl | rfl) | rfl) | rfl <;> rfl

theorem isSpace_of_isDigit {c : Char} (h : c.isDigit = true) : isSpace c = false := by
  obtain ⟨h₁, -⟩ := Decimal.toNat_of_isDigit h
  simp only [isSpace, Bool.or_eq_false_iff, beq_eq_false_iff_ne]
  refine ⟨⟨⟨?_, ?_⟩, ?_⟩, ?_⟩ <;> rintro rfl <;> exact absurd h₁ (by decide)

namespace Lexeme

/-! ## Numbers -/

/-- What is read as a numeral is one. -/
theorem numeral_of_numeral? {cs text : List Char} (h : numeral? cs = some text) :
    Decimal.Numeral text := by
  have hd : ∀ ds : List Char, Decimal.AllDigits (ds.takeWhile Char.isDigit) := fun ds c hc =>
    List.mem_takeWhile_imp hc
  simp only [numeral?] at h
  split at h
  · -- A point without digits before it needs digits behind it.
    split_ifs at h with hne
    rw [← Option.some.inj h]
    exact @Decimal.Numeral.fractional [] _ (hd _) (by simpa using hne)
  · cases h
  · next hne _ =>
    rw [← Option.some.inj h]
    refine .fractional ((hd _).append (hd _)) fun happ => ?_
    rw [(List.append_eq_nil_iff.1 happ).1] at hne
    cases hne
  · next hne _ =>
    rw [← Option.some.inj h]
    exact .integer (hd _) (List.isEmpty_eq_false_iff.1 hne)

/-- Digits are read in full where neither a digit nor a point follows. -/
theorem numeral?_integer {whole rest : List Char} (hd : Decimal.AllDigits whole) (hne : whole ≠ [])
    (hr : ∀ c ∈ rest.head?, c.isDigit = false ∧ c ≠ '.') :
    numeral? (whole ++ rest) = some whole := by
  have hr' : ∀ c ∈ rest.head?, c.isDigit = false := fun c hc => (hr c hc).1
  simp only [numeral?, takeWhile_append_of_ends hd hr', dropWhile_append_of_ends hd hr',
    List.isEmpty_eq_false_iff.2 hne]
  cases rest with
  | nil => rfl
  | cons c rest =>
    split
    · contradiction
    · contradiction
    · next heq => exact absurd (List.cons.inj heq).1 (hr c rfl).2
    · rfl

/-- Digits with a point are read in full where no digit follows. -/
theorem numeral?_fractional {whole fraction rest : List Char}
    (hd : Decimal.AllDigits (whole ++ fraction)) (hne : whole ++ fraction ≠ [])
    (hr : ∀ c ∈ rest.head?, c.isDigit = false) :
    numeral? (whole ++ '.' :: (fraction ++ rest)) = some (whole ++ '.' :: fraction) := by
  have hw : ∀ c ∈ whole, c.isDigit = true := fun c hc => hd c (List.mem_append_left _ hc)
  have hf : ∀ c ∈ fraction, c.isDigit = true := fun c hc => hd c (List.mem_append_right _ hc)
  have hpoint : ∀ c ∈ ('.' :: (fraction ++ rest)).head?, c.isDigit = false := by simp
  have hfr := takeWhile_append_of_ends hf hr
  simp only [numeral?, takeWhile_append_of_ends hw hpoint, dropWhile_append_of_ends hw hpoint]
  cases whole with
  | nil =>
    rw [List.nil_append] at hne
    simp only [List.isEmpty_nil, hfr, List.isEmpty_iff, hne, if_false, List.nil_append]
  | cons c whole => simp only [List.isEmpty_cons, hfr]

/-- A numeral is read in full where nothing can go it on: no digit, and no point
    unless it has one already. -/
theorem numeral?_append {cs rest : List Char} (h : Decimal.Numeral cs)
    (hr : ∀ c ∈ rest.head?, c.isDigit = false ∧ (c = '.' → '.' ∈ cs)) :
    numeral? (cs ++ rest) = some cs := by
  rcases h with ⟨hd, hne⟩ | ⟨hd, hne⟩
  · refine numeral?_integer hd hne fun c hc => ⟨(hr c hc).1, fun hpoint => ?_⟩
    exact absurd (hd '.' ((hr c hc).2 hpoint)) (by decide)
  · rw [List.append_assoc, List.cons_append]
    exact numeral?_fractional hd hne fun c hc => (hr c hc).1

/-- What is read as a number is a numeral, with or without a sign. -/
theorem exists_numeral_of_number? {sign : Bool} {cs text : List Char}
    (h : number? sign cs = some text) :
    ∃ negative ds, Decimal.Numeral ds ∧ String.ofList text = Decimal.signed negative ds := by
  rw [number?.eq_def] at h
  split at h
  · split_ifs at h
    obtain ⟨ds, hds, rfl⟩ := Option.map_eq_some_iff.1 h
    exact ⟨true, ds, numeral_of_numeral? hds, rfl⟩
  · exact ⟨false, text, numeral_of_numeral? h, rfl⟩

/-- A numeral is read with the sign before it, where one may stand there. -/
theorem number?_append {cs rest : List Char} (h : Decimal.Numeral cs) {negative sign : Bool}
    (hs : negative = true → sign = true)
    (hr : ∀ c ∈ rest.head?, c.isDigit = false ∧ (c = '.' → '.' ∈ cs)) :
    number? sign ((Decimal.signed negative cs).toList ++ rest) =
      some (Decimal.signed negative cs).toList := by
  cases negative with
  | true => simp [number?, numeral?_append h hr, hs rfl]
  | false =>
    -- A numeral begins with no sign of its own.
    obtain ⟨c, cs', rfl, hc⟩ := h.exists_cons
    have hne : c ≠ '-' := by
      rintro rfl
      exact absurd hc (by decide)
    simp only [Decimal.toList_signed, Bool.false_eq_true, if_false]
    rw [number?.eq_def]
    split
    · next heq => exact absurd (List.cons.inj heq).1 hne
    · exact numeral?_append h hr

/-- No number begins with a character that is no digit, no point and no sign. -/
theorem number?_eq_none {sign : Bool} {c : Char} {cs : List Char} (hd : c.isDigit = false)
    (hp : c ≠ '.') (hs : c ≠ '-' ∨ sign = false) : number? sign (c :: cs) = none := by
  rw [number?.eq_def]
  split
  · next heq =>
    obtain ⟨rfl, -⟩ := List.cons.inj heq
    simp_all
  · simp [numeral?, hd, hp]

/-! ## References -/

/-- What is read as an anchor name can be one. -/
theorem isAnchorName_of_readAnchor {after : String} {width : ℕ} {cs : List Char} {anchor : String}
    (h : readAnchor after width cs = .ok anchor) : IsAnchorName anchor := by
  rw [readAnchor.eq_def] at h
  split at h
  · rename_i cs
    split_ifs at h with hany
    obtain rfl := Except.ok.inj h
    cases cs with
    | nil => simp at hany
    | cons c cs =>
      have hc : isIdChar c = true := by simpa using hany
      have hc' : isAnchorChar c = true := by rw [isAnchorChar, hc, Bool.true_or]
      rw [List.takeWhile_cons_of_pos hc', IsAnchorName, String.toList_ofList]
      refine ⟨⟨c, rfl, hc⟩, fun c' hmem => ?_⟩
      rw [← List.takeWhile_cons_of_pos hc'] at hmem
      exact List.mem_takeWhile_imp hmem
  · cases h

/-- An anchor name is read in full where a text ends. -/
theorem readAnchor_append {anchor : String} (h : IsAnchorName anchor) {rest : List Char}
    (hr : ∀ c ∈ rest.head?, isAnchorChar c = false) (after : String) (width : ℕ) :
    readAnchor after width ('.' :: (anchor.toList ++ rest)) = .ok anchor := by
  obtain ⟨⟨c, hc, hid⟩, hall⟩ := h
  have hany : ((anchor.toList ++ rest).take 1).any isIdChar = true := by
    obtain ⟨cs, hcs⟩ := List.head?_eq_some_iff.1 hc
    rw [hcs]
    simp [hid]
  rw [readAnchor, if_pos hany, takeWhile_append_of_ends hall hr, String.ofList_toList]

theorem readRef_append {id anchor : String} (hid : IsId id) (h : IsAnchorName anchor)
    {rest : List Char} (hr : ∀ c ∈ rest.head?, isAnchorChar c = false) :
    readRef (id.toList ++ '.' :: (anchor.toList ++ rest)) = .ok (.ref id anchor) := by
  have hpoint : ∀ c ∈ ('.' :: (anchor.toList ++ rest)).head?, isIdChar c = false := by
    simp [isIdChar]
  simp only [readRef, takeWhile_append_of_ends hid.2 hpoint, dropWhile_append_of_ends hid.2 hpoint,
    List.isEmpty_eq_false_iff.2 hid.1, readAnchor_append h hr, String.ofList_toList]
  rfl

theorem readSelfRef_append {anchor : String} (h : IsAnchorName anchor) {rest : List Char}
    (hr : ∀ c ∈ rest.head?, isAnchorChar c = false) :
    readSelfRef (selfWord ++ '.' :: (anchor.toList ++ rest)) = .ok (.selfRef anchor) := by
  rw [readSelfRef, if_pos (by simp), List.drop_left, readAnchor_append h hr]
  rfl

/-! ## All lexemes -/

/-- The lexemes that can be read: numbers are numerals with or without a sign,
    and references have ids and anchor names that can be theirs. -/
def WellFormed : Lexeme → Prop
  | .number text => ∃ negative cs, Decimal.Numeral cs ∧ text = Decimal.signed negative cs
  | .ref id anchor => IsId id ∧ IsAnchorName anchor
  | .selfRef anchor => IsAnchorName anchor
  | _ => True

/-- Only lexemes that can be read are read. -/
theorem wellFormed_of_read {sign : Bool} {c : Char} {cs : List Char} {l : Lexeme}
    (h : read sign c cs = .ok l) : l.WellFormed := by
  rw [read.eq_def] at h
  split at h
  · next text hnum =>
    rw [← Except.ok.inj h]
    exact exists_numeral_of_number? hnum
  · split at h
    -- What is left are the references, a character that begins no lexeme, and signs.
    case h_7 =>
      simp only [readRef] at h
      split_ifs at h with hne
      obtain ⟨anchor, ha, rfl⟩ := exists_of_map_eq_ok h
      refine ⟨⟨?_, fun c hc => ?_⟩, isAnchorName_of_readAnchor ha⟩
      · rw [String.toList_ofList]
        exact fun hnil => hne (List.isEmpty_iff.2 hnil)
      · rw [String.toList_ofList] at hc
        exact List.mem_takeWhile_imp hc
    case h_8 =>
      rw [readSelfRef] at h
      split_ifs at h
      obtain ⟨anchor, ha, rfl⟩ := exists_of_map_eq_ok h
      exact isAnchorName_of_readAnchor ha
    case h_9 => cases h
    all_goals
      rw [← Except.ok.inj h]
      trivial

/-! ## What may follow a lexeme -/

theorem numeral?_symbol {c : Char} {cs : List Char} (hd : c.isDigit = false) (hp : c ≠ '.') :
    numeral? (c :: cs) = none := by
  simp [numeral?, hd, hp]

theorem read_of_number? {sign : Bool} {c : Char} {cs text : List Char}
    (h : number? sign (c :: cs) = some text) :
    read sign c cs = .ok (.number (String.ofList text)) := by
  rw [read.eq_def, h]

/-- A lexeme might be read on if the character `c` followed it, where `sign`
    tells whether a number may begin with a minus sign. -/
def GoesOn (sign : Bool) (c : Char) : Lexeme → Prop
  | .number text => c.isDigit = true ∨ c = '.' ∧ '.' ∉ text.toList
  | .ref _ _ => isAnchorChar c = true
  | .selfRef _ => isAnchorChar c = true
  | .operator .sub => sign = true ∧ (c.isDigit = true ∨ c = '.')
  | _ => False

/-- A number has a sign only where one may stand. -/
def MayStand (sign : Bool) : Lexeme → Prop
  | .number text => text.toList.head? = some '-' → sign = true
  | _ => True

/-- What no name holds goes no lexeme on. -/
theorem not_goesOn {sign : Bool} {c : Char} {l : Lexeme} (h : isAnchorChar c = false) :
    ¬ l.GoesOn sign c := by
  obtain ⟨hd, hp⟩ := not_isAnchorChar h
  cases l with
  | operator op => cases op <;> simp [GoesOn, hd, hp]
  | number | ref | selfRef | opening | closing => simp [GoesOn, hd, hp, h]

theorem chars_ne_nil {l : Lexeme} (h : l.WellFormed) : l.chars ≠ [] := by
  cases l with
  | number text =>
    obtain ⟨negative, ds, hds, rfl⟩ := h
    obtain ⟨d, ds', rfl, -⟩ := hds.exists_cons
    cases negative <;> simp [chars]
  | _ => simp [chars, selfWord]

/-- A lexeme begins with a character that is no space. -/
theorem not_isSpace_of_chars {l : Lexeme} (h : l.WellFormed) {c : Char} {cs : List Char}
    (hl : l.chars = c :: cs) : isSpace c = false := by
  cases l with
  | number text =>
    obtain ⟨negative, ds, hds, rfl⟩ := h
    rw [chars, Decimal.toList_signed] at hl
    split_ifs at hl
    · cases hl
      rfl
    · obtain ⟨d, ds', rfl, hd⟩ := hds.exists_cons
      cases hl
      rcases hd with hd | rfl
      · exact isSpace_of_isDigit hd
      · rfl
  | operator op => cases op <;> cases hl <;> rfl
  | ref | selfRef | opening | closing =>
    cases hl
    rfl

/-- A lexeme is read where it may stand if nothing behind it goes it on. -/
theorem read_of_not_goesOn {sign : Bool} {l : Lexeme} (hwf : l.WellFormed) (hs : l.MayStand sign)
    {c : Char} {cs rest : List Char} (hl : l.chars = c :: cs)
    (hr : ∀ d ∈ rest.head?, ¬ l.GoesOn sign d) : read sign c (cs ++ rest) = .ok l := by
  cases l with
  | number text =>
    obtain ⟨negative, ds, hds, rfl⟩ := hwf
    have hsign : negative = true → sign = true := by
      rintro rfl
      exact hs (by simp)
    have hr' : ∀ d ∈ rest.head?, d.isDigit = false ∧ (d = '.' → '.' ∈ ds) := by
      intro d hd
      have hgo := hr d hd
      simp only [GoesOn, not_or, not_and, not_not, Bool.not_eq_true] at hgo
      refine ⟨hgo.1, fun hp => ?_⟩
      have hmem := hgo.2 hp
      rwa [Decimal.mem_toList_signed (by decide)] at hmem
    have hnum := number?_append hds hsign hr'
    rw [chars] at hl
    rw [hl, List.cons_append] at hnum
    rw [read_of_number? hnum, ← hl, String.ofList_toList]
  | ref id anchor =>
    cases hl
    have hr' : ∀ d ∈ rest.head?, isAnchorChar d = false := fun d hd =>
      Bool.eq_false_iff.2 (hr d hd)
    rw [read, number?_eq_none rfl (by decide) (.inl (by decide)), List.append_assoc,
      List.cons_append]
    exact readRef_append hwf.1 hwf.2 hr'
  | selfRef anchor =>
    cases hl
    have hr' : ∀ d ∈ rest.head?, isAnchorChar d = false := fun d hd =>
      Bool.eq_false_iff.2 (hr d hd)
    rw [read, number?_eq_none rfl (by decide) (.inl (by decide))]
    exact readSelfRef_append hwf hr'
  | operator op =>
    cases hl
    have hnum : number? sign (op.symbol :: ([] ++ rest)) = none := by
      cases op with
      | sub =>
        -- Where a sign may stand, no numeral follows.
        cases sign with
        | false => rfl
        | true =>
          have hnone : numeral? rest = none := by
            cases rest with
            | nil => rfl
            | cons d rest =>
              have hgo := hr d rfl
              simp only [GoesOn, true_and, not_or, Bool.not_eq_true] at hgo
              exact numeral?_symbol hgo.1 hgo.2
          rw [Operator.symbol, number?, List.nil_append, hnone]
          rfl
      | add | mul | div => exact number?_eq_none rfl (by decide) (.inl (by decide))
    rw [read.eq_def, hnum]
    cases op <;> rfl
  | opening | closing =>
    cases hl
    rw [read, number?_eq_none rfl (by decide) (.inl (by decide))]

end Lexeme

end AnchorLayout
