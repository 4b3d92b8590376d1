import AnchorLayout.Decimal.Reading
import AnchorLayout.Decimal.Written
import Mathlib

/-!
# Numerals

The texts that stand for numbers in expressions are numerals, with or without a
sign (`Numeral`). Every one of them is a number text too, and the two grammars
agree on the number that it stands for (`readFloat?_signed`).
-/

namespace AnchorLayout.Decimal

/-! ## Digits -/

/-- A text without other characters than digits. -/
def AllDigits (cs : List Char) : Prop := ∀ c ∈ cs, c.isDigit = true

theorem AllDigits.append {cs ds : List Char} (h : AllDigits cs) (h' : AllDigits ds) :
    AllDigits (cs ++ ds) := List.forall_mem_append.2 ⟨h, h'⟩

/-- A natural number is written with digits alone. -/
theorem allDigits_digits (n : ℕ) : AllDigits (digits n) := fun _ hc =>
  Nat.isDigit_of_mem_toDigits (by decide) le_rfl hc

theorem allDigits_toString (n : ℕ) : AllDigits (toString n).toList := by
  rw [Nat.toString_eq_repr, Nat.toList_repr]
  exact allDigits_digits n

theorem allDigits_zeros (n : ℕ) : AllDigits (List.replicate n '0') := by
  intro c hc
  rw [List.eq_of_mem_replicate hc]
  rfl

/-- Every natural number has a digit, zero among them. -/
theorem digits_ne_nil (n : ℕ) : digits n ≠ [] := Nat.toDigits_ne_nil

/-- A natural number is what its digits stand for. -/
@[simp] theorem digitsValue_digits (n : ℕ) : digitsValue (digits n) = n :=
  Nat.ofDigitChars_ten_toDigits

theorem digitsValue_append (cs ds : List Char) :
    digitsValue (cs ++ ds) = Nat.ofDigitChars 10 ds (digitsValue cs) := Nat.ofDigitChars_append 0

/-- Zeros before the first digit add nothing. -/
theorem digitsValue_zeros_append (n : ℕ) (cs : List Char) :
    digitsValue (List.replicate n '0' ++ cs) = digitsValue cs := by
  have h : digitsValue (List.replicate n '0') = 0 := Nat.ofDigitChars_replicate_zero
  rw [digitsValue_append, h]
  rfl

/-- A zero after the last digit multiplies by ten. -/
theorem digitsValue_append_zeros (cs : List Char) (n : ℕ) :
    digitsValue (cs ++ List.replicate n '0') = 10 ^ n * digitsValue cs := by
  rw [digitsValue_append, Nat.ofDigitChars_replicate_zero]

/-! ## Numerals -/

/-- A number as it is written without a sign: digits alone, or digits with a
    point before, among or behind them. -/
inductive Numeral : List Char → Prop where
  | integer {whole : List Char} (digits : AllDigits whole) (nonempty : whole ≠ []) : Numeral whole
  | fractional {whole fraction : List Char} (digits : AllDigits (whole ++ fraction))
      (nonempty : whole ++ fraction ≠ []) : Numeral (whole ++ '.' :: fraction)

/-- A numeral begins with a digit or with a point. -/
theorem Numeral.exists_cons {cs : List Char} (h : Numeral cs) :
    ∃ c cs', cs = c :: cs' ∧ (c.isDigit = true ∨ c = '.') := by
  rcases h with ⟨hd, hne⟩ | ⟨hd, -⟩
  · obtain ⟨c, cs', rfl⟩ := List.exists_cons_of_ne_nil hne
    exact ⟨c, cs', rfl, .inl (hd c List.mem_cons_self)⟩
  · rename_i whole fraction
    cases whole with
    | nil => exact ⟨'.', fraction, rfl, .inr rfl⟩
    | cons c cs' => exact ⟨c, cs' ++ '.' :: fraction, rfl, .inl (hd c List.mem_cons_self)⟩

/-- No numeral begins with a sign. -/
theorem splitSign_of_numeral {cs : List Char} (h : Numeral cs) : splitSign cs = (false, cs) := by
  obtain ⟨c, cs', rfl, hc | rfl⟩ := h.exists_cons
  · rw [splitSign]
    · rintro _ ⟨⟩
      exact absurd hc (by decide)
    · rintro _ ⟨⟩
      exact absurd hc (by decide)
  · rfl

@[simp] theorem toList_signed (negative : Bool) (cs : List Char) :
    (signed negative cs).toList = if negative then '-' :: cs else cs := by
  simp [signed]

theorem mem_toList_signed {c : Char} {negative : Bool} {ds : List Char} (hc : c ≠ '-') :
    c ∈ (signed negative ds).toList ↔ c ∈ ds := by
  rw [toList_signed]
  split_ifs
  · exact List.mem_cons.trans (or_iff_right hc)
  · rfl

/-- The number of a signed numeral is told by the digits before and after its
    point. -/
theorem ofNumeral_signed {cs : List Char} (h : Numeral cs) (negative : Bool) :
    ofNumeral (signed negative cs).toList =
      ofDigits negative (cs.takeWhile Char.isDigit) ((cs.dropWhile Char.isDigit).drop 1) 0 := by
  cases negative
  · simp [ofNumeral, splitSign_of_numeral h]
  · simp [ofNumeral, splitSign]

theorem ofNumeral_integer {whole : List Char} (hd : AllDigits whole) (hne : whole ≠ [])
    (negative : Bool) :
    ofNumeral (signed negative whole).toList = ⟨negative, digitsValue whole, 0⟩ := by
  rw [ofNumeral_signed (.integer hd hne), List.takeWhile_eq_self_iff.2 hd,
    List.dropWhile_eq_nil_iff.2 hd]
  simp [ofDigits]

/-- The digits after the point count for the mantissa, and their number for the
    exponent. -/
theorem ofNumeral_fractional {whole fraction : List Char} (hd : AllDigits (whole ++ fraction))
    (hne : whole ++ fraction ≠ []) (negative : Bool) :
    ofNumeral (signed negative (whole ++ '.' :: fraction)).toList =
      ⟨negative, digitsValue (whole ++ fraction), -fraction.length⟩ := by
  have hw : ∀ c ∈ whole, c.isDigit = true := fun c hc => hd c (List.mem_append_left _ hc)
  rw [ofNumeral_signed (.fractional hd hne), List.takeWhile_append_of_pos hw,
    List.dropWhile_append_of_pos hw]
  simp [ofDigits]

/-! ## Numerals as number texts -/

theorem toNat_of_isDigit {c : Char} (h : c.isDigit = true) : 48 ≤ c.toNat ∧ c.toNat ≤ 57 := by
  simpa [Char.isDigit, Char.le_def, UInt32.le_iff_toNat_le] using h

theorem foldDigit_of_isDigit {c : Char} (h : c.isDigit = true) : Text.foldDigit c = c := by
  obtain ⟨h₁, h₂⟩ := toNat_of_isDigit h
  have hv : Text.digitValue? c = some (c.toNat - 48) := by
    rw [Text.digitValue?, Text.digitZeros, List.find?_cons_of_pos (by simp [h₁, h₂])]
    rfl
  simp only [Text.foldDigit, hv, Nat.add_sub_cancel' h₁, Char.ofNat_toNat]

theorem isMargin_of_isDigit {c : Char} (h : c.isDigit = true) : Text.isMargin c = false := by
  obtain ⟨h₁, h₂⟩ := toNat_of_isDigit h
  simp [Text.isMargin, Text.isBlank]
  omega

theorem dropWhile_isMargin {cs : List Char} (h : ∀ c ∈ cs, Text.isMargin c = false) :
    cs.dropWhile Text.isMargin = cs := by
  cases cs with
  | nil => rfl
  | cons c cs => exact List.dropWhile_cons_of_neg (by simp [h c])

/-- The characters of numerals are those that number texts are reduced to. -/
theorem folded_eq_self {cs : List Char} (h : ∀ c ∈ cs, c.isDigit = true ∨ c = '.' ∨ c = '-') :
    folded (String.ofList cs) = cs := by
  have hm : ∀ c ∈ cs, Text.isMargin c = false := by
    intro c hc
    rcases h c hc with hd | rfl | rfl
    · exact isMargin_of_isDigit hd
    · rfl
    · rfl
  have hf : ∀ c ∈ cs, Text.foldDigit c = c := by
    intro c hc
    rcases h c hc with hd | rfl | rfl
    · exact foldDigit_of_isDigit hd
    · rfl
    · rfl
  rw [folded, String.toList_ofList, Text.trim, dropWhile_isMargin hm,
    dropWhile_isMargin fun c hc => hm c (List.mem_reverse.1 hc), List.reverse_reverse]
  exact List.map_congr_left hf |>.trans (List.map_id cs)

theorem Numeral.mem {cs : List Char} (h : Numeral cs) {c : Char} (hc : c ∈ cs) :
    c.isDigit = true ∨ c = '.' := by
  rcases h with ⟨hd, -⟩ | ⟨hd, -⟩
  · exact .inl (hd c hc)
  · rw [List.mem_append, List.mem_cons, or_left_comm] at hc
    rcases hc with rfl | hc
    · exact .inr rfl
    · exact .inl (hd c (List.mem_append.2 hc))

/-- The reduction of number texts leaves a numeral and its sign as they are. -/
theorem folded_signed {cs : List Char} (h : Numeral cs) (negative : Bool) :
    folded (signed negative cs) = if negative then '-' :: cs else cs := by
  apply folded_eq_self
  intro c hc
  cases negative with
  | false => exact (h.mem hc).imp_right .inl
  | true =>
    rcases List.mem_cons.1 hc with rfl | hc
    · exact .inr (.inr rfl)
    · exact (h.mem hc).imp_right .inl

theorem toLower_of_isDigit {c : Char} (h : c.isDigit = true) : c.toLower = c := by
  obtain ⟨-, h₂⟩ := toNat_of_isDigit h
  refine dif_neg fun hc => ?_
  have : 65 ≤ c.toNat := UInt32.le_iff_toNat_le.1 hc.1
  omega

theorem isAlpha_of_isDigit {c : Char} (h : c.isDigit = true) : c.isAlpha = false := by
  obtain ⟨-, h₂⟩ := toNat_of_isDigit h
  simp [Char.isAlpha, Char.isUpper, Char.isLower, UInt32.le_iff_toNat_le]
  omega

/-- A numeral is none of the words that number texts may be. -/
theorem Numeral.lower_ne {cs : List Char} (h : Numeral cs) {w : String} {c : Char} {ds : List Char}
    (hw : w.toList = c :: ds) (hc : c.isAlpha = true) :
    String.ofList (cs.map Char.toLower) ≠ w := by
  rintro rfl
  obtain ⟨c', cs', rfl, hc'⟩ := h.exists_cons
  rw [String.toList_ofList, List.map_cons, List.cons.injEq] at hw
  obtain ⟨rfl, -⟩ := hw
  rcases hc' with hd | rfl
  · rw [toLower_of_isDigit hd, isAlpha_of_isDigit hd] at hc
    cases hc
  · exact absurd hc (by decide)

/-- A run of digits ends at a point. -/
theorem digitRun_append {ds rest : List Char} (hd : AllDigits ds)
    (hr : ∀ c ∈ rest.head?, c = '.') : digitRun (ds ++ rest) = (ds, rest) := by
  induction ds with
  | nil =>
    cases rest with
    | nil => rfl
    | cons c rest =>
      obtain rfl := hr c rfl
      rw [List.nil_append, digitRun.eq_def]
      rfl
  | cons c ds ih =>
    have hds : AllDigits ds := fun c' hc' => hd c' (List.mem_cons_of_mem _ hc')
    rw [List.cons_append, digitRun.eq_def]
    simp only [hd c List.mem_cons_self, if_true]
    split
    · -- A low line would be a digit or a point.
      next heq =>
        cases ds with
        | nil => exact absurd (hr '_' (by rw [← List.nil_append rest, heq]; rfl)) (by decide)
        | cons c' ds =>
          rw [List.cons_append, List.cons.injEq] at heq
          exact absurd (heq.1 ▸ hds c' List.mem_cons_self) (by decide)
    · rw [ih hds]

theorem digitRun_digits {ds : List Char} (h : AllDigits ds) : digitRun ds = (ds, []) := by
  have hr : ∀ c ∈ ([] : List Char).head?, c = '.' := by simp
  simpa using digitRun_append h hr

/-- The number text that a numeral is without its sign. -/
theorem unsigned?_numeral {cs : List Char} (h : Numeral cs) (negative : Bool) :
    unsigned? negative cs = some
      (ofDigits negative (cs.takeWhile Char.isDigit) ((cs.dropWhile Char.isDigit).drop 1) 0) := by
  rcases h with ⟨hd, hne⟩ | ⟨hd, hne⟩
  · simp only [unsigned?, digitRun_digits hd]
    simp [hne, exponent?, List.takeWhile_eq_self_iff.2 hd, List.dropWhile_eq_nil_iff.2 hd]
  · rename_i whole fraction
    have hw : AllDigits whole := fun c hc => hd c (List.mem_append_left _ hc)
    have hf : AllDigits fraction := fun c hc => hd c (List.mem_append_right _ hc)
    have hr : ∀ c ∈ ('.' :: fraction).head?, c = '.' := by simp
    have hempty : (whole.isEmpty && fraction.isEmpty) = false := by
      simpa [List.isEmpty_eq_false_iff] using hne
    simp only [unsigned?, digitRun_append hw hr, digitRun_digits hf, hempty]
    rw [List.takeWhile_append_of_pos hw, List.dropWhile_append_of_pos hw]
    simp [exponent?]

/-- A numeral stands for the same number as a number text. -/
theorem readFloat?_signed {cs : List Char} (h : Numeral cs) (negative : Bool) :
    readFloat? (signed negative cs) = some (ofNumeral (signed negative cs).toList).toFloat := by
  have hsplit : splitSign (folded (signed negative cs)) = (negative, cs) := by
    rw [folded_signed h]
    cases negative with
    | false => exact splitSign_of_numeral h
    | true => rfl
  rw [readFloat?, hsplit]
  simp only [Bool.or_eq_true, beq_iff_eq]
  rw [if_neg (not_or.2 ⟨h.lower_ne rfl rfl, h.lower_ne rfl rfl⟩), if_neg (h.lower_ne rfl rfl),
    unsigned?_numeral h, ofNumeral_signed h, Option.map_some]

end AnchorLayout.Decimal
