import AnchorLayout.Expr.Evaluate
import AnchorLayout.Proofs.Expr.Printer

/-!
# The meaning of canonical texts

What a text stands for is the value of the tree that is read from it
(`evaluateText`). The canonical text of a tree that was read stands for the tree
with positive zeros, and for nothing if a number of the tree is beyond the range
of the doubles (`parse_format_of_not_finite`). So it stands for the same as the
text exactly if no number is infinite and no operation tells the sign of a zero
(`evaluateText_format_iff`).
-/

namespace AnchorLayout

namespace Expr

variable {ν : Type}

/-! ## Trees that are read -/

/-- What stands before a repetition is a tree of the language. -/
def Part.LeftNamed : Part ν → Prop
  | .sumFrom l => l.WellNamed
  | .termFrom l => l.WellNamed
  | _ => True

theorem wellNamed_of_operand? {l : Lexeme} (h : l.WellFormed) {e : Expr ν}
    (he : operand? l = some e) : e.WellNamed := by
  cases l with
  | number | ref | selfRef =>
    obtain rfl := Option.some.inj he
    first | exact h | trivial
  | operator | opening | closing => cases he

theorem wellNamed_of_derives {p : Part ν} {ls : List Lexeme} {e : Expr ν} (h : Derives p ls e)
    (hwf : ∀ l ∈ ls, l.WellFormed) (hp : p.LeftNamed) : e.WellNamed := by
  induction h with
  | sum first more ihFirst ihMore =>
    rw [List.forall_mem_append] at hwf
    exact ihMore hwf.2 (ihFirst hwf.1 trivial)
  | sumEnd => exact hp
  | sumMore isSum operand more ihOperand ihMore =>
    rw [List.forall_mem_cons, List.forall_mem_append] at hwf
    exact ihMore hwf.2.2 ⟨hp, ihOperand hwf.2.1 trivial⟩
  | term first more ihFirst ihMore =>
    rw [List.forall_mem_append] at hwf
    exact ihMore hwf.2 (ihFirst hwf.1 trivial)
  | termEnd => exact hp
  | termMore isProduct operand more ihOperand ihMore =>
    rw [List.forall_mem_cons, List.forall_mem_append] at hwf
    exact ihMore hwf.2.2 ⟨hp, ihOperand hwf.2.1 trivial⟩
  | leaf denotes =>
    have hl := hwf _ List.mem_cons_self
    exact wellNamed_of_operand? hl (operand?_of_denotes hl denotes)
  | group inner ihInner =>
    rw [List.forall_mem_cons, List.forall_mem_append] at hwf
    exact ihInner hwf.2.1 trivial

/-- Only trees of the language are read. -/
theorem wellNamed_of_parse {text : String} {e : Expr ν} (h : parse text = .ok e) :
    e.WellNamed := by
  obtain ⟨ts, hscan, hts⟩ := parse_eq_ok_iff.1 h
  exact wellNamed_of_derives hts
    (List.forall_mem_map.2 (Token.wellFormed_of_mem_scanFrom hscan)) trivial

/-! ## Numbers beyond the range of the doubles -/

theorem plain_of_not_finite {x : Float} (h : x.isFinite = false) :
    Decimal.plain x = Decimal.special x := by
  have hplace : Decimal.infinityPlace ≤ Decimal.place x := by
    have := (Decimal.isFinite_iff x).not
    rw [h] at this
    exact not_lt.1 (this.1 (by simp))
  rw [Decimal.plain, Decimal.toInt?, if_pos hplace]
  simp [h]

/-- The word for a number that is infinite or none cannot be read: it begins
    with a letter, or with a sign that no numeral follows. -/
theorem stuck_special (x : Float) (rest : List Char) :
    Token.Stuck true ((Decimal.special x).toList ++ rest) := by
  rw [Decimal.special]
  split_ifs
  · exact Token.stuck_letter (by decide) true ('a' :: 'n' :: rest)
  cases Decimal.isNegative x with
  | false =>
    rw [Decimal.toList_signed]
    exact Token.stuck_letter (by decide) true ('n' :: 'f' :: rest)
  | true =>
    rw [Decimal.toList_signed]
    -- The sign is taken for an operation, and then a letter follows.
    have hnum : Lexeme.number? true ('-' :: 'i' :: 'n' :: 'f' :: rest) = none := by
      simp [Lexeme.number?, Lexeme.numeral?]
    have hread : Lexeme.read true '-' ('i' :: 'n' :: 'f' :: rest) = .ok (.operator .sub) := by
      rw [Lexeme.read.eq_def, hnum]
      rfl
    exact (@Token.scansTo_lexeme true (.operator .sub) '-' [] _ rfl rfl hread).stuck
      (Token.stuck_letter (by decide) true ('n' :: 'f' :: rest))

theorem stuck_parenthesized {text : String}
    (h : ∀ rest, Token.Stuck true (text.toList ++ rest)) (needed : Bool) (rest : List Char) :
    Token.Stuck true ((parenthesized needed text).toList ++ rest) := by
  cases needed with
  | false => exact h rest
  | true =>
    have := (Token.scansTo_opening true).stuck (h (')' :: rest))
    simpa [parenthesized] using this

/-- The first number that has no numeral stops the reading of a canonical
    text. -/
theorem stuck_format {e : Expr ν} (h : e.WellNamed) (hf : ¬ e.Finite) {text : String}
    (ht : e.format = .ok text) (rest : List Char) : Token.Stuck true (text.toList ++ rest) := by
  induction e generalizing text rest with
  | literal x =>
    obtain rfl := Except.ok.inj ht
    have hx : x.isFinite = false := by simpa [Finite, literals] using hf
    rw [plain_of_not_finite hx]
    exact stuck_special x rest
  | ref | selfRef => exact absurd (by simp [Finite, literals]) hf
  | binary op l r ihl ihr =>
    obtain ⟨left, right, hl, hr, htext⟩ := exists_of_format_binary ht
    rw [finite_binary, not_and] at hf
    rw [htext, List.append_assoc]
    by_cases hfl : l.Finite
    · -- The left operand and the operation are read, but the right operand is not.
      have hright := stuck_parenthesized (ihr h.2 (hf hfl) hr) (r.rank ≤ rankOf op) rest
      have hop := (Token.scansTo_space false _).stuck ((Token.scansTo_operator op).stuck
        ((Token.scansTo_space true _).stuck hright))
      exact (scansTo_parenthesized (fun rest => scansTo_format h.1 hfl hl) _
        (ends_space _)).stuck hop
    · -- The left operand is not read in the first place.
      exact stuck_parenthesized (ihl h.1 hfl hl) _ _
  | unknown | foreign => exact h.elim

/-- A canonical text with a number beyond the range of the doubles is not
    read. -/
theorem parse_format_of_not_finite {e : Expr ν} (h : e.WellNamed) (hf : ¬ e.Finite) {text : String}
    (ht : e.format = .ok text) :
    ∃ err, (parse text : Except SyntaxError (Expr ν)) = .error err := by
  obtain ⟨err, herr⟩ := stuck_format h hf ht [] 0
  rw [List.append_nil] at herr
  exact ⟨err, by rw [parse, Token.scan, herr]; rfl⟩

/-! ## Outcomes -/

section

variable {m : Type → Type} [Monad m]

/-- What a text stands for, or why it cannot be read. -/
def evaluateText (flawed : Flaw ν → m Float) (lookup : Target → String → m Float) (text : String) :
    Except SyntaxError (m Float) :=
  (parse text).map (evaluate flawed lookup)

/-- Positive zeros are what they were. -/
theorem positiveZeros_eq_self {e : Expr ν}
    (h : ∀ x ∈ e.literals, (x == 0) = true → Decimal.isNegative x = false) :
    e.positiveZeros = e := by
  induction e with
  | literal x =>
    rw [positiveZeros]
    split_ifs with h₀
    · have hx := Decimal.ofPlace_place x
      rw [h x List.mem_cons_self h₀, (Decimal.beq_zero_iff x).1 h₀] at hx
      rw [← hx]
      rfl
    · rfl
  | ref | selfRef | foreign => rfl
  | binary op l r ihl ihr | unknown s l r ihl ihr =>
    rw [literals, List.forall_mem_append] at h
    rw [positiveZeros, ihl h.1, ihr h.2]

/-- The canonical text of what was read from a text stands for the same as the
    text if and only if all numbers are finite and the outcome does not depend
    on the sign of the zeros that are written in the text. No sign is lost
    where no zero is negative. -/
theorem evaluateText_format_iff {text : String} {e : Expr ν} (h : parse text = .ok e)
    (flawed : Flaw ν → m Float) (lookup : Target → String → m Float) :
    ∃ canonical, e.format = .ok canonical ∧
      (evaluateText flawed lookup canonical = evaluateText flawed lookup text ↔
        e.Finite ∧ e.positiveZeros.evaluate flawed lookup = e.evaluate flawed lookup) ∧
      ((∀ x ∈ e.literals, (x == 0) = true → Decimal.isNegative x = false) →
        e.positiveZeros = e) := by
  have hnamed := wellNamed_of_parse h
  obtain ⟨canonical, hc⟩ := exists_format hnamed
  refine ⟨canonical, hc, ?_, positiveZeros_eq_self⟩
  rw [evaluateText, evaluateText, h]
  by_cases hf : e.Finite
  · -- The canonical text is read as the tree with positive zeros.
    rw [parse_format hnamed hf hc]
    simp only [Except.map, Except.ok.injEq]
    exact (and_iff_right hf).symm
  · obtain ⟨err, herr⟩ := parse_format_of_not_finite hnamed hf hc
    rw [herr]
    simp [Except.map, hf]

end

/-- A text without negative zeros and without numbers beyond the doubles. -/
theorem evaluateText_format_iff_product :
    let flawed : Flaw Unit → Except String Float := fun _ => .error ""
    let lookup : Target → String → Except String Float := fun _ _ => .ok 1
    let e : Expr Unit := .binary .mul (.ref "a" "b") (.literal (Decimal.ofNumeral ['2']).toFloat)
    parse "#a.b*2" = .ok e ∧ ∃ canonical, e.format = .ok canonical ∧
      (evaluateText flawed lookup canonical = evaluateText flawed lookup "#a.b*2" ↔
        e.Finite ∧ e.positiveZeros.evaluate flawed lookup = e.evaluate flawed lookup) ∧
      ((∀ x ∈ e.literals, (x == 0) = true → Decimal.isNegative x = false) →
        e.positiveZeros = e) := by
  have hscan : Token.scan "#a.b*2" =
      .ok [⟨.ref "a" "b", 0⟩, ⟨.operator .mul, 4⟩, ⟨.number "2", 5⟩] := by cbv
  have hparse : parse "#a.b*2" = .ok (.binary .mul (.ref "a" "b")
      (.literal (Decimal.ofNumeral ['2']).toFloat) : Expr Unit) := by
    rw [parse, hscan]
    rfl
  exact ⟨hparse, evaluateText_format_iff hparse _ _⟩

/-- The canonical text of a quotient by `-0` is a quotient by `0`, which has the
    other sign. -/
theorem evaluateText_format_quotient :
    let flawed : Flaw Unit → Except String Float := fun _ => .error ""
    let lookup : Target → String → Except String Float := fun _ anchor => .error anchor
    ∃ e : Expr Unit, parse "1 / -0" = .ok e ∧ e.format = .ok "1 / 0" ∧
      evaluateText flawed lookup "1 / -0" = .ok (.ok (Decimal.ofPlace true Decimal.infinityPlace)) ∧
      evaluateText flawed lookup "1 / 0" = .ok (.ok Decimal.infinity) ∧
      Decimal.ofPlace true Decimal.infinityPlace ≠ Decimal.infinity := by
  have hone : (Decimal.ofNumeral "1".toList).toFloat = 1 := by decide +kernel
  have hscan : Token.scan "1 / -0" =
      .ok [⟨.number "1", 0⟩, ⟨.operator .div, 2⟩, ⟨.number "-0", 4⟩] := by cbv
  have hscan' : Token.scan "1 / 0" =
      .ok [⟨.number "1", 0⟩, ⟨.operator .div, 2⟩, ⟨.number "0", 4⟩] := by cbv
  have hparse : parse "1 / -0" = .ok (.binary .div (.literal (Decimal.ofNumeral "1".toList).toFloat)
      (.literal (Decimal.ofPlace true 0)) : Expr Unit) := by
    rw [parse, hscan]
    rfl
  have hparse' : parse "1 / 0" = .ok (.binary .div (.literal (Decimal.ofNumeral "1".toList).toFloat)
      (.literal (Decimal.ofPlace false 0)) : Expr Unit) := by
    rw [parse, hscan']
    rfl
  rw [hone] at hparse hparse'
  have hvalue : (1 / Decimal.ofPlace true 0 : Float) =
      Decimal.ofPlace true Decimal.infinityPlace := by decide +kernel
  have hvalue' : (1 / Decimal.ofPlace false 0 : Float) = Decimal.infinity := by decide +kernel
  refine ⟨_, hparse, ?_, ?_, ?_, by decide +kernel⟩
  · have hplain : Decimal.plain 1 = "1" := by decide +kernel
    have hplain' : Decimal.plain (Decimal.ofPlace true 0) = "0" := by decide +kernel
    rw [format, format, format, hplain, hplain']
    rfl
  · rw [evaluateText, hparse, ← hvalue]
    rfl
  · rw [evaluateText, hparse', ← hvalue']
    rfl

end Expr

end AnchorLayout
