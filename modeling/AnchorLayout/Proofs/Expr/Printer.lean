import AnchorLayout.Expr.Printer
import AnchorLayout.Proofs.Decimal.Written
import AnchorLayout.Proofs.Expr.Parser

/-!
# Canonical texts

The canonical text of an expression is cut into the lexemes that the tree asks
for (`scansTo_format`), and these are derived with the tree (`derives_lexemes`),
so the text is read as the tree again (`parse_format`). Two things keep a tree
from coming back as it was: a zero loses its sign (`positiveZeros`), and a
number that is infinite or none has no numeral, so that its text is not read at
all (`parse_format_of_not_finite`).
-/

namespace AnchorLayout

namespace Expr

variable {ν : Type}

/-- A tree of the language: all of it can be written, and every id and anchor
    name in it can be read. -/
def WellNamed : Expr ν → Prop
  | .literal _ => True
  | .ref id anchor => IsId id ∧ IsAnchorName anchor
  | .selfRef anchor => IsAnchorName anchor
  | .binary _ l r => l.WellNamed ∧ r.WellNamed
  | .unknown _ _ _ => False
  | .foreign _ => False

/-- The numbers of an expression, from left to right. -/
def literals : Expr ν → List Float
  | .literal x => [x]
  | .binary _ l r => l.literals ++ r.literals
  | .unknown _ l r => l.literals ++ r.literals
  | .ref _ _ => []
  | .selfRef _ => []
  | .foreign _ => []

/-- All numbers of an expression are finite. -/
def Finite (e : Expr ν) : Prop := ∀ x ∈ e.literals, x.isFinite = true

/-- An expression with the sign of its zeros forgotten. -/
def positiveZeros : Expr ν → Expr ν
  | .literal x => .literal (if x == 0 then 0 else x)
  | .binary op l r => .binary op l.positiveZeros r.positiveZeros
  | .unknown s l r => .unknown s l.positiveZeros r.positiveZeros
  | e => e

/-- The rank of an operation. -/
def rankOf (op : Operator) : ℕ := if op.isProduct then 2 else 1

/-- Lexemes in parentheses, if they are needed. -/
def enclosed (needed : Bool) (ls : List Lexeme) : List Lexeme :=
  if needed then .opening :: (ls ++ [.closing]) else ls

/-- The lexemes of the canonical text of an expression. -/
def lexemes : Expr ν → List Lexeme
  | .literal x => [.number (Decimal.plain x)]
  | .ref id anchor => [.ref id anchor]
  | .selfRef anchor => [.selfRef anchor]
  | .binary op l r => enclosed (l.rank < rankOf op) l.lexemes ++
      .operator op :: enclosed (r.rank ≤ rankOf op) r.lexemes
  | .unknown _ _ _ => []
  | .foreign _ => []

theorem finite_binary {op : Operator} {l r : Expr ν} :
    (Expr.binary op l r).Finite ↔ l.Finite ∧ r.Finite := List.forall_mem_append

/-- Every tree of the language has a canonical text. -/
theorem exists_format {e : Expr ν} (h : e.WellNamed) : ∃ text, e.format = .ok text := by
  induction e with
  | literal | ref | selfRef => exact ⟨_, rfl⟩
  | binary op l r ihl ihr =>
    obtain ⟨left, hl⟩ := ihl h.1
    obtain ⟨right, hr⟩ := ihr h.2
    exact ⟨_, by rw [format, hl, hr]; rfl⟩
  | unknown | foreign => exact h.elim

/-- The canonical text of an operation is put together from those of its
    operands. -/
theorem exists_of_format_binary {op : Operator} {l r : Expr ν} {text : String}
    (h : (Expr.binary op l r).format = .ok text) :
    ∃ left right, l.format = .ok left ∧ r.format = .ok right ∧
      text.toList = (parenthesized (l.rank < rankOf op) left).toList ++
        ' ' :: op.symbol :: ' ' :: (parenthesized (r.rank ≤ rankOf op) right).toList := by
  rw [format] at h
  cases hl : l.format with
  | error f => rw [hl] at h; cases h
  | ok left =>
    cases hr : r.format with
    | error f => rw [hl, hr] at h; cases h
    | ok right =>
      rw [hl, hr] at h
      refine ⟨left, right, rfl, rfl, ?_⟩
      rw [← Except.ok.inj h]
      simp [rankOf]
      rfl

/-! ## The text is cut into the lexemes of the tree -/

theorem scansTo_parenthesized {text : String} {ls : List Lexeme}
    (h : ∀ rest, Ends rest → Token.ScansTo true (text.toList ++ rest) ls false rest) (needed : Bool)
    {rest : List Char} (hr : Ends rest) :
    Token.ScansTo true ((parenthesized needed text).toList ++ rest) (enclosed needed ls) false
      rest := by
  cases needed with
  | false => exact h rest hr
  | true =>
    have hin := (h _ (ends_closing rest)).trans (Token.scansTo_closing false)
    have := (Token.scansTo_opening true).trans hin
    simpa [parenthesized, enclosed] using this

/-- The canonical text of a tree is cut into the lexemes of the tree. -/
theorem scansTo_format {e : Expr ν} (h : e.WellNamed) (hf : e.Finite) {text : String}
    (ht : e.format = .ok text) {rest : List Char} (hr : Ends rest) :
    Token.ScansTo true (text.toList ++ rest) e.lexemes false rest := by
  induction e generalizing text rest with
  | literal x =>
    obtain rfl := Except.ok.inj ht
    obtain ⟨negative, cs, hcs, hx⟩ := Decimal.exists_plain (hf x List.mem_cons_self)
    rw [lexemes, hx]
    exact Token.scansTo_number hcs negative hr
  | ref id anchor =>
    obtain rfl := Except.ok.inj ht
    exact Token.scansTo_ref h.1 h.2 hr
  | selfRef anchor =>
    obtain rfl := Except.ok.inj ht
    exact Token.scansTo_selfRef h hr
  | binary op l r ihl ihr =>
    obtain ⟨left, right, hl, hright, htext⟩ := exists_of_format_binary ht
    rw [finite_binary] at hf
    -- Behind the operation a minus sign belongs
    -- to a number, before it to the operation.
    have hleft := scansTo_parenthesized (fun rest => ihl h.1 hf.1 hl) (l.rank < rankOf op)
      (ends_space (op.symbol :: ' ' :: ((parenthesized (r.rank ≤ rankOf op) right).toList ++ rest)))
    have hop := (Token.scansTo_space false _).trans ((Token.scansTo_operator op).trans
      ((Token.scansTo_space true _).trans
        (scansTo_parenthesized (fun rest => ihr h.2 hf.2 hright) (r.rank ≤ rankOf op) hr)))
    rw [htext, List.append_assoc]
    exact hleft.trans hop
  | unknown | foreign => exact h.elim

/-! ## The lexemes are derived with the tree -/

/-- A repetition goes on with a further operation: it is added at its end, and
    takes the whole of the phrase as its left operand. -/
theorem Derives.times {p : Part ν} {op : Operator} {ls ls' : List Lexeme} {l r : Expr ν}
    (h : Derives p ls l) (hp : p = .term ∨ ∃ f, p = .termFrom f) (hop : op.isProduct = true)
    (hr : Derives .factor ls' r) : Derives p (ls ++ .operator op :: ls') (.binary op l r) := by
  induction h with
  | term first more ihFirst ihMore =>
    rw [List.append_assoc]
    exact .term first (ihMore (.inr ⟨_, rfl⟩))
  | termEnd =>
    rw [List.nil_append, ← List.append_nil ls']
    exact .termMore hop hr .termEnd
  | termMore isProduct operand more ihOperand ihMore =>
    rw [List.cons_append, List.append_assoc]
    exact .termMore isProduct operand (ihMore (.inr ⟨_, rfl⟩))
  | sum | sumEnd | sumMore | leaf | group => simp at hp

theorem Derives.plus {p : Part ν} {op : Operator} {ls ls' : List Lexeme} {l r : Expr ν}
    (h : Derives p ls l) (hp : p = .sum ∨ ∃ f, p = .sumFrom f) (hop : op.isProduct = false)
    (hr : Derives .term ls' r) : Derives p (ls ++ .operator op :: ls') (.binary op l r) := by
  induction h with
  | sum first more ihFirst ihMore =>
    rw [List.append_assoc]
    exact .sum first (ihMore (.inr ⟨_, rfl⟩))
  | sumEnd =>
    rw [List.nil_append, ← List.append_nil ls']
    exact .sumMore hop hr .sumEnd
  | sumMore isSum operand more ihOperand ihMore =>
    rw [List.cons_append, List.append_assoc]
    exact .sumMore isSum operand (ihMore (.inr ⟨_, rfl⟩))
  | term | termEnd | termMore | leaf | group => simp at hp

theorem Derives.toTerm {ls : List Lexeme} {e : Expr ν} (h : Derives .factor ls e) :
    Derives .term ls e := by
  rw [← List.append_nil ls]
  exact .term h .termEnd

theorem Derives.toSum {ls : List Lexeme} {e : Expr ν} (h : Derives .term ls e) :
    Derives .sum ls e := by
  rw [← List.append_nil ls]
  exact .sum h .sumEnd

/-- The part of the grammar that a tree of some rank belongs to. -/
def partOf (rank : ℕ) : Part ν := if rank ≤ 1 then .sum else if rank = 2 then .term else .factor

theorem derives_of_rank_le {k k' : ℕ} (hk : k ≤ k') {ls : List Lexeme} {e : Expr ν}
    (h : Derives (partOf k') ls e) : Derives (partOf k) ls e := by
  simp only [partOf] at h ⊢
  split_ifs at h ⊢
  · exact h
  · exact h.toSum
  · exact h.toTerm.toSum
  · omega
  · exact h
  · exact h.toTerm
  · omega
  · omega
  · exact h

/-- Parentheses make a phrase of any part that is needed. -/
theorem derives_enclosed {k k' : ℕ} {needed : Bool} {ls : List Lexeme} {e : Expr ν}
    (h : Derives (partOf k') ls e) (hk : k ≤ 3) (hn : needed = false → k ≤ k') :
    Derives (partOf k) (enclosed needed ls) e := by
  cases needed with
  | false => exact derives_of_rank_le (hn rfl) h
  | true =>
    have hsum : Derives .sum ls e := derives_of_rank_le (Nat.zero_le k') h
    have hfactor : Derives (partOf 3) (.opening :: (ls ++ [.closing])) e := .group hsum
    exact derives_of_rank_le hk hfactor

theorem denotes_plain {x : Float} (h : x.isFinite = true) :
    Denotes (ν := ν) (.number (Decimal.plain x)) (.literal (if x == 0 then 0 else x)) := by
  obtain ⟨negative, cs, hcs, hx⟩ := Decimal.exists_plain h
  refine .number ?_
  rw [← Decimal.toFloat_plain h, hx]
  exact Decimal.readFloat?_signed hcs negative

/-- The lexemes of a tree are derived with the tree, except that zeros have lost
    their sign. -/
theorem derives_lexemes {e : Expr ν} (h : e.WellNamed) (hf : e.Finite) :
    Derives (partOf e.rank) e.lexemes e.positiveZeros := by
  induction e with
  | literal x => exact .leaf (denotes_plain (hf x List.mem_cons_self))
  | ref id anchor => exact .leaf (denotes_of_operand? (l := .ref id anchor) h rfl)
  | selfRef anchor => exact .leaf (denotes_of_operand? (l := .selfRef anchor) h rfl)
  | binary op l r ihl ihr =>
    rw [finite_binary] at hf
    -- The left operand may be of the rank of
    -- the operation, the right one is above it.
    have hl : Derives (partOf (rankOf op)) (enclosed (l.rank < rankOf op) l.lexemes)
        l.positiveZeros := by
      refine derives_enclosed (ihl h.1 hf.1) ?_ fun hn => ?_
      · rw [rankOf]
        split_ifs <;> omega
      · exact not_lt.1 (of_decide_eq_false hn)
    have hr : Derives (partOf (rankOf op + 1)) (enclosed (r.rank ≤ rankOf op) r.lexemes)
        r.positiveZeros := by
      refine derives_enclosed (ihr h.2 hf.2) ?_ fun hn => ?_
      · rw [rankOf]
        split_ifs <;> omega
      · exact not_le.1 (of_decide_eq_false hn)
    rw [rank, ← rankOf, lexemes]
    cases hop : op.isProduct with
    | true =>
      have hrank : rankOf op = 2 := if_pos hop
      rw [hrank] at hl hr ⊢
      exact hl.times (.inl rfl) hop hr
    | false =>
      have hrank : rankOf op = 1 := if_neg (Bool.eq_false_iff.1 hop)
      rw [hrank] at hl hr ⊢
      exact hl.plus (.inl rfl) hop hr
  | unknown | foreign => exact h.elim

/-! ## The text is read as the tree -/

/-- The canonical text of a tree with finite numbers is read as the tree, except
    that zeros have lost their sign. -/
theorem parse_format {e : Expr ν} (h : e.WellNamed) (hf : e.Finite) {text : String}
    (ht : e.format = .ok text) :
    (parse text : Except SyntaxError (Expr ν)) = .ok e.positiveZeros := by
  have hscan := scansTo_format h hf ht ends_nil
  rw [List.append_nil] at hscan
  exact parse_of_scansTo hscan (derives_of_rank_le (Nat.zero_le _) (derives_lexemes h hf))

/-- A tree and the one with positive zeros are equal. -/
theorem sameAs_positiveZeros (same : ν → ν → Bool) {e : Expr ν} (h : e.WellNamed) (hf : e.Finite) :
    e.positiveZeros.sameAs same e = true := by
  induction e with
  | literal x =>
    rw [positiveZeros, sameAs]
    split_ifs with h₀
    · exact Decimal.zero_beq_of_beq_zero h₀
    · exact Decimal.beq_self_of_isFinite (hf x List.mem_cons_self)
  | ref | selfRef => simp [positiveZeros, sameAs]
  | binary op l r ihl ihr =>
    rw [finite_binary] at hf
    simp [positiveZeros, sameAs, ihl h.1 hf.1, ihr h.2 hf.2]
  | unknown | foreign => exact h.elim

/-- Writing an expression and reading it again gives an equal one. -/
theorem parse_format_sameAs (same : ν → ν → Bool) (e : Expr ν) (h : e.WellNamed) (hf : e.Finite) :
    ∃ text e', e.format = .ok text ∧ parse text = .ok e' ∧ e'.sameAs same e = true := by
  obtain ⟨text, ht⟩ := exists_format h
  exact ⟨text, _, ht, parse_format h hf ht, sameAs_positiveZeros same h hf⟩

/-- A difference with a negative number on its right, as a factor, with names
    that have signs and points in them. -/
theorem parse_format_sameAs_difference :
    let e : Expr Unit := .binary .mul (.binary .sub (.ref "a-b" "x.y-") (.literal (-2.5)))
      (.selfRef "-w")
    e.WellNamed ∧ e.Finite ∧ ∃ text e', e.format = .ok text ∧ parse text = .ok e' ∧
      e'.sameAs (fun _ _ => true) e = true := by
  have hnamed : (Expr.binary .mul (.binary .sub (.ref "a-b" "x.y-") (.literal (-2.5)))
      (.selfRef "-w") : Expr Unit).WellNamed :=
    ⟨⟨⟨by decide +kernel, by decide +kernel⟩, trivial⟩, (by decide +kernel : IsAnchorName "-w")⟩
  have hfinite : (Expr.binary .mul (.binary .sub (.ref "a-b" "x.y-") (.literal (-2.5)))
      (.selfRef "-w") : Expr Unit).Finite := by
    simp only [Finite, literals, List.nil_append, List.append_nil, List.forall_mem_singleton]
    decide +kernel
  exact ⟨hnamed, hfinite, parse_format_sameAs _ _ hnamed hfinite⟩

end Expr

end AnchorLayout
