import AnchorLayout.Expr.Parser
import AnchorLayout.Proofs.Expr.Token

/-!
# The grammar of expressions

sum = term (('+' | '-') term)* term = factor (('*' | '/') factor)* factor =
NUMBER | REF | SELF_REF | '(' sum ')'

`Derives` relates the lexemes of a phrase with its tree. No lexemes are derived
with two trees (`derives_prefix_unique`), because at each lexeme it is clear
whether a repetition goes on (`Part.Stops`).
-/

namespace AnchorLayout

namespace Expr

variable {ν : Type}

/-! ## Operands -/

/-- What a lexeme stands for by itself: a number for the double that its text
    is read as, a reference for the parts of its text before and after the
    first point, and a reference to the shape itself for what stands after
    `$self.`. -/
inductive Denotes : Lexeme → Expr ν → Prop where
  | number {text : String} {x : Float} (value : Decimal.readFloat? text = some x) :
      Denotes (.number text) (.literal x)
  | ref {l : Lexeme} {id anchor : String} (kind : l.kind = "REF")
      (text : l.text = "#" ++ id ++ "." ++ anchor) (first : '.' ∉ id.toList) :
      Denotes l (.ref id anchor)
  | selfRef {l : Lexeme} {anchor : String} (kind : l.kind = "SELF_REF")
      (text : l.text = "$self." ++ anchor) : Denotes l (.selfRef anchor)

/-- The first point of a text is where it is split. -/
theorem eq_of_append_point {xs ys xs' ys' : List Char} (h : '.' ∉ xs) (h' : '.' ∉ xs')
    (heq : xs ++ '.' :: ys = xs' ++ '.' :: ys') : xs = xs' ∧ ys = ys' := by
  have hxs : ∀ c ∈ xs, (c != '.') = true := fun c hc => bne_iff_ne.2 fun hp => h (hp ▸ hc)
  have hxs' : ∀ c ∈ xs', (c != '.') = true := fun c hc => bne_iff_ne.2 fun hp => h' (hp ▸ hc)
  have hpoint : ∀ zs : List Char, ∀ c ∈ ('.' :: zs).head?, (c != '.') = false := by simp
  have ht := congrArg (List.takeWhile (· != '.')) heq
  have hd := congrArg (List.dropWhile (· != '.')) heq
  rw [takeWhile_append_of_ends hxs (hpoint _), takeWhile_append_of_ends hxs' (hpoint _)] at ht
  rw [dropWhile_append_of_ends hxs (hpoint _), dropWhile_append_of_ends hxs' (hpoint _)] at hd
  exact ⟨ht, (List.cons.inj hd).2⟩

/-- A lexeme does not stand for two operands. -/
theorem denotes_unique {l : Lexeme} {e e' : Expr ν} (h : Denotes l e) (h' : Denotes l e') :
    e = e' := by
  cases h with
  | number hx =>
    cases h' with
    | number hx' => rw [Option.some.inj (hx.symm.trans hx')]
    | ref kind => exact absurd kind (by simp [Lexeme.kind])
    | selfRef kind => exact absurd kind (by simp [Lexeme.kind])
  | ref kind text first =>
    cases h' with
    | number hx => exact absurd kind (by simp [Lexeme.kind])
    | ref kind' text' first' =>
      have := congrArg String.toList (text.symm.trans text')
      simp only [String.toList_append, List.append_assoc] at this
      obtain ⟨hid, ha⟩ := eq_of_append_point first first' (List.append_cancel_left this)
      rw [String.toList_inj.1 hid, String.toList_inj.1 ha]
    | selfRef kind' => exact absurd (kind.symm.trans kind') (by decide)
  | selfRef kind text =>
    cases h' with
    | number hx => exact absurd kind (by simp [Lexeme.kind])
    | ref kind' => exact absurd (kind.symm.trans kind') (by decide)
    | selfRef kind' text' =>
      have := congrArg String.toList (text.symm.trans text')
      simp only [String.toList_append] at this
      rw [String.toList_inj.1 (List.append_cancel_left this)]

/-- A lexeme that can be read stands for what the parser takes it for. -/
theorem denotes_of_operand? {l : Lexeme} (h : l.WellFormed) {e : Expr ν}
    (he : operand? l = some e) : Denotes l e := by
  cases l with
  | number text =>
    obtain ⟨negative, cs, hcs, rfl⟩ := h
    rw [← Option.some.inj he]
    exact .number (Decimal.readFloat?_signed hcs negative)
  | ref id anchor =>
    rw [← Option.some.inj he]
    refine .ref rfl ?_ fun hp => absurd (h.1.2 '.' hp) (by decide)
    apply String.toList_inj.1
    simp [Lexeme.text, Lexeme.chars]
  | selfRef anchor =>
    rw [← Option.some.inj he]
    refine .selfRef rfl ?_
    apply String.toList_inj.1
    simp [Lexeme.text, Lexeme.chars, selfWord]
  | operator | opening | closing => cases he

theorem operand?_of_denotes {l : Lexeme} (h : l.WellFormed) {e : Expr ν} (hd : Denotes l e) :
    operand? l = some e := by
  have hsome : ∃ e', operand? (ν := ν) l = some e' := by
    cases l with
    | number | ref | selfRef => exact ⟨_, rfl⟩
    | operator op => cases hd <;> cases op <;> simp_all [Lexeme.kind]
    | opening | closing => cases hd <;> simp_all [Lexeme.kind]
  obtain ⟨e', he'⟩ := hsome
  rw [denotes_unique hd (denotes_of_operand? h he'), he']

theorem not_denotes_opening {e : Expr ν} : ¬ Denotes .opening e := by
  intro h
  cases operand?_of_denotes (l := .opening) trivial h

/-! ## Phrases -/

/-- A part of the grammar. The repetitions know what stands before them:
    `sumFrom left` is what may follow the sum `left`, and `termFrom left` is
    what may follow the product `left`. -/
inductive Part (ν : Type) where
  | sum
  | sumFrom (left : Expr ν)
  | term
  | termFrom (left : Expr ν)
  | factor

/-- The lexemes of a phrase and its tree. An operation in a repetition takes all
    that stands before it as its left operand, and a group is its inner tree. -/
inductive Derives : Part ν → List Lexeme → Expr ν → Prop where
  | sum {ls ls' : List Lexeme} {l e : Expr ν} (first : Derives .term ls l)
      (more : Derives (.sumFrom l) ls' e) : Derives .sum (ls ++ ls') e
  | sumEnd {l : Expr ν} : Derives (.sumFrom l) [] l
  | sumMore {op : Operator} {ls ls' : List Lexeme} {l r e : Expr ν} (isSum : op.isProduct = false)
      (operand : Derives .term ls r) (more : Derives (.sumFrom (.binary op l r)) ls' e) :
      Derives (.sumFrom l) (.operator op :: (ls ++ ls')) e
  | term {ls ls' : List Lexeme} {l e : Expr ν} (first : Derives .factor ls l)
      (more : Derives (.termFrom l) ls' e) : Derives .term (ls ++ ls') e
  | termEnd {l : Expr ν} : Derives (.termFrom l) [] l
  | termMore {op : Operator} {ls ls' : List Lexeme} {l r e : Expr ν}
      (isProduct : op.isProduct = true) (operand : Derives .factor ls r)
      (more : Derives (.termFrom (.binary op l r)) ls' e) :
      Derives (.termFrom l) (.operator op :: (ls ++ ls')) e
  | leaf {l : Lexeme} {e : Expr ν} (denotes : Denotes l e) : Derives .factor [l] e
  | group {ls : List Lexeme} {e : Expr ν} (inner : Derives .sum ls e) :
      Derives .factor (.opening :: (ls ++ [.closing])) e

/-! ## No two trees -/

/-- What may stand behind a phrase that is complete: behind a sum no operation
    at all, and behind a product none of a product. -/
def Part.Stops : Part ν → List Lexeme → Prop
  | .sum, rest => ∀ op, .operator op ∉ rest.head?
  | .sumFrom _, rest => ∀ op, .operator op ∉ rest.head?
  | .term, rest => ∀ op, .operator op ∈ rest.head? → op.isProduct = false
  | .termFrom _, rest => ∀ op, .operator op ∈ rest.head? → op.isProduct = false
  | .factor, _ => True

/-- A product ends where the sum goes on, or with the sum. -/
theorem stops_term_append {l e : Expr ν} {ls rest : List Lexeme} (h : Derives (.sumFrom l) ls e)
    (hs : (Part.sum (ν := ν)).Stops rest) : (Part.term (ν := ν)).Stops (ls ++ rest) := by
  cases h with
  | sumEnd => exact fun op hop => absurd hop (hs op)
  | sumMore isSum =>
    rintro op ⟨⟩
    exact isSum

/-- Two phrases of one kind at the start of the same lexemes are the same. -/
theorem derives_prefix_unique {p : Part ν} {ls ls' rest rest' : List Lexeme} {e e' : Expr ν}
    (h : Derives p ls e) (h' : Derives p ls' e') (hs : p.Stops rest) (hs' : p.Stops rest')
    (heq : ls ++ rest = ls' ++ rest') : ls = ls' ∧ e = e' := by
  induction h generalizing ls' rest rest' e' with
  | sum first more ihFirst ihMore =>
    cases h' with
    | sum first' more' =>
      -- The first products are the same, and then so is what follows them.
      rw [List.append_assoc, List.append_assoc] at heq
      obtain ⟨rfl, rfl⟩ := ihFirst first' (stops_term_append more hs)
        (stops_term_append more' hs') heq
      obtain ⟨rfl, rfl⟩ := ihMore more' hs hs' (List.append_cancel_left heq)
      exact ⟨rfl, rfl⟩
  | sumEnd =>
    cases h' with
    | sumEnd => exact ⟨rfl, rfl⟩
    | sumMore =>
      -- One repetition ends before an operation that the other takes.
      exact absurd (by rw [← List.nil_append rest, heq]; rfl) (hs _)
  | sumMore isSum operand more ihOperand ihMore =>
    cases h' with
    | sumEnd => exact absurd (by rw [← List.nil_append rest', ← heq]; rfl) (hs' _)
    | sumMore isSum' operand' more' =>
      rw [List.cons_append, List.cons_append, List.cons.injEq, List.append_assoc,
        List.append_assoc] at heq
      obtain ⟨hop, heq⟩ := heq
      cases hop
      obtain ⟨rfl, rfl⟩ := ihOperand operand' (stops_term_append more hs)
        (stops_term_append more' hs') heq
      obtain ⟨rfl, rfl⟩ := ihMore more' hs hs' (List.append_cancel_left heq)
      exact ⟨rfl, rfl⟩
  | term first more ihFirst ihMore =>
    cases h' with
    | term first' more' =>
      rw [List.append_assoc, List.append_assoc] at heq
      obtain ⟨rfl, rfl⟩ := ihFirst first' trivial trivial heq
      obtain ⟨rfl, rfl⟩ := ihMore more' hs hs' (List.append_cancel_left heq)
      exact ⟨rfl, rfl⟩
  | termEnd =>
    cases h' with
    | termEnd => exact ⟨rfl, rfl⟩
    | termMore isProduct =>
      have := hs _ (by rw [← List.nil_append rest, heq]; rfl)
      rw [isProduct] at this
      cases this
  | termMore isProduct operand more ihOperand ihMore =>
    cases h' with
    | termEnd =>
      have := hs' _ (by rw [← List.nil_append rest', ← heq]; rfl)
      rw [isProduct] at this
      cases this
    | termMore isProduct' operand' more' =>
      rw [List.cons_append, List.cons_append, List.cons.injEq, List.append_assoc,
        List.append_assoc] at heq
      obtain ⟨hop, heq⟩ := heq
      cases hop
      obtain ⟨rfl, rfl⟩ := ihOperand operand' trivial trivial heq
      obtain ⟨rfl, rfl⟩ := ihMore more' hs hs' (List.append_cancel_left heq)
      exact ⟨rfl, rfl⟩
  | leaf denotes =>
    cases h' with
    | leaf denotes' =>
      obtain ⟨rfl, -⟩ := List.cons.inj heq
      exact ⟨rfl, denotes_unique denotes denotes'⟩
    | group =>
      obtain ⟨rfl, -⟩ := List.cons.inj heq
      exact absurd denotes not_denotes_opening
  | group inner ihInner =>
    cases h' with
    | leaf denotes' =>
      obtain ⟨rfl, -⟩ := List.cons.inj heq
      exact absurd denotes' not_denotes_opening
    | group inner' =>
      rw [List.cons_append, List.cons_append, List.append_assoc, List.append_assoc] at heq
      -- Both inner phrases stop before a closing parenthesis, which is no operation.
      obtain ⟨rfl, rfl⟩ := ihInner inner' (by rintro op ⟨⟩) (by rintro op ⟨⟩) (List.cons.inj heq).2
      exact ⟨rfl, rfl⟩

end Expr

end AnchorLayout
