import AnchorLayout.Proofs.Expr.Layout
import AnchorLayout.Proofs.Expr.Meaning

/-!
# The fewest parentheses

A canonical text has parentheses only where the tree would be read differently
without them (`count_format`). In whatever way the lexemes of a text are derived
with a tree, the grammar asks for an opening parenthesis wherever an operand
binds less tightly than its place demands (`Derives.parenthesesAt_le`). So no
text of the tree has fewer of them than the canonical one
(`count_format_le_of_parse`).
-/

namespace AnchorLayout

namespace Expr

variable {ν : Type}

/-! ## Parentheses of a tree -/

/-- The pairs of parentheses within the canonical text of a tree. -/
def parentheses : Expr ν → ℕ
  | .binary op l r =>
    (l.parentheses + if l.rank < rankOf op then 1 else 0) +
      (r.parentheses + if r.rank ≤ rankOf op then 1 else 0)
  | _ => 0

/-- The pairs of parentheses of a tree in a place that demands the rank `k`:
    one more if the tree does not bind as tightly. -/
def parenthesesAt (k : ℕ) (e : Expr ν) : ℕ := e.parentheses + if e.rank < k then 1 else 0

theorem one_le_rank (e : Expr ν) : 1 ≤ e.rank := by
  cases e with
  | binary op => rw [rank]; split_ifs <;> omega
  | _ => exact le_add_self

theorem parenthesesAt_of_le_rank {k : ℕ} {e : Expr ν} (h : k ≤ e.rank) :
    e.parenthesesAt k = e.parentheses := by
  rw [parenthesesAt, if_neg (not_lt.2 h), Nat.add_zero]

theorem parenthesesAt_le_add_one (e : Expr ν) (k : ℕ) :
    e.parenthesesAt k ≤ e.parentheses + 1 := by
  rw [parenthesesAt]
  split_ifs <;> omega

theorem parenthesesAt_mono {k k' : ℕ} (h : k ≤ k') (e : Expr ν) :
    e.parenthesesAt k ≤ e.parenthesesAt k' := by
  rw [parenthesesAt, parenthesesAt]
  split_ifs <;> omega

/-- The left operand stands in a place of the rank of the operation, the right
    one in a place above it. -/
theorem parenthesesAt_binary {k : ℕ} {op : Operator} (hk : rankOf op = k) (l r : Expr ν) :
    (Expr.binary op l r).parenthesesAt k = l.parenthesesAt k + r.parenthesesAt (k + 1) := by
  have hrank : k ≤ (Expr.binary op l r).rank := hk.ge
  rw [parenthesesAt_of_le_rank hrank, parentheses, parenthesesAt, parenthesesAt, hk]
  simp only [Nat.lt_succ_iff]

/-- Equal trees have the same parentheses. -/
theorem parentheses_eq_of_sameAs {same : ν → ν → Bool} {e e' : Expr ν}
    (h : e.sameAs same e' = true) : e.rank = e'.rank ∧ e.parentheses = e'.parentheses := by
  induction e generalizing e' with
  | binary op l r ihl ihr =>
    cases e' with
    | binary op' l' r' =>
      simp only [sameAs, Bool.and_eq_true, beq_iff_eq] at h
      obtain ⟨⟨rfl, hl⟩, hr⟩ := h
      rw [parentheses, parentheses, (ihl hl).1, (ihl hl).2, (ihr hr).1, (ihr hr).2]
      exact ⟨rfl, rfl⟩
    | _ => cases h
  | _ => cases e' <;> first | exact ⟨rfl, rfl⟩ | cases h

/-! ## Parentheses of a phrase -/

/-- The rank that a place demands where a part of the grammar stands. -/
def Part.rank : Part ν → ℕ
  | .sum | .sumFrom _ => 1
  | .term | .termFrom _ => 2
  | .factor => 3

/-- The parentheses of what stands before a part. -/
def Part.before : Part ν → ℕ
  | .sumFrom l => l.parenthesesAt 1
  | .termFrom l => l.parenthesesAt 2
  | .sum | .term | .factor => 0

theorem rank_of_denotes {l : Lexeme} {e : Expr ν} (h : Denotes l e) :
    e.rank = 3 ∧ e.parentheses = 0 := by
  cases h <;> exact ⟨rfl, rfl⟩

/-- A repetition begins with a phrase of the next rank. -/
theorem parenthesesAt_le_of_first {k : ℕ} {ls ls' : List Lexeme} {l e : Expr ν}
    (hl : l.parenthesesAt (k + 1) ≤ ls.count .opening)
    (he : e.parenthesesAt k ≤ l.parenthesesAt k + ls'.count .opening) :
    e.parenthesesAt k ≤ (ls ++ ls').count .opening := by
  calc e.parenthesesAt k ≤ l.parenthesesAt k + ls'.count .opening := he
    _ ≤ l.parenthesesAt (k + 1) + ls'.count .opening :=
        Nat.add_le_add_right (parenthesesAt_mono (Nat.le_succ k) l) _
    _ ≤ ls.count .opening + ls'.count .opening := Nat.add_le_add_right hl _
    _ = (ls ++ ls').count .opening := List.count_append.symm

/-- A repetition goes on with an operation of its rank and a phrase of the next
    one. -/
theorem parenthesesAt_le_of_more {k : ℕ} {op : Operator} {ls ls' : List Lexeme} {l r e : Expr ν}
    (hop : rankOf op = k) (hr : r.parenthesesAt (k + 1) ≤ ls.count .opening)
    (he : e.parenthesesAt k ≤ (Expr.binary op l r).parenthesesAt k + ls'.count .opening) :
    e.parenthesesAt k ≤
      l.parenthesesAt k + (Lexeme.operator op :: (ls ++ ls')).count .opening := by
  have hne : Lexeme.operator op ≠ .opening := nofun
  rw [parenthesesAt_binary hop] at he
  rw [List.count_cons_of_ne hne, List.count_append]
  omega

/-- A phrase has an opening parenthesis for every pair that the tree asks for
    in its place. -/
theorem Derives.parenthesesAt_le {p : Part ν} {ls : List Lexeme} {e : Expr ν}
    (h : Derives p ls e) : e.parenthesesAt p.rank ≤ p.before + ls.count .opening := by
  induction h with
  | sum first more ihFirst ihMore | term first more ihFirst ihMore =>
    simp only [Part.before, Nat.zero_add] at ihFirst ⊢
    exact parenthesesAt_le_of_first ihFirst ihMore
  | sumEnd | termEnd => exact le_self_add
  | sumMore isSum operand more ihOperand ihMore =>
    simp only [Part.before, Nat.zero_add] at ihOperand
    exact parenthesesAt_le_of_more (if_neg (Bool.eq_false_iff.1 isSum)) ihOperand ihMore
  | termMore isProduct operand more ihOperand ihMore =>
    simp only [Part.before, Nat.zero_add] at ihOperand
    exact parenthesesAt_le_of_more (if_pos isProduct) ihOperand ihMore
  | @leaf l e denotes =>
    obtain ⟨hrank, hzero⟩ := rank_of_denotes denotes
    have hle : (Part.factor (ν := ν)).rank ≤ e.rank := hrank.ge
    rw [parenthesesAt_of_le_rank hle, hzero]
    exact Nat.zero_le _
  | @group ls e inner ih =>
    have he : e.parenthesesAt 1 ≤ 0 + ls.count .opening := ih
    rw [parenthesesAt_of_le_rank e.one_le_rank] at he
    -- The group takes one pair, whatever its place demands.
    have hgroup := e.parenthesesAt_le_add_one (Part.factor (ν := ν)).rank
    rw [Part.before, List.count_cons_self, List.count_append]
    omega

end Expr

/-! ## Parentheses of a text -/

theorem Decimal.Numeral.opening_notMem {cs : List Char} (h : Decimal.Numeral cs) : '(' ∉ cs :=
  fun hc => absurd (h.mem hc) (by decide)

/-- No number is written with parentheses. -/
theorem Decimal.opening_notMem_plain (x : Float) : '(' ∉ (Decimal.plain x).toList := by
  cases hx : x.isFinite with
  | true =>
    obtain ⟨negative, cs, hcs, htext⟩ := Decimal.exists_plain hx
    rw [htext]
    exact mt (Decimal.mem_toList_signed (by decide)).1 hcs.opening_notMem
  | false =>
    rw [Expr.plain_of_not_finite hx, Decimal.special]
    split_ifs
    · decide
    · exact mt (Decimal.mem_toList_signed (by decide)).1 (by decide)

theorem IsId.opening_notMem {id : String} (h : IsId id) : '(' ∉ id.toList :=
  fun hc => absurd (h.2 _ hc) (by decide)

theorem IsAnchorName.opening_notMem {anchor : String} (h : IsAnchorName anchor) :
    '(' ∉ anchor.toList :=
  fun hc => absurd (h.2 _ hc) (by decide)

/-- Only the lexeme of an opening parenthesis has one in its text. -/
theorem Lexeme.count_chars {l : Lexeme} (h : l.WellFormed) :
    l.chars.count '(' = [l].count .opening := by
  cases l with
  | number text =>
    obtain ⟨negative, cs, hcs, rfl⟩ := h
    exact List.count_eq_zero.2 (mt (Decimal.mem_toList_signed (by decide)).1 hcs.opening_notMem)
  | ref id anchor =>
    refine List.count_eq_zero.2 ?_
    simp [Lexeme.chars, h.1.opening_notMem, h.2.opening_notMem]
  | selfRef anchor =>
    refine List.count_eq_zero.2 ?_
    simp [Lexeme.chars, selfWord, IsAnchorName.opening_notMem h]
  | operator op => cases op <;> rfl
  | opening | closing => rfl

/-- The opening parentheses of a text are those among its lexemes. -/
theorem Token.Laid.count_eq {sign : Bool} {pos : ℕ} {cs : List Char} {ts : List Token}
    (h : Token.Laid sign pos cs ts) : cs.count '(' = (ts.map Token.lexeme).count .opening := by
  induction h with
  | nil => rfl
  | space space _ ih =>
    rw [List.count_cons_of_ne, ih]
    rintro rfl
    cases space
  | lexeme wellFormed _ _ ih =>
    rw [List.count_append, Lexeme.count_chars wellFormed, ih, ← List.count_append]
    rfl

namespace Expr

variable {ν : Type}

theorem count_parenthesized (needed : Bool) (text : String) :
    (parenthesized needed text).toList.count '(' =
      text.toList.count '(' + if needed then 1 else 0 := by
  cases needed <;> simp [parenthesized]

/-- The opening parentheses of a canonical text are those that the tree asks
    for. -/
theorem count_format {e : Expr ν} (h : e.WellNamed) {text : String} (ht : e.format = .ok text) :
    text.toList.count '(' = e.parentheses := by
  induction e generalizing text with
  | literal x =>
    obtain rfl := Except.ok.inj ht
    exact List.count_eq_zero.2 (Decimal.opening_notMem_plain x)
  | ref id anchor =>
    obtain rfl := Except.ok.inj ht
    exact List.count_eq_zero.2 (by simp [h.1.opening_notMem, h.2.opening_notMem])
  | selfRef anchor =>
    obtain rfl := Except.ok.inj ht
    exact List.count_eq_zero.2 (by simp [IsAnchorName.opening_notMem h])
  | binary op l r ihl ihr =>
    obtain ⟨left, right, hl, hr, htext⟩ := exists_of_format_binary ht
    have hop : op.symbol ≠ '(' := by cases op <;> decide
    rw [htext, List.count_append, count_parenthesized, ihl h.1 hl, parentheses]
    simp [hop, count_parenthesized, ihr h.2 hr]
  | unknown | foreign => exact h.elim

/-- The canonical text of what was read from a text has no more opening
    parentheses than any text of an equal tree; and as long as all numbers are
    finite, it is such a text itself. -/
theorem count_format_le_of_parse (same : ν → ν → Bool) {text text' : String} {e e' : Expr ν}
    (h : parse text = .ok e) (h' : parse text' = .ok e') (heq : e'.sameAs same e = true) :
    ∃ canonical, e.format = .ok canonical ∧
      canonical.toList.count '(' ≤ text'.toList.count '(' ∧
      (e.Finite → ∃ e'', parse canonical = .ok e'' ∧ e''.sameAs same e = true) := by
  have hnamed := wellNamed_of_parse h
  obtain ⟨canonical, hc⟩ := exists_format hnamed
  refine ⟨canonical, hc, ?_, fun hf =>
    ⟨_, parse_format hnamed hf hc, sameAs_positiveZeros same hnamed hf⟩⟩
  obtain ⟨ts, hscan, hts⟩ := parse_eq_ok_iff.1 h'
  calc canonical.toList.count '(' = e'.parentheses := by
        rw [count_format hnamed hc, (parentheses_eq_of_sameAs heq).2]
    _ = e'.parenthesesAt 1 := (parenthesesAt_of_le_rank e'.one_le_rank).symm
    _ ≤ 0 + (ts.map Token.lexeme).count .opening := hts.parenthesesAt_le
    _ = text'.toList.count '(' := by
        rw [Nat.zero_add, (Token.laid_of_scanFrom hscan).count_eq]

/-- A difference on the right of a difference, written with one pair of
    parentheses and with three. -/
theorem count_format_le_of_parse_difference :
    let e : Expr Unit := .binary .sub (.ref "a" "x") (.binary .sub (.ref "b" "y") (.selfRef "w"))
    parse "#a.x - (#b.y - $self.w)" = .ok e ∧
    parse "(#a.x) - ((#b.y - $self.w))" = .ok e ∧
    e.sameAs (fun _ _ => true) e = true ∧
    ∃ canonical, e.format = .ok canonical ∧
      canonical.toList.count '(' ≤ "(#a.x) - ((#b.y - $self.w))".toList.count '(' ∧
      (e.Finite → ∃ e'', parse canonical = .ok e'' ∧ e''.sameAs (fun _ _ => true) e = true) := by
  have hscan : Token.scan "#a.x - (#b.y - $self.w)" =
      .ok [⟨.ref "a" "x", 0⟩, ⟨.operator .sub, 5⟩, ⟨.opening, 7⟩, ⟨.ref "b" "y", 8⟩,
        ⟨.operator .sub, 13⟩, ⟨.selfRef "w", 15⟩, ⟨.closing, 22⟩] := by cbv
  have hscan' : Token.scan "(#a.x) - ((#b.y - $self.w))" =
      .ok [⟨.opening, 0⟩, ⟨.ref "a" "x", 1⟩, ⟨.closing, 5⟩, ⟨.operator .sub, 7⟩, ⟨.opening, 9⟩,
        ⟨.opening, 10⟩, ⟨.ref "b" "y", 11⟩, ⟨.operator .sub, 16⟩, ⟨.selfRef "w", 18⟩,
        ⟨.closing, 25⟩, ⟨.closing, 26⟩] := by cbv
  have hparse : parse "#a.x - (#b.y - $self.w)" = .ok (.binary .sub (.ref "a" "x")
      (.binary .sub (.ref "b" "y") (.selfRef "w")) : Expr Unit) := by
    rw [parse, hscan]
    rfl
  have hparse' : parse "(#a.x) - ((#b.y - $self.w))" = .ok (.binary .sub (.ref "a" "x")
      (.binary .sub (.ref "b" "y") (.selfRef "w")) : Expr Unit) := by
    rw [parse, hscan']
    rfl
  have hsame : (Expr.binary .sub (.ref "a" "x") (.binary .sub (.ref "b" "y") (.selfRef "w")) :
      Expr Unit).sameAs (fun _ _ => true)
      (.binary .sub (.ref "a" "x") (.binary .sub (.ref "b" "y") (.selfRef "w"))) = true := by
    decide +kernel
  exact ⟨hparse, hparse', hsame, count_format_le_of_parse _ hparse hparse' hsame⟩

end Expr

end AnchorLayout
