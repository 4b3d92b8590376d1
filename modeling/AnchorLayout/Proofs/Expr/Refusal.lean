import AnchorLayout.Proofs.Expr.Layout
import AnchorLayout.Proofs.Expr.Parser

/-!
# Where reading stops

A text that is no expression is refused at the first token that cannot be
right: what stands before it begins some expression (`Expr.Viable`), and with
it that is no longer so. Reading never goes back, so this is shown for all
states that the reader can be in (`stopsAt_of_error`): in each of them the open
groups can be completed (`IsReader.completable`), and a token that is refused
is refused whatever follows it (`IsReader.cons`). A text that has no tokens is
refused at a place within it, or at its end (`Token.pos_le_of_scan`).
-/

namespace AnchorLayout

theorem eq_error_of_map {ε α β : Type} {f : α → β} {x : Except ε α} {err : ε}
    (h : x.map f = .error err) : x = .error err := by
  cases x with
  | error => exact congrArg _ (Except.error.inj h)
  | ok => cases h

/-! ## Texts without tokens -/

namespace Lexeme

theorem pos_le_of_readAnchor {after : String} {width : ℕ} {cs : List Char} {err : SyntaxError}
    (h : readAnchor after width cs = .error err) : err.pos ≤ width + cs.length := by
  rw [readAnchor.eq_def] at h
  split at h
  · split_ifs at h
    cases h
    simp only [List.length_cons]
    omega
  · cases h
    exact Nat.le_add_right ..

/-- A lexeme is refused within the text, or at its end. -/
theorem pos_le_of_read {sign : Bool} {c : Char} {cs : List Char} {err : SyntaxError}
    (h : read sign c cs = .error err) : err.pos ≤ cs.length + 1 := by
  rw [read.eq_def] at h
  split at h
  · cases h
  · split at h
    case h_7 =>
      simp only [readRef] at h
      split_ifs at h
      · cases h
        simp
      · have hlength := congrArg List.length
          (List.takeWhile_append_dropWhile (p := isIdChar) (l := cs))
        have := pos_le_of_readAnchor (eq_error_of_map h)
        rw [List.length_append] at hlength
        omega
    case h_8 =>
      rw [readSelfRef] at h
      split_ifs at h with hself
      · obtain ⟨cs', hcs⟩ := List.isPrefixOf_iff_prefix.1 hself
        have hlength := congrArg List.length hcs
        have := pos_le_of_readAnchor (eq_error_of_map h)
        rw [← hcs, List.drop_left] at this
        rw [List.length_append, List.length_cons] at hlength
        omega
      · cases h
        exact Nat.zero_le _
    case h_9 =>
      cases h
      exact Nat.zero_le _
    all_goals cases h

end Lexeme

namespace Token

theorem pos_le_of_scanFrom {sign : Bool} {pos : ℕ} {cs : List Char} {err : SyntaxError}
    (h : scanFrom sign pos cs = .error err) : err.pos ≤ pos + cs.length := by
  fun_induction scanFrom sign pos cs with
  | case1 => cases h
  | case2 sign pos c cs _ ih =>
    have := ih h
    rw [List.length_cons]
    omega
  | case3 sign pos c cs _ e hread =>
    cases h
    have := Lexeme.pos_le_of_read hread
    simp only [List.length_cons]
    omega
  | case4 sign pos c cs _ l hread width =>
    rename_i ih
    obtain ⟨cs', rest, hl, rfl, -⟩ := Lexeme.exists_chars_of_read hread
    have := ih (eq_error_of_map h)
    simp only [width, hl, List.length_cons, Nat.add_sub_cancel, List.drop_left, List.length_append]
      at this ⊢
    omega

/-- A text that has no tokens is refused within it, or at its end. -/
theorem pos_le_of_scan {text : String} {err : SyntaxError} (h : scan text = .error err) :
    err.pos ≤ text.length := by
  have := pos_le_of_scanFrom h
  rwa [Nat.zero_add, String.length_toList] at this

end Token

namespace Expr

variable {ν : Type} {stop : ℕ}

/-! ## States of the reader -/

/-- The reader in one of its states: where an operand should begin, or after a
    factor. -/
inductive IsReader (stop : ℕ) : (List Token → Except SyntaxError (Expr ν)) → Prop where
  | operand (g : Group ν) (outer : List (Group ν)) : IsReader stop (readOperand stop g outer)
  | operation (g : Group ν) (outer : List (Group ν)) (e : Expr ν) :
      IsReader stop (readOperation stop g outer e)

/-- There are tokens that a reader reads to the end. -/
def Completable (reader : List Token → Except SyntaxError (Expr ν)) : Prop :=
  ∃ more e, (∀ t ∈ more, t.lexeme.WellFormed) ∧ reader more = .ok e

/-- Behind a factor, as many closing parentheses as there are open groups
    complete the expression. -/
theorem completable_readOperation (g : Group ν) (outer : List (Group ν)) (e : Expr ν) :
    Completable (readOperation stop g outer e) := by
  induction outer generalizing g e with
  | nil => exact ⟨[], g.close e, by simp, by rw [readOperation]⟩
  | cons g' outer ih =>
    obtain ⟨more, x, hwf, hx⟩ := ih g' (g.close e)
    refine ⟨⟨.closing, 0⟩ :: more, x, List.forall_mem_cons.2 ⟨trivial, hwf⟩, ?_⟩
    rw [readOperation_closing, hx]

/-- Where an operand should begin, a number takes its place. -/
theorem completable_readOperand (g : Group ν) (outer : List (Group ν)) :
    Completable (readOperand stop g outer) := by
  let zero : Expr ν := .literal (Decimal.ofNumeral "0".toList).toFloat
  obtain ⟨more, x, hwf, hx⟩ : Completable (readOperation stop g outer zero) :=
    completable_readOperation g outer zero
  have hzero : Decimal.Numeral ['0'] := .integer (by simp [Decimal.AllDigits]) (by simp)
  refine ⟨⟨.number "0", 0⟩ :: more, x,
    List.forall_mem_cons.2 ⟨⟨false, ['0'], hzero, rfl⟩, hwf⟩, ?_⟩
  rw [readOperand]
  exact hx

namespace IsReader

variable {reader : List Token → Except SyntaxError (Expr ν)} (h : IsReader stop reader)
include h

theorem completable : Completable reader := by
  cases h with
  | operand g outer => exact completable_readOperand g outer
  | operation g outer e => exact completable_readOperation g outer e

/-- The end is refused as such. -/
theorem nil {err : SyntaxError} (herr : reader [] = .error err) : err.pos = stop := by
  cases h with
  | operand g outer =>
    cases herr
    rfl
  | operation g outer e =>
    cases outer with
    | nil => cases herr
    | cons g' outer =>
      cases herr
      rfl

/-- A token brings the reader into another state, or it is refused, whatever
    follows it. -/
theorem cons (t : Token) :
    (∃ reader', IsReader stop reader' ∧ ∀ ts, reader (t :: ts) = reader' ts) ∨
    ∃ cause, ∀ ts, reader (t :: ts) = .error ⟨t.pos, cause⟩ := by
  obtain ⟨l, pos⟩ := t
  cases h with
  | operand g outer =>
    cases l with
    | number | ref | selfRef =>
      exact .inl ⟨_, .operation g outer _, fun ts => by rw [readOperand]; rfl⟩
    | opening =>
      exact .inl ⟨_, .operand Group.start (g :: outer), fun ts => by rw [readOperand]; rfl⟩
    | operator | closing => exact .inr ⟨_, fun ts => by rw [readOperand]; rfl⟩
  | operation g outer e =>
    cases l with
    | operator op =>
      exact .inl ⟨_, .operand (g.extend e op) outer, readOperation_operator g outer e⟩
    | closing =>
      cases outer with
      | nil => exact .inr ⟨_, fun ts => by rw [readOperation.eq_def]⟩
      | cons g' outer =>
        exact .inl ⟨_, .operation g' outer (g.close e), readOperation_closing g g' outer e⟩
    | number | ref | selfRef | opening =>
      -- Neither is the expression at its end, nor is the open parenthesis closed.
      cases outer <;> exact .inr ⟨_, fun ts => by rw [readOperation.eq_def]⟩

end IsReader

/-! ## The first token that cannot be right -/

/-- The place of the token number `k` of a text that ends at `stop`. The end
    counts as the token behind the last one. -/
def placeOf (stop : ℕ) (ts : List Token) (k : ℕ) : ℕ := (ts[k]?.map Token.pos).getD stop

/-- A reader stops at `pos`: this is the place of the first of the tokens `ts`
    with which those before it can no longer be completed, or the end if all of
    them can be. -/
def StopsAt (stop : ℕ) (reader : List Token → Except SyntaxError (Expr ν)) (ts : List Token)
    (pos : ℕ) : Prop :=
  ∃ k ≤ ts.length, pos = placeOf stop ts k ∧ Completable (fun more => reader (ts.take k ++ more)) ∧
    (k < ts.length → ¬ Completable fun more => reader (ts.take (k + 1) ++ more))

/-- In each of its states, the reader reports where it stops. -/
theorem stopsAt_of_error {reader : List Token → Except SyntaxError (Expr ν)}
    (h : IsReader stop reader) {ts : List Token} {err : SyntaxError}
    (herr : reader ts = .error err) : StopsAt stop reader ts err.pos := by
  induction ts generalizing reader with
  | nil => exact ⟨0, Nat.le_refl _, h.nil herr, h.completable, fun hlt => absurd hlt (by simp)⟩
  | cons t ts ih =>
    rcases h.cons t with ⟨reader', h', hread⟩ | ⟨cause, hread⟩
    · -- The token is read, and what comes after it decides.
      rw [hread] at herr
      obtain ⟨k, hk, hpos, hmore, hstop⟩ := ih h' herr
      refine ⟨k + 1, Nat.succ_le_succ hk, hpos, ?_, fun hlt => ?_⟩
      · simpa [hread] using hmore
      · simpa [hread] using hstop (Nat.lt_of_succ_lt_succ hlt)
    · -- The token is refused, so nothing completes it.
      rw [hread] at herr
      cases herr
      refine ⟨0, Nat.zero_le _, rfl, h.completable, fun _ => ?_⟩
      rintro ⟨more, e, -, he⟩
      have he : reader (t :: more) = .ok e := he
      rw [hread] at he
      cases he

/-- The lexemes begin an expression: there are lexemes that complete it. -/
def Viable (ν : Type) (ls : List Lexeme) : Prop :=
  ∃ (more : List Lexeme) (e : Expr ν), (∀ l ∈ more, l.WellFormed) ∧ Derives .sum (ls ++ more) e

theorem completable_iff_viable {ts : List Token} (hwf : ∀ t ∈ ts, t.lexeme.WellFormed) :
    Completable (fun more => readOperand (ν := ν) stop Group.start [] (ts ++ more)) ↔
      Viable ν (ts.map Token.lexeme) := by
  constructor
  · rintro ⟨more, e, hmore, he⟩
    rw [readOperand_start_iff (List.forall_mem_append.2 ⟨hwf, hmore⟩), List.map_append] at he
    exact ⟨more.map Token.lexeme, e, List.forall_mem_map.2 hmore, he⟩
  · rintro ⟨more, e, hmore, he⟩
    -- Where the further tokens stand is of no account.
    have hmore' : ∀ t ∈ more.map fun l => (⟨l, 0⟩ : Token), t.lexeme.WellFormed :=
      List.forall_mem_map.2 hmore
    refine ⟨_, e, hmore', (readOperand_start_iff (List.forall_mem_append.2 ⟨hwf, hmore'⟩)).2 ?_⟩
    simpa [Function.comp_def] using he

theorem exists_denotes {l : Lexeme} (h : l.WellFormed)
    (hkind : l.kind ∈ ["NUMBER", "REF", "SELF_REF"]) :
    ∃ e : Expr ν, operand? l = some e ∧ Denotes l e := by
  cases l with
  | number | ref | selfRef => exact ⟨_, rfl, denotes_of_operand? h rfl⟩
  | operator op => cases op <;> simp [Lexeme.kind] at hkind
  | opening | closing => simp [Lexeme.kind] at hkind

/-- A text that has tokens but is no expression is refused at the first token
    that cannot be right: the lexemes before it begin an expression, and with
    its own they do not. If all of them begin one, the text is refused at its
    end, being incomplete. The text without tokens is refused at its start. The
    text of each operand among the tokens can be taken for one, so nothing else
    can go wrong. And a text that has no tokens is refused for the same reason
    and at the same place, which is not beyond its end. -/
theorem parse_error_place (text : String) :
    (∀ ts, Token.scan text = .ok ts →
      (∀ t ∈ ts, t.lexeme.kind ∈ ["NUMBER", "REF", "SELF_REF"] →
        ∃ e : Expr ν, operand? t.lexeme = some e ∧ Denotes t.lexeme e) ∧
      ∀ err, (parse text : Except SyntaxError (Expr ν)) = .error err →
        (ts = [] → err.pos = 0) ∧
        (ts ≠ [] → ∃ k ≤ ts.length, err.pos = placeOf text.length ts k ∧
          Viable ν ((ts.take k).map Token.lexeme) ∧
          (k < ts.length → ¬ Viable ν ((ts.take (k + 1)).map Token.lexeme)) ∧
          (k = ts.length → ∀ e : Expr ν, ¬ Derives .sum (ts.map Token.lexeme) e))) ∧
    ∀ err, Token.scan text = .error err →
      (parse text : Except SyntaxError (Expr ν)) = .error err ∧ err.pos ≤ text.length := by
  refine ⟨fun ts hscan => ?_, fun err hscan => ⟨by rw [parse, hscan]; rfl, ?_⟩⟩
  · have hwf := Token.wellFormed_of_mem_scanFrom hscan
    have hparse : (parse text : Except SyntaxError (Expr ν)) = ofTokens text.length ts := by
      rw [parse, hscan]
      rfl
    refine ⟨fun t ht => exists_denotes (hwf t ht), fun err herr => ⟨?_, fun hne => ?_⟩⟩
    · rintro rfl
      rw [hparse] at herr
      cases herr
      rfl
    · have hread : readOperand text.length (Group.start (ν := ν)) [] ts = .error err := by
        rw [← herr, hparse]
        cases ts with
        | nil => exact absurd rfl hne
        | cons t ts => rfl
      obtain ⟨k, hk, hpos, hmore, hstop⟩ := stopsAt_of_error (.operand Group.start []) hread
      have htake : ∀ n, ∀ t ∈ ts.take n, t.lexeme.WellFormed := fun n t ht =>
        hwf t (List.mem_of_mem_take ht)
      refine ⟨k, hk, hpos, (completable_iff_viable (htake k)).1 hmore, fun hlt => ?_,
        fun _ e he => ?_⟩
      · exact (completable_iff_viable (htake (k + 1))).not.1 (hstop hlt)
      · rw [← readOperand_start_iff hwf, hread] at he
        cases he
  · exact Token.pos_le_of_scan hscan

/-- A product without a left operand, within an open parenthesis. -/
theorem parse_error_place_product :
    ∃ ts err, Token.scan "(1 + * 2" = .ok ts ∧
      (parse "(1 + * 2" : Except SyntaxError (Expr Unit)) = .error err ∧ err.pos = 5 ∧
      Viable Unit ((ts.take 3).map Token.lexeme) ∧
      ¬ Viable Unit ((ts.take 4).map Token.lexeme) := by
  have hscan : Token.scan "(1 + * 2" = .ok [⟨.opening, 0⟩, ⟨.number "1", 1⟩, ⟨.operator .add, 3⟩,
      ⟨.operator .mul, 5⟩, ⟨.number "2", 7⟩] := by cbv
  have hparse : (parse "(1 + * 2" : Except SyntaxError (Expr Unit)) =
      .error ⟨5, .unexpectedLexeme (.operator .mul)⟩ := by
    rw [parse, hscan]
    rfl
  obtain ⟨-, herr⟩ := (parse_error_place (ν := Unit) "(1 + * 2").1 _ hscan
  obtain ⟨k, hk, hpos, hviable, hstop, -⟩ := (herr _ hparse).2 (by simp)
  -- Only the token number 3 stands at this place.
  obtain rfl : k = 3 := by
    simp only [List.length_cons, List.length_nil] at hk
    interval_cases k <;> first | rfl | exact absurd hpos (by decide)
  exact ⟨_, _, hscan, hparse, rfl, hviable, hstop (by simp)⟩

end Expr

end AnchorLayout
