import AnchorLayout.Expr.Token
import AnchorLayout.Proofs.Expr.Lexeme

/-!
# Texts cut into tokens

A text that begins with the characters of one lexeme after another is cut into
tokens of these lexemes before the rest of it is looked at (`ScansTo`), and a
text can be put together from such parts (`ScansTo.trans`).
-/

namespace AnchorLayout

namespace Token

/-- All tokens of a text have lexemes that can be read. -/
theorem wellFormed_of_mem_scanFrom {sign : Bool} {pos : ℕ} {cs : List Char} {ts : List Token}
    (h : scanFrom sign pos cs = .ok ts) : ∀ t ∈ ts, t.lexeme.WellFormed := by
  fun_induction scanFrom sign pos cs generalizing ts with
  | case1 =>
    rw [← Except.ok.inj h]
    simp
  | case2 sign pos c cs _ ih => exact ih h
  | case3 => cases h
  | case4 sign pos c cs _ l hread width =>
    rename_i ih
    obtain ⟨ts', hts', rfl⟩ := exists_of_map_eq_ok h
    intro t ht
    rcases List.mem_cons.1 ht with rfl | ht
    · exact Lexeme.wellFormed_of_read hread
    · exact ih hts' t ht

/-- The text `cs` begins with the lexemes `ls`, whatever stands before it, and
    goes on with `rest`. -/
def ScansTo (sign : Bool) (cs : List Char) (ls : List Lexeme) (sign' : Bool) (rest : List Char) :
    Prop :=
  ∀ pos, ∃ ts pos', ts.map lexeme = ls ∧
    scanFrom sign pos cs = (scanFrom sign' pos' rest).map (ts ++ ·)

/-- What is scanned in two parts is scanned. -/
theorem ScansTo.trans {s s' s'' : Bool} {cs cs' cs'' : List Char} {ls ls' : List Lexeme}
    (h : ScansTo s cs ls s' cs') (h' : ScansTo s' cs' ls' s'' cs'') :
    ScansTo s cs (ls ++ ls') s'' cs'' := by
  intro pos
  obtain ⟨ts, pos', rfl, hts⟩ := h pos
  obtain ⟨ts', pos'', rfl, hts'⟩ := h' pos'
  refine ⟨ts ++ ts', pos'', List.map_append, ?_⟩
  rw [hts, hts']
  cases scanFrom s'' pos'' cs'' with
  | error => rfl
  | ok ts'' => simp [Except.map]

theorem ScansTo.refl (sign : Bool) (cs : List Char) : ScansTo sign cs [] sign cs :=
  fun pos => ⟨[], pos, rfl, by cases scanFrom sign pos cs <;> rfl⟩

/-- White space is left out, and does not change whether a sign may follow. -/
theorem scansTo_isSpace {c : Char} (hc : isSpace c = true) (sign : Bool) (cs : List Char) :
    ScansTo sign (c :: cs) [] sign cs :=
  fun pos => ⟨[], pos + 1, rfl, by
    rw [scanFrom, if_pos hc]
    cases scanFrom sign (pos + 1) cs <;> rfl⟩

theorem scansTo_space (sign : Bool) (cs : List Char) : ScansTo sign (' ' :: cs) [] sign cs :=
  scansTo_isSpace rfl sign cs

/-- A lexeme that is read is the next one of the text. -/
theorem scansTo_lexeme {sign : Bool} {l : Lexeme} {c : Char} {cs rest : List Char}
    (hl : l.chars = c :: cs) (hc : isSpace c = false)
    (h : Lexeme.read sign c (cs ++ rest) = .ok l) :
    ScansTo sign (l.chars ++ rest) [l] l.signMayFollow rest := by
  intro pos
  refine ⟨[⟨l, pos⟩], pos + l.chars.length, rfl, ?_⟩
  rw [hl, List.cons_append, scanFrom]
  simp only [hc, h, hl, List.length_cons, Nat.add_sub_cancel, List.drop_left]
  rfl

/-- A lexeme that may stand where a text begins is the next one of it if what
    stands behind does not go it on. -/
theorem scansTo_of_not_goesOn {sign : Bool} {l : Lexeme} {rest : List Char} (hwf : l.WellFormed)
    (hs : l.MayStand sign) (hr : ∀ c ∈ rest.head?, ¬ l.GoesOn sign c) :
    ScansTo sign (l.chars ++ rest) [l] l.signMayFollow rest := by
  obtain ⟨c, cs, hl⟩ := List.exists_cons_of_ne_nil (Lexeme.chars_ne_nil hwf)
  exact scansTo_lexeme hl (Lexeme.not_isSpace_of_chars hwf hl)
    (Lexeme.read_of_not_goesOn hwf hs hl hr)

/-! ## The lexemes of canonical texts -/

section

variable {rest : List Char}

/-- A numeral is one lexeme where a number may begin. -/
theorem scansTo_number {cs : List Char} (hn : Decimal.Numeral cs) (negative : Bool)
    (h : Ends rest) :
    ScansTo true ((Decimal.signed negative cs).toList ++ rest)
      [.number (Decimal.signed negative cs)] false rest :=
  @scansTo_of_not_goesOn true (.number (Decimal.signed negative cs)) rest ⟨negative, cs, hn, rfl⟩
    (fun _ => rfl) fun c hc => Lexeme.not_goesOn (h.not_isAnchorChar c hc)

theorem scansTo_ref {id anchor : String} (hid : IsId id) (ha : IsAnchorName anchor)
    (h : Ends rest) :
    ScansTo true (("#" ++ id ++ "." ++ anchor).toList ++ rest) [.ref id anchor] false rest := by
  have hchars : ("#" ++ id ++ "." ++ anchor).toList = (Lexeme.ref id anchor).chars := by
    simp [Lexeme.chars]
  rw [hchars]
  exact scansTo_of_not_goesOn ⟨hid, ha⟩ trivial fun c hc =>
    Lexeme.not_goesOn (h.not_isAnchorChar c hc)

theorem scansTo_selfRef {anchor : String} (ha : IsAnchorName anchor) (h : Ends rest) :
    ScansTo true (("$self." ++ anchor).toList ++ rest) [.selfRef anchor] false rest := by
  have hchars : ("$self." ++ anchor).toList = (Lexeme.selfRef anchor).chars := by
    simp [Lexeme.chars, selfWord]
  rw [hchars]
  exact scansTo_of_not_goesOn ha trivial fun c hc => Lexeme.not_goesOn (h.not_isAnchorChar c hc)

/-- After an operand, a minus sign is an operation. -/
theorem scansTo_operator (op : Operator) :
    ScansTo false (op.symbol :: rest) [.operator op] true rest :=
  @scansTo_of_not_goesOn false (.operator op) rest trivial trivial fun _ _ => by
    cases op <;> simp [Lexeme.GoesOn]

theorem scansTo_opening (sign : Bool) : ScansTo sign ('(' :: rest) [.opening] true rest :=
  @scansTo_of_not_goesOn sign .opening rest trivial trivial fun _ _ => id

theorem scansTo_closing (sign : Bool) : ScansTo sign (')' :: rest) [.closing] false rest :=
  @scansTo_of_not_goesOn sign .closing rest trivial trivial fun _ _ => id

end

/-! ## Texts that are not cut -/

/-- No tokens can be made of the text `cs`, whatever stands before it. -/
def Stuck (sign : Bool) (cs : List Char) : Prop := ∀ pos, ∃ err, scanFrom sign pos cs = .error err

/-- A text is not cut if what follows some of its lexemes is not. -/
theorem ScansTo.stuck {s s' : Bool} {cs cs' : List Char} {ls : List Lexeme}
    (h : ScansTo s cs ls s' cs') (h' : Stuck s' cs') : Stuck s cs := by
  intro pos
  obtain ⟨ts, pos', -, hts⟩ := h pos
  obtain ⟨err, herr⟩ := h' pos'
  exact ⟨err, by rw [hts, herr]; rfl⟩

/-- No lexeme begins with a letter. -/
theorem stuck_letter {c : Char} (h : c.isAlpha = true) (sign : Bool) (cs : List Char) :
    Stuck sign (c :: cs) := by
  intro pos
  have hne : ∀ c' : Char, c'.isAlpha = false → c ≠ c' := by
    intro c' h' hc
    rw [hc, h'] at h
    cases h
  have hspace : isSpace c = false := by
    simp [isSpace, hne ' ' rfl, hne '\t' rfl, hne '\r' rfl, hne '\n' rfl]
  have hdigit : c.isDigit = false := by
    rw [Bool.eq_false_iff]
    exact fun hd => absurd h (by simp [Decimal.isAlpha_of_isDigit hd])
  have hread : Lexeme.read sign c cs = .error ⟨0, .unexpectedCharacter c⟩ := by
    rw [Lexeme.read.eq_def, Lexeme.number?_eq_none hdigit (hne '.' rfl) (.inl (hne '-' rfl))]
    simp [hne '+' rfl, hne '-' rfl, hne '*' rfl, hne '/' rfl, hne '(' rfl, hne ')' rfl, hne '#' rfl,
      hne '$' rfl]
  exact ⟨_, by rw [scanFrom, if_neg (by simp [hspace]), hread]⟩

end Token

end AnchorLayout
