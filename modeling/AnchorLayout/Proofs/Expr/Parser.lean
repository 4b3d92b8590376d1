import AnchorLayout.Proofs.Expr.Grammar

/-!
# Reading expressions by the grammar

The reader keeps a stack of groups, and the grammar knows of none. What ties
them is what the stack still demands of the lexemes to come (`Closes`): a tree
is read exactly if they meet the demand (`closes_of_read`,
`reads_of_derives`). A text is thus read as a tree exactly if its lexemes are
derived with that tree (`parse_iff_derives`).
-/

namespace AnchorLayout

namespace Expr

variable {ν : Type} {stop : ℕ}

/-! ## What open groups demand -/

/-- The lexemes `ls` that go on the group `g` after the factor `e` and make it
    the sum `s`. -/
def Completes (g : Group ν) (e : Expr ν) (ls : List Lexeme) (s : Expr ν) : Prop :=
  ∃ ls₁ ls₂ f, ls = ls₁ ++ ls₂ ∧ Derives (.termFrom (g.term e)) ls₁ f ∧
    Derives (.sumFrom (Group.complete g.sum f)) ls₂ s

/-- The lexemes `ls` that go on the group `g` after the factor `e`, close all
    groups and make the outermost one the tree `t`. -/
def Closes (g : Group ν) (e : Expr ν) (ls : List Lexeme) (t : Expr ν) : List (Group ν) → Prop
  | [] => Completes g e ls t
  | g' :: outer => ∃ ls₁ ls₂ s, ls = ls₁ ++ .closing :: ls₂ ∧ Completes g e ls₁ s ∧
      Closes g' s ls₂ t outer

/-- A group may end after any factor. -/
theorem completes_nil (g : Group ν) (e : Expr ν) : Completes g e [] (g.close e) :=
  ⟨[], [], _, rfl, .termEnd, .sumEnd⟩

/-- What goes on a group that was just opened makes it a sum. -/
theorem Completes.derives {e s : Expr ν} {ls ls' : List Lexeme} (he : Derives .factor ls e)
    (h : Completes Group.start e ls' s) : Derives .sum (ls ++ ls') s := by
  obtain ⟨ls₁, ls₂, f, rfl, hterm, hsum⟩ := h
  rw [← List.append_assoc]
  exact .sum (.term he hterm) hsum

/-- An operation and its operand go on a group. -/
theorem Completes.operation {g : Group ν} {op : Operator} {e r s : Expr ν} {ls ls' : List Lexeme}
    (hr : Derives .factor ls r) (h : Completes (g.extend e op) r ls' s) :
    Completes g e (.operator op :: (ls ++ ls')) s := by
  obtain ⟨ls₁, ls₂, f, rfl, hterm, hsum⟩ := h
  rw [← List.append_assoc]
  cases hop : op.isProduct with
  | true =>
    simp only [Group.extend, hop, if_true] at hterm hsum
    exact ⟨.operator op :: (ls ++ ls₁), ls₂, f, rfl, .termMore hop hr hterm, hsum⟩
  | false =>
    -- The product before the operation ends, and a new one begins.
    simp only [Group.extend, hop, Bool.false_eq_true, if_false] at hterm hsum
    exact ⟨[], _, _, rfl, .termEnd, .sumMore hop (.term hr hterm) hsum⟩

theorem Closes.operation {g : Group ν} {op : Operator} {e r t : Expr ν} {ls ls' : List Lexeme}
    {outer : List (Group ν)} (hr : Derives .factor ls r)
    (h : Closes (g.extend e op) r ls' t outer) :
    Closes g e (.operator op :: (ls ++ ls')) t outer := by
  cases outer with
  | nil => exact Completes.operation hr h
  | cons g' outer =>
    obtain ⟨ls₁, ls₂, s, rfl, hs, hclose⟩ := h
    refine ⟨.operator op :: (ls ++ ls₁), ls₂, s, ?_, hs.operation hr, hclose⟩
    rw [List.cons_append, List.append_assoc]

/-! ## What is read is derived -/

theorem closes_of_read {ts : List Token} (hwf : ∀ t ∈ ts, t.lexeme.WellFormed) :
    (∀ (g : Group ν) outer t, readOperand stop g outer ts = .ok t →
      ∃ ls ls' e, ts.map Token.lexeme = ls ++ ls' ∧ Derives .factor ls e ∧
        Closes g e ls' t outer) ∧
    ∀ (g : Group ν) outer e t, readOperation stop g outer e ts = .ok t →
      Closes g e (ts.map Token.lexeme) t outer := by
  -- Both halves at once, since each of the two readers goes on with the other.
  induction ts with
  | nil =>
    refine ⟨fun g outer t h => ?_, fun g outer e t h => ?_⟩
    · cases h
    · cases outer with
      | nil =>
        rw [← Except.ok.inj h]
        exact completes_nil g e
      | cons g' outer => cases h
  | cons x ts ih =>
    obtain ⟨ihOperand, ihOperation⟩ := ih fun t ht => hwf t (List.mem_cons_of_mem _ ht)
    refine ⟨fun g outer t h => ?_, fun g outer e t h => ?_⟩
    · rw [readOperand] at h
      split at h
      · next e he =>
        exact ⟨[x.lexeme], _, e, rfl, .leaf (denotes_of_operand? (hwf x List.mem_cons_self) he),
          ihOperation g outer e t h⟩
      · split_ifs at h with hx
        -- The group that is opened here is the factor, up to where it is closed.
        obtain ⟨ls, ls', e, hls, he, ls₁, ls₂, s, rfl, hs, hclose⟩ := ihOperand _ _ _ h
        refine ⟨.opening :: ((ls ++ ls₁) ++ [.closing]), ls₂, s, ?_, .group (hs.derives he), hclose⟩
        simp [hls, hx]
    · rw [readOperation.eq_def] at h
      simp only at h
      split at h
      · next op hx =>
        obtain ⟨ls, ls', r, hls, hr, hclose⟩ := ihOperand _ _ _ h
        rw [List.map_cons, hx, hls]
        exact hclose.operation hr
      · next g' outer hx =>
        rw [List.map_cons, hx]
        exact ⟨[], _, _, rfl, completes_nil g e, ihOperation _ _ _ _ h⟩
      · cases h
      · cases h

/-! ## What is derived is read -/

/-- How the tokens `ts` of a phrase with the tree `e` are read: whatever stands
    around the phrase, reading comes to a factor that completes the tree. -/
def Reads (stop : ℕ) : Part ν → List Token → Expr ν → Prop
  | .factor, ts, e => ∀ g outer rest,
      readOperand stop g outer (ts ++ rest) = readOperation stop g outer e rest
  | .term, ts, e => ∀ sum outer rest, ∃ (g : Group ν) (e' : Expr ν),
      g.sum = sum ∧ g.term e' = e ∧
        readOperand stop ⟨sum, none⟩ outer (ts ++ rest) = readOperation stop g outer e' rest
  | .termFrom l, ts, e => ∀ (g : Group ν) outer f rest, g.term f = l →
      ∃ (g' : Group ν) (e' : Expr ν), g'.sum = g.sum ∧ g'.term e' = e ∧
        readOperation stop g outer f (ts ++ rest) = readOperation stop g' outer e' rest
  | .sum, ts, e => ∀ outer rest, ∃ (g : Group ν) (e' : Expr ν), g.close e' = e ∧
      readOperand stop Group.start outer (ts ++ rest) = readOperation stop g outer e' rest
  | .sumFrom l, ts, e => ∀ (g : Group ν) outer f rest, g.close f = l →
      ∃ (g' : Group ν) (e' : Expr ν), g'.close e' = e ∧
        readOperation stop g outer f (ts ++ rest) = readOperation stop g' outer e' rest

theorem readOperation_operator {op : Operator} {pos : ℕ} (g : Group ν) (outer : List (Group ν))
    (e : Expr ν) (ts : List Token) :
    readOperation stop g outer e (⟨.operator op, pos⟩ :: ts) =
      readOperand stop (g.extend e op) outer ts := by
  rw [readOperation.eq_def]

theorem readOperation_closing {pos : ℕ} (g g' : Group ν) (outer : List (Group ν)) (e : Expr ν)
    (ts : List Token) :
    readOperation stop g (g' :: outer) e (⟨.closing, pos⟩ :: ts) =
      readOperation stop g' outer (g.close e) ts := by
  rw [readOperation.eq_def]

theorem reads_of_derives {p : Part ν} {ls : List Lexeme} {e : Expr ν} (h : Derives p ls e)
    {ts : List Token} (hts : ts.map Token.lexeme = ls) (hwf : ∀ t ∈ ts, t.lexeme.WellFormed) :
    Reads stop p ts e := by
  induction h generalizing ts with
  | sum first more ihFirst ihMore =>
    obtain ⟨ts₁, ts₂, rfl, h₁, h₂⟩ := List.map_eq_append_iff.1 hts
    rw [List.forall_mem_append] at hwf
    intro outer rest
    obtain ⟨g, f, hsum, rfl, hread⟩ := ihFirst h₁ hwf.1 none outer (ts₂ ++ rest)
    obtain ⟨g', e', he, hread'⟩ := ihMore h₂ hwf.2 g outer f rest (by rw [Group.close, hsum]; rfl)
    exact ⟨g', e', he, by rw [List.append_assoc, ← hread', ← hread]; rfl⟩
  | sumEnd =>
    rw [List.map_eq_nil_iff] at hts
    subst hts
    exact fun g outer f rest hf => ⟨g, f, hf, rfl⟩
  | sumMore isSum operand more ihOperand ihMore =>
    obtain ⟨⟨_, pos⟩, ts', rfl, rfl, htail⟩ := List.map_eq_cons_iff.1 hts
    obtain ⟨ts₁, ts₂, rfl, h₁, h₂⟩ := List.map_eq_append_iff.1 htail
    rw [List.forall_mem_cons, List.forall_mem_append] at hwf
    intro g outer f rest hf
    -- The operation of the sum closes the product
    -- before it and keeps it as the left operand.
    obtain ⟨g', f', hsum, rfl, hread⟩ :=
      ihOperand h₁ hwf.2.1 (some (g.close f, _)) outer (ts₂ ++ rest)
    obtain ⟨g'', e', he, hread'⟩ := ihMore h₂ hwf.2.2 g' outer f' rest (by
      rw [Group.close, hsum, ← hf]
      rfl)
    refine ⟨g'', e', he, ?_⟩
    rw [List.cons_append, readOperation_operator, ← hread', List.append_assoc, ← hread,
      Group.extend, isSum]
    rfl
  | term first more ihFirst ihMore =>
    obtain ⟨ts₁, ts₂, rfl, h₁, h₂⟩ := List.map_eq_append_iff.1 hts
    rw [List.forall_mem_append] at hwf
    intro sum outer rest
    obtain ⟨g, e', hsum, he, hread⟩ := ihMore h₂ hwf.2 ⟨sum, none⟩ outer _ rest rfl
    exact ⟨g, e', hsum, he, by rw [List.append_assoc, ihFirst h₁ hwf.1, hread]⟩
  | termEnd =>
    rw [List.map_eq_nil_iff] at hts
    subst hts
    exact fun g outer f rest hf => ⟨g, f, rfl, hf, rfl⟩
  | termMore isProduct operand more ihOperand ihMore =>
    obtain ⟨⟨_, pos⟩, ts', rfl, rfl, htail⟩ := List.map_eq_cons_iff.1 hts
    obtain ⟨ts₁, ts₂, rfl, h₁, h₂⟩ := List.map_eq_append_iff.1 htail
    rw [List.forall_mem_cons, List.forall_mem_append] at hwf
    intro g outer f rest hf
    obtain ⟨g', e', hsum, he, hread⟩ := ihMore h₂ hwf.2.2 ⟨g.sum, some (g.term f, _)⟩ outer _ rest
      (by rw [← hf]; rfl)
    refine ⟨g', e', hsum, he, ?_⟩
    rw [List.cons_append, readOperation_operator, List.append_assoc, Group.extend, if_pos isProduct,
      ihOperand h₁ hwf.2.1, hread]
  | leaf denotes =>
    obtain ⟨⟨_, pos⟩, ts', rfl, rfl, htail⟩ := List.map_eq_cons_iff.1 hts
    rw [List.map_eq_nil_iff] at htail
    subst htail
    intro g outer rest
    rw [List.cons_append, readOperand, operand?_of_denotes (hwf _ List.mem_cons_self) denotes]
    rfl
  | group inner ihInner =>
    obtain ⟨⟨_, pos⟩, ts', rfl, rfl, htail⟩ := List.map_eq_cons_iff.1 hts
    obtain ⟨ts₁, ts₂, rfl, h₁, h₂⟩ := List.map_eq_append_iff.1 htail
    obtain ⟨⟨_, pos'⟩, ts₃, rfl, hclosing, h₃⟩ := List.map_eq_cons_iff.1 h₂
    rw [List.map_eq_nil_iff] at h₃
    subst h₃
    obtain rfl : _ = Lexeme.closing := hclosing
    rw [List.forall_mem_cons, List.forall_mem_append] at hwf
    intro g outer rest
    -- The inner sum is read on top of the group that it stands in.
    obtain ⟨g', e', he, hread⟩ := ihInner h₁ hwf.2.1 (g :: outer) (⟨.closing, pos'⟩ :: rest)
    rw [List.cons_append, readOperand]
    simp only [operand?, if_true]
    rw [List.append_assoc, List.singleton_append, hread, readOperation_closing, he]

/-! ## Texts -/

/-- A phrase that is an operand has lexemes. -/
theorem derives_ne_nil {p : Part ν} {ls : List Lexeme} {e : Expr ν} (h : Derives p ls e)
    (hp : p = .sum ∨ p = .term ∨ p = .factor) : ls ≠ [] := by
  induction h with
  | sum first more ihFirst =>
    intro hnil
    exact ihFirst (.inr (.inl rfl)) (List.append_eq_nil_iff.1 hnil).1
  | term first more ihFirst =>
    intro hnil
    exact ihFirst (.inr (.inr rfl)) (List.append_eq_nil_iff.1 hnil).1
  | sumEnd | sumMore | termEnd | termMore => simp at hp
  | leaf | group => exact List.cons_ne_nil _ _

/-- Tokens are read as a tree exactly if their lexemes are derived with it. -/
theorem readOperand_start_iff {ts : List Token} (hwf : ∀ t ∈ ts, t.lexeme.WellFormed)
    {e : Expr ν} :
    readOperand stop Group.start [] ts = .ok e ↔ Derives .sum (ts.map Token.lexeme) e := by
  constructor
  · intro h
    obtain ⟨ls, ls', f, hls, hf, hclose⟩ := (closes_of_read hwf).1 _ _ _ h
    rw [hls]
    exact Completes.derives hf hclose
  · intro h
    obtain ⟨g, e', rfl, hread⟩ := reads_of_derives h rfl hwf [] []
    rw [List.append_nil] at hread
    exact hread

theorem ofTokens_iff {ts : List Token} (hwf : ∀ t ∈ ts, t.lexeme.WellFormed) {e : Expr ν} :
    ofTokens stop ts = .ok e ↔ Derives .sum (ts.map Token.lexeme) e := by
  cases ts with
  | nil => exact ⟨nofun, fun h => absurd rfl (derives_ne_nil h (.inl rfl))⟩
  | cons t ts => exact readOperand_start_iff hwf

/-- A text is read as a tree exactly if its lexemes are derived with it. -/
theorem parse_eq_ok_iff {text : String} {e : Expr ν} : parse text = .ok e ↔
    ∃ ts, Token.scan text = .ok ts ∧ Derives .sum (ts.map Token.lexeme) e := by
  rw [parse]
  cases hscan : Token.scan text with
  | error err => simp [bind, Except.bind]
  | ok ts =>
    simp only [bind, Except.bind, Except.ok.injEq, exists_eq_left']
    exact ofTokens_iff (Token.wellFormed_of_mem_scanFrom hscan)

/-- A text is read as the tree that its lexemes are derived with. -/
theorem parse_of_scansTo {text : String} {ls : List Lexeme} {sign : Bool} {e : Expr ν}
    (hs : Token.ScansTo true text.toList ls sign []) (hd : Derives .sum ls e) :
    parse text = .ok e := by
  obtain ⟨ts, pos, rfl, hscan⟩ := hs 0
  refine parse_eq_ok_iff.2 ⟨ts, ?_, hd⟩
  rw [Token.scan, hscan, Token.scanFrom, Except.map, List.append_nil]

/-- Reading accepts the texts whose lexemes the grammar derives, and no others,
    and gives the tree of the derivation. No lexemes are derived with two
    trees. -/
theorem parse_iff_derives :
    (∀ (text : String) (e : Expr ν), parse text = .ok e ↔
      ∃ ts, Token.scan text = .ok ts ∧ Derives .sum (ts.map Token.lexeme) e) ∧
    ∀ (ls : List Lexeme) (e e' : Expr ν), Derives .sum ls e → Derives .sum ls e' → e = e' := by
  refine ⟨fun text e => parse_eq_ok_iff, fun ls e e' h h' => ?_⟩
  have hend : (Part.sum (ν := ν)).Stops [] := by rintro op ⟨⟩
  exact (derives_prefix_unique h h' hend hend rfl).2

end Expr

end AnchorLayout
