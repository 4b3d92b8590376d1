import AnchorLayout.Proofs.Expr.Meaning
import AnchorLayout.Proofs.Expr.Spacing
import AnchorLayout.Proofs.Registry.BareReferences

/-!
# The shape itself by its id

In an expression that belongs to a shape, `$self` is short for the id of the
shape, provided that expressions can name it. Where the id is written out, all
other lexemes stay what they are, because none is read on by a `#`
(`Spaced.Parted.named`), and the tree stays as it is but for its references to
the shape itself (`Expr.derives_named`). These were looked up under the id all
along (`Registry.evaluate_named`). So the text has the same value, or it cannot
be resolved for the same reason (`Registry.resolve_named`).
-/

namespace AnchorLayout

/-! ## Lexemes -/

namespace Lexeme

/-- A lexeme with the shape itself referred to by its id. -/
def named (id : String) : Lexeme → Lexeme
  | .number text => .number text
  | .ref id' anchor => .ref id' anchor
  | .selfRef anchor => .ref id anchor
  | .operator op => .operator op
  | .opening => .opening
  | .closing => .closing

variable {id : String} {l : Lexeme}

theorem WellFormed.named (h : l.WellFormed) (hid : IsId id) : (l.named id).WellFormed := by
  cases l with
  | selfRef anchor => exact ⟨hid, h⟩
  | number | ref | operator | opening | closing => exact h

@[simp] theorem signMayFollow_named : (l.named id).signMayFollow = l.signMayFollow := by
  cases l <;> rfl

theorem mayStand_named {sign : Bool} : (l.named id).MayStand sign ↔ l.MayStand sign := by
  cases l <;> rfl

theorem goesOn_named {sign : Bool} {c : Char} : (l.named id).GoesOn sign c ↔ l.GoesOn sign c := by
  cases l <;> rfl

/-- A lexeme begins as it did, or with a `#`, which no name holds. -/
theorem mem_head?_named {c : Char} (hc : c ∈ (l.named id).chars.head?) :
    c ∈ l.chars.head? ∨ isAnchorChar c = false := by
  cases l with
  | selfRef anchor =>
    cases hc
    exact .inr rfl
  | number | ref | operator | opening | closing => exact .inl hc

end Lexeme

/-! ## Texts -/

namespace Spaced

/-- The row with other lexemes in the places of these. -/
def map (f : Lexeme → Lexeme) : Spaced → Spaced
  | .last gap => .last gap
  | .before gap l more => .before gap (f l) (more.map f)

theorem lexemes_map (f : Lexeme → Lexeme) (s : Spaced) :
    (s.map f).lexemes = s.lexemes.map f := by
  induction s with
  | last gap => rfl
  | before gap l more ih => rw [map, lexemes, lexemes, ih, List.map_cons]

theorem gaps_map (f : Lexeme → Lexeme) (s : Spaced) : (s.map f).gaps = s.gaps := by
  induction s with
  | last gap => rfl
  | before gap l more ih => rw [map, gaps, gaps, ih]

theorem mem_touching_named {id : String} {s : Spaced} {c : Char}
    (hc : c ∈ (s.map (Lexeme.named id)).touching) : c ∈ s.touching ∨ isAnchorChar c = false := by
  cases s with
  | last gap => cases hc
  | before gap l more =>
    cases gap with
    | nil => exact Lexeme.mem_head?_named hc
    | cons => cases hc

/-- Where the shape itself is referred to by its id, no lexeme is gone on by
    what has come to touch it. -/
theorem Parted.named {sign : Bool} {s : Spaced} (h : s.Parted sign) {id : String} (hid : IsId id) :
    (s.map (Lexeme.named id)).Parted sign := by
  induction s generalizing sign with
  | last gap => trivial
  | before gap l more ih =>
    obtain ⟨hwf, hsign, hends, hparted⟩ := h
    refine ⟨hwf.named hid, Lexeme.mayStand_named.2 hsign, fun c hc hgo => ?_, ?_⟩
    · have hgo' := Lexeme.goesOn_named.1 hgo
      rcases mem_touching_named hc with hc | hc
      · exact hends c hc hgo'
      · exact Lexeme.not_goesOn hc hgo'
    · rw [Lexeme.signMayFollow_named]
      exact ih hparted

end Spaced

/-! ## Trees -/

namespace Expr

variable {ν : Type}

/-- A tree with the shape itself referred to by its id. -/
def named (id : String) : Expr ν → Expr ν
  | .literal x => .literal x
  | .ref id' anchor => .ref id' anchor
  | .selfRef anchor => .ref id anchor
  | .binary op l r => .binary op (l.named id) (r.named id)
  | .unknown symbol l r => .unknown symbol (l.named id) (r.named id)
  | .foreign v => .foreign v

/-- A part of the grammar, with the shape itself referred to by its id in what
    stands before it. -/
def Part.named (id : String) : Part ν → Part ν
  | .sum => .sum
  | .sumFrom left => .sumFrom (left.named id)
  | .term => .term
  | .termFrom left => .termFrom (left.named id)
  | .factor => .factor

theorem operand?_named (id : String) (l : Lexeme) :
    operand? (ν := ν) (l.named id) = (operand? l).map (Expr.named id) := by
  cases l <;> rfl

theorem derives_named {id : String} (hid : IsId id) {p : Part ν} {ls : List Lexeme} {e : Expr ν}
    (h : Derives p ls e) (hwf : ∀ l ∈ ls, l.WellFormed) :
    Derives (p.named id) (ls.map (Lexeme.named id)) (e.named id) := by
  induction h with
  | sum first more ihFirst ihMore =>
    rw [List.forall_mem_append] at hwf
    rw [List.map_append]
    exact .sum (ihFirst hwf.1) (ihMore hwf.2)
  | sumEnd => exact .sumEnd
  | sumMore isSum operand more ihOperand ihMore =>
    rw [List.forall_mem_cons, List.forall_mem_append] at hwf
    rw [List.map_cons, List.map_append]
    exact .sumMore isSum (ihOperand hwf.2.1) (ihMore hwf.2.2)
  | term first more ihFirst ihMore =>
    rw [List.forall_mem_append] at hwf
    rw [List.map_append]
    exact .term (ihFirst hwf.1) (ihMore hwf.2)
  | termEnd => exact .termEnd
  | termMore isProduct operand more ihOperand ihMore =>
    rw [List.forall_mem_cons, List.forall_mem_append] at hwf
    rw [List.map_cons, List.map_append]
    exact .termMore isProduct (ihOperand hwf.2.1) (ihMore hwf.2.2)
  | @leaf l e denotes =>
    have hl := hwf _ List.mem_cons_self
    have hoperand : operand? (l.named id) = some (e.named id) := by
      rw [operand?_named, operand?_of_denotes hl denotes, Option.map_some]
    exact .leaf (denotes_of_operand? (hl.named hid) hoperand)
  | group inner ihInner =>
    rw [List.forall_mem_cons, List.forall_mem_append] at hwf
    rw [List.map_cons, List.map_append]
    exact .group (ihInner hwf.2.1)

/-- A tree has the same value where the shape itself is referred to by its id,
    if the id is looked up as the shape itself was. -/
theorem evaluate_named {m : Type → Type} [Monad m] {flawed : Flaw ν → m Float}
    {lookup lookup' : Target → String → m Float} {id : String}
    (hshape : ∀ id' anchor, lookup' (.shape id') anchor = lookup (.shape id') anchor)
    (hself : ∀ anchor, lookup' (.shape id) anchor = lookup .self anchor) (e : Expr ν) :
    (e.named id).evaluate flawed lookup' = e.evaluate flawed lookup := by
  induction e with
  | literal x => rfl
  | ref id' anchor => exact hshape id' anchor
  | selfRef anchor => exact hself anchor
  | binary op l r ihl ihr => rw [named, evaluate, evaluate, ihl, ihr]
  | unknown symbol l r ihl ihr => rw [named, evaluate, evaluate, ihl, ihr]
  | foreign v => rfl

/-- A tree of the language fails only as one of its references does. -/
theorem exists_lookup_of_evaluate_error {flawed : Flaw ν → Except Failure Float}
    {lookup : Target → String → Except Failure Float} {e : Expr ν} (he : e.WellNamed)
    {err : Failure} (h : e.evaluate flawed lookup = .error err) :
    ∃ target anchor, lookup target anchor = .error err := by
  induction e generalizing err with
  | literal x => cases h
  | ref id anchor => exact ⟨.shape id, anchor, h⟩
  | selfRef anchor => exact ⟨.self, anchor, h⟩
  | binary op l r ihl ihr =>
    rw [evaluate, except_bind_error_iff] at h
    obtain hl | ⟨x, -, h⟩ := h
    · exact ihl he.1 hl
    · obtain hr | ⟨y, -, ⟨⟩⟩ := except_bind_error_iff.1 h
      exact ihr he.2 hr
  | unknown | foreign => exact he.elim

/-- Where each reference to the shape itself fails in a way that nothing else
    does, an evaluation fails at such a reference, or it gets to none, and has
    the same result wherever shapes are looked up alike. -/
theorem evaluate_cases (flawed : Flaw ν → Except Failure Float)
    {lookup : Target → String → Except Failure Float} {failure : String → Failure}
    (hself : ∀ anchor, lookup .self anchor = .error (failure anchor))
    (hshape : ∀ id anchor anchor', lookup (.shape id) anchor ≠ .error (failure anchor'))
    {e : Expr ν} (he : e.WellNamed) :
    (∃ anchor, e.evaluate flawed lookup = .error (failure anchor) ∧
      ∀ lookup', (∀ id anchor, lookup' (.shape id) anchor = lookup (.shape id) anchor) →
        ∀ err, lookup' .self anchor = .error err → e.evaluate flawed lookup' = .error err) ∨
    (∀ anchor, e.evaluate flawed lookup ≠ .error (failure anchor)) ∧
      ∀ lookup', (∀ id anchor, lookup' (.shape id) anchor = lookup (.shape id) anchor) →
        e.evaluate flawed lookup' = e.evaluate flawed lookup := by
  induction e with
  | literal x => exact .inr ⟨nofun, fun _ _ => rfl⟩
  | ref id anchor => exact .inr ⟨hshape id anchor, fun _ h => h id anchor⟩
  | selfRef anchor => exact .inl ⟨anchor, hself anchor, fun _ _ _ h => h⟩
  | binary op l r ihl ihr =>
    obtain ⟨anchor, hl, hl'⟩ | ⟨hl, hl'⟩ := ihl he.1
    · refine .inl ⟨anchor, by rw [evaluate, hl]; rfl, fun lookup' hsame err herr => ?_⟩
      rw [evaluate, hl' lookup' hsame err herr]
      rfl
    · cases hx : l.evaluate flawed lookup with
      | error err =>
        refine .inr ⟨fun anchor h => ?_, fun lookup' hsame => ?_⟩
        · rw [evaluate, hx] at h
          exact hl anchor (hx.trans h)
        · rw [evaluate, evaluate, hl' lookup' hsame, hx]
          rfl
      | ok x =>
        obtain ⟨anchor, hr, hr'⟩ | ⟨hr, hr'⟩ := ihr he.2
        · refine .inl ⟨anchor, by rw [evaluate, hx, hr]; rfl, fun lookup' hsame err herr => ?_⟩
          rw [evaluate, hl' lookup' hsame, hx, hr' lookup' hsame err herr]
          rfl
        · refine .inr ⟨fun anchor h => ?_, fun lookup' hsame => ?_⟩
          · rw [evaluate, hx] at h
            change (r.evaluate flawed lookup >>= _) = _ at h
            obtain h | ⟨y, -, ⟨⟩⟩ := except_bind_error_iff.1 h
            exact hr anchor h
          · rw [evaluate, evaluate, hl' lookup' hsame, hr' lookup' hsame]
  | unknown | foreign => exact he.elim

end Expr

/-! ## Values -/

namespace Registry

theorem evaluate_named (r : Registry) (id : String) (self : Option ShapeId) (e : Expr Value) :
    r.evaluate self (e.named id) = r.evaluate (some (.text id)) e := by
  have hshape : ∀ id' anchor,
      r.scalar self (.shape id') anchor = r.scalar (some (.text id)) (.shape id') anchor :=
    fun _ _ => rfl
  have hself : ∀ anchor,
      r.scalar self (.shape id) anchor = r.scalar (some (.text id)) .self anchor := fun _ => rfl
  exact Expr.evaluate_named hshape hself e

/-- In an expression that belongs to a shape, nothing fails but references that
    cannot be resolved. -/
theorem category_of_evaluate {r : Registry} {id : String} {e : Expr Value} (he : e.WellNamed)
    {err : Failure} (h : r.evaluate (some (.text id)) e = .error err) :
    err.category = .resolution := by
  obtain ⟨target, anchor, herr⟩ := Expr.exists_lookup_of_evaluate_error he h
  cases target with
  | shape id' => exact (r.outcomes id' anchor).category.1 err herr
  | self => exact (r.outcomes id anchor).category.1 err herr

/-- An expression that belongs to no shape fails at a reference to the shape
    itself, or its evaluation gets to none, and has the same result whatever
    shape it belongs to. -/
theorem valueOf_cases (r : Registry) (text : String) :
    (∃ anchor, r.valueOf none text = .error (.selfUnknown anchor) ∧
      ∀ id err, r.number id anchor = .error err → r.valueOf (some id) text = .error err) ∨
    (∀ anchor, r.valueOf none text ≠ .error (.selfUnknown anchor)) ∧
      ∀ self, r.valueOf self text = r.valueOf none text := by
  simp only [valueOf, expression]
  cases he : (Expr.parse text : Except SyntaxError (Expr Value)) with
  | error err =>
    refine .inr ⟨fun anchor h => ?_, fun _ => rfl⟩
    cases h
  | ok e =>
    have hshape : ∀ id anchor anchor',
        r.scalar none (.shape id) anchor ≠ .error (.selfUnknown anchor') := by
      intro id anchor anchor' h
      have houtcomes := r.outcomes id anchor
      change r.number (.text id) anchor = _ at h
      rw [h] at houtcomes
      cases houtcomes
    have hself : ∀ anchor, r.scalar none .self anchor = .error (.selfUnknown anchor) :=
      fun _ => rfl
    obtain ⟨anchor, h, h'⟩ | ⟨h, h'⟩ :=
      Expr.evaluate_cases (fun flaw => .error (.notEvaluable flaw)) hself hshape
        (Expr.wellNamed_of_parse he)
    · exact .inl ⟨anchor, h, fun id err => h' (r.scalar (some id)) (fun _ _ => rfl) err⟩
    · exact .inr ⟨h, fun self => h' (r.scalar self) fun _ _ => rfl⟩

/-- A text that belongs to a shape known by a text, or to none, is no
    expression, or it has a reference that cannot be resolved, or it has a
    value. -/
theorem category_of_valueOf {r : Registry} {self : Option String} {text : String} {err : Failure}
    (h : r.valueOf (self.map .text) text = .error err) :
    err.category = .syntaxError ∨ err.category = .resolution := by
  simp only [valueOf, expression] at h
  cases he : (Expr.parse text : Except SyntaxError (Expr Value)) with
  | error e =>
    rw [he] at h
    cases h
    exact .inl rfl
  | ok e =>
    rw [he] at h
    refine .inr ?_
    cases self with
    | some id => exact category_of_evaluate (Expr.wellNamed_of_parse he) h
    | none =>
      obtain ⟨target, anchor, herr⟩ :=
        Expr.exists_lookup_of_evaluate_error (Expr.wellNamed_of_parse he) h
      cases target with
      | shape id => exact (r.outcomes id anchor).category.1 err herr
      | self =>
        cases herr
        rfl

/-- In an expression that belongs to a shape, `$self` is short for the id of
    the shape. If the id is written out in each reference to the shape itself,
    and nothing else of the text is changed, the text is an expression too. In
    every registry, whatever shape this one belongs to, it has the same value,
    or it cannot be resolved for the same reason. -/
theorem resolve_named {text id : String} {e : Expr Value} (hid : IsId id)
    (he : Expr.parse text = .ok e) :
    ∃ ts, Token.scan text = .ok ts ∧
      let text' := String.ofList
        ((Spaced.ofTokens 0 text.toList ts).map (Lexeme.named id)).chars
      Expr.parse text' = .ok (e.named id) ∧
      ∀ (r : Registry) (self self' : SelfArgument) (j j' : Journal),
        self.id? = some (.text id) →
        (resolve text self ⟨r, j⟩).1 = (resolve text' self' ⟨r, j'⟩).1 ∧
        ∀ err, (resolve text self ⟨r, j⟩).1 = .error err → err.category = .resolution := by
  obtain ⟨ts, hts, hderives⟩ := Expr.parse_eq_ok_iff.1 he
  refine ⟨ts, hts, ?_⟩
  obtain ⟨-, hlexemes, hspaces, hparted⟩ := Spaced.sets_ofTokens hts
  generalize Spaced.ofTokens 0 text.toList ts = s at hlexemes hspaces hparted ⊢
  intro text'
  have hparse : Expr.parse text' = .ok (e.named id) := by
    have hspaces' : (s.map (Lexeme.named id)).OnlySpaces := by
      rw [Spaced.OnlySpaces, Spaced.gaps_map]
      exact hspaces
    obtain ⟨ts', hts', hls⟩ :=
      Spaced.exists_scan String.toList_ofList hspaces' (hparted.named hid)
    rw [Spaced.lexemes_map, hlexemes] at hls
    have hwf := List.forall_mem_map.2 (Token.wellFormed_of_mem_scanFrom hts)
    exact Expr.parse_eq_ok_iff.2 ⟨ts', hts', hls ▸ Expr.derives_named hid hderives hwf⟩
  refine ⟨hparse, fun r self self' j j' hself => ?_⟩
  have hvalue : r.valueOf self.id? text = r.evaluate (some (.text id)) e := by
    rw [hself, valueOf, expression, he]
    rfl
  rw [resolve_fst, resolve_fst, hvalue]
  refine ⟨?_, fun err herr => category_of_evaluate (Expr.wellNamed_of_parse he) herr⟩
  rw [valueOf, expression, hparse, ← evaluate_named r id self'.id? e]
  rfl

/-- An expression in which references to the shape itself touch other
    lexemes. -/
theorem resolve_named_touching :
    let r : Registry := { anchors := [(.text "s-1", [("w", .number 3), ("x.y", .number 1)])] }
    IsId "s-1" ∧
    Token.scan "2*$self.w/-.5-$self.x.y" = .ok [⟨.number "2", 0⟩, ⟨.operator .mul, 1⟩,
      ⟨.selfRef "w", 2⟩, ⟨.operator .div, 9⟩, ⟨.number "-.5", 10⟩, ⟨.operator .sub, 13⟩,
      ⟨.selfRef "x.y", 14⟩] ∧
    ∃ e : Expr Value, Expr.parse "2*$self.w/-.5-$self.x.y" = .ok e ∧
      Expr.parse "2*#s-1.w/-.5-#s-1.x.y" = .ok (e.named "s-1") ∧
      (resolve "2*$self.w/-.5-$self.x.y" (.byName (.text "s-1")) ⟨r, {}⟩).1 =
        (resolve "2*#s-1.w/-.5-#s-1.x.y" (.byPlace none) ⟨r, {}⟩).1 := by
  intro r
  have hid : IsId "s-1" := by decide
  have hscan : Token.scan "2*$self.w/-.5-$self.x.y" = .ok [⟨.number "2", 0⟩, ⟨.operator .mul, 1⟩,
      ⟨.selfRef "w", 2⟩, ⟨.operator .div, 9⟩, ⟨.number "-.5", 10⟩, ⟨.operator .sub, 13⟩,
      ⟨.selfRef "x.y", 14⟩] := by cbv
  obtain ⟨e, he⟩ : ∃ e : Expr Value, Expr.parse "2*$self.w/-.5-$self.x.y" = .ok e := by
    rw [Expr.parse, hscan]
    exact ⟨_, rfl⟩
  obtain ⟨ts, hts, hparse, hr⟩ := resolve_named hid he
  obtain rfl := Except.ok.inj (hscan.symm.trans hts)
  exact ⟨hid, hscan, e, he, hparse, (hr r (.byName (.text "s-1")) (.byPlace none) {} {} rfl).1⟩

end Registry

end AnchorLayout
