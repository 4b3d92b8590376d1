import AnchorLayout.Proofs.Expr.Printer
import AnchorLayout.Proofs.Expr.Spacing

/-!
# Texts within texts

What a text is cut into may depend on what follows it: a reference takes in a
minus sign and digits behind it, a numeral takes in a point. A space or a
closing parenthesis goes on no lexeme, so before one of them a text is cut as
it is by itself (`Token.scansTo_append`). Between parentheses it is thus read
as the same tree, and an operation on two such texts is read as the operation
on their trees (`Expr.parse_group_binary`).
-/

namespace AnchorLayout

namespace Token

/-! ## Texts before an end -/

/-- A text that has tokens has the same ones before an end. -/
theorem scansTo_append {sign : Bool} {pos : ℕ} {cs rest : List Char} {ts : List Token}
    (h : scanFrom sign pos cs = .ok ts) (hr : Ends rest) :
    ∃ sign', ScansTo sign (cs ++ rest) (ts.map lexeme) sign' rest := by
  obtain ⟨hchars, hlexemes, hspaces, hparted⟩ := Spaced.sets_ofTokens h
  have hscan := Spaced.scansTo_append hspaces hparted hr.not_isAnchorChar
  rwa [hchars, hlexemes] at hscan

/-- A text that has tokens has them between parentheses too, whatever
    follows. -/
theorem scansTo_group {text : String} {ts : List Token} (h : scan text = .ok ts)
    (sign : Bool) (rest : List Char) :
    ScansTo sign (("(" ++ text ++ ")").toList ++ rest)
      (.opening :: (ts.map lexeme ++ [.closing])) false rest := by
  obtain ⟨sign', hscan⟩ := scansTo_append h (ends_closing rest)
  have hgroup := (scansTo_opening sign).trans (hscan.trans (scansTo_closing sign'))
  simpa using hgroup

end Token

namespace Expr

variable {ν : Type}

/-! ## Trees of texts in parentheses -/

/-- An operation on two phrases in parentheses is derived as the operation on
    their trees. -/
theorem derives_groups (op : Operator) {ls ls' : List Lexeme} {l r : Expr ν}
    (hl : Derives .sum ls l) (hr : Derives .sum ls' r) :
    Derives .sum ((.opening :: (ls ++ [.closing])) ++
      .operator op :: (.opening :: (ls' ++ [.closing]))) (.binary op l r) := by
  have hl' : Derives .term (.opening :: (ls ++ [.closing])) l := (Derives.group hl).toTerm
  have hr' : Derives .factor (.opening :: (ls' ++ [.closing])) r := .group hr
  cases hop : op.isProduct with
  | true => exact (hl'.times (.inl rfl) hop hr').toSum
  | false => exact hl'.toSum.plus (.inl rfl) hop hr'.toTerm

/-- Texts are put together as trees are: an operation on two texts in
    parentheses is read as the operation on what these are read as by
    themselves, and a text in parentheses as what it is read as without
    them. -/
theorem parse_group_binary {text text' : String} {e e' : Expr ν} (h : parse text = .ok e)
    (h' : parse text' = .ok e') (op : Operator) :
    parse ("(" ++ text ++ ")" ++ op.symbol.toString ++ "(" ++ text' ++ ")") =
      .ok (.binary op e e') ∧
    parse ("(" ++ text ++ ")") = .ok e := by
  obtain ⟨ts, hscan, hts⟩ := parse_eq_ok_iff.1 h
  obtain ⟨ts', hscan', hts'⟩ := parse_eq_ok_iff.1 h'
  constructor
  · refine @parse_of_scansTo ν _ _ false _ ?_ (derives_groups op hts hts')
    have hright := (Token.scansTo_operator op).trans (Token.scansTo_group hscan' true [])
    have hboth := (Token.scansTo_group hscan true _).trans hright
    simpa using hboth
  · refine @parse_of_scansTo ν _ _ false _ ?_ (Derives.group hts).toTerm.toSum
    simpa using Token.scansTo_group hscan true []

/-- Two texts of which the first ends and the second begins with characters that
    would go on a neighbour outside of parentheses. -/
theorem parse_group_binary_reference :
    let e : Expr Unit := .ref "a" "b-5"
    let e' : Expr Unit := .literal (Decimal.ofNumeral "-.5".toList).toFloat
    parse "#a.b-5" = .ok e ∧ parse "-.5" = .ok e' ∧
      parse ("(" ++ "#a.b-5" ++ ")" ++ Operator.sub.symbol.toString ++ "(" ++ "-.5" ++ ")") =
        .ok (.binary .sub e e') ∧
      parse ("(" ++ "#a.b-5" ++ ")") = .ok e := by
  intro e e'
  have hscan : Token.scan "#a.b-5" = .ok [⟨.ref "a" "b-5", 0⟩] := by cbv
  have hscan' : Token.scan "-.5" = .ok [⟨.number "-.5", 0⟩] := by cbv
  have h : parse "#a.b-5" = .ok e := by
    rw [parse, hscan]
    rfl
  have h' : parse "-.5" = .ok e' := by
    rw [parse, hscan']
    rfl
  exact ⟨h, h', parse_group_binary h h' .sub⟩

end Expr

end AnchorLayout
