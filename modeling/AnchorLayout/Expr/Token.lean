import AnchorLayout.Expr.Lexeme

/-!
# Tokens

A token is a lexeme with its place in a text. `Token.scan` cuts a text into its
tokens; between them stands nothing but space. Where tokens are shown, the end
of the text is listed behind them (`Token.listing`).
-/

namespace AnchorLayout

/-- A lexeme of a text, with the number of characters before it. -/
structure Token where
  lexeme : Lexeme
  pos : Nat
  deriving DecidableEq, Repr

namespace Token

/-- The tokens of the text `cs`, before which `pos` characters have been read;
    `sign` tells whether a number may begin with a minus sign. -/
def scanFrom (sign : Bool) (pos : Nat) : List Char → Except SyntaxError (List Token)
  | [] => .ok []
  | c :: cs =>
    if isSpace c then scanFrom sign (pos + 1) cs
    else
      match Lexeme.read sign c cs with
      | .error e => .error { e with pos := pos + e.pos }
      | .ok l =>
        let width := l.chars.length
        (scanFrom l.signMayFollow (pos + width) (cs.drop (width - 1))).map (⟨l, pos⟩ :: ·)
termination_by cs => cs.length
decreasing_by
  · simp
  · simp only [List.length_drop, List.length_cons]; omega

/-- The tokens of a text. -/
def scan (text : String) : Except SyntaxError (List Token) := scanFrom true 0 text.toList

/-- A token as it is listed: the name of its kind, its text, and the number of
    characters before it. -/
structure Row where
  kind : String
  text : String
  pos : Nat
  deriving DecidableEq, Repr

/-- The row of a token. -/
def row (t : Token) : Row := ⟨t.lexeme.kind, t.lexeme.text, t.pos⟩

/-- The row of the end of a text. -/
def endRow (text : String) : Row := ⟨"EOF", "", text.length⟩

/-- The rows of all tokens of a text, and that of its end. -/
def listing (text : String) : Except SyntaxError (List Row) := do
  return (← scan text).map row ++ [endRow text]

end Token

end AnchorLayout
