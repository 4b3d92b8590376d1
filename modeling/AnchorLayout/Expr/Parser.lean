import AnchorLayout.Expr.Token
import AnchorLayout.Decimal.Reading

/-!
# Reading expressions

A text is read from left to right, one token at a time. What stands open is
kept as a stack of groups (`Group`), one for each open parenthesis and one for
the whole: the sum and the product that wait for their right operand.
Operations of one kind associate to the left, products bind tighter than sums,
and parentheses leave no trace in the tree.

The first token that cannot go on what stands before it is where an error is
reported, so a position in an error is that of a token or the end of the text.
-/

namespace AnchorLayout

namespace Expr

variable {ν : Type}

/-- What stands before an operand between two parentheses: a sum whose right
    operand is not complete, and in that operand a product whose right factor
    is not complete. -/
structure Group (ν : Type) where
  sum : Option (Expr ν × Operator)
  product : Option (Expr ν × Operator)

namespace Group

/-- The group in which nothing has been read. -/
def start : Group ν := ⟨none, none⟩

/-- The left operand `waiting` of an operation, completed by a right one. -/
def complete (waiting : Option (Expr ν × Operator)) (right : Expr ν) : Expr ν :=
  match waiting with
  | none => right
  | some (left, op) => .binary op left right

/-- The product that a factor ends. -/
def term (g : Group ν) (factor : Expr ν) : Expr ν := complete g.product factor

/-- The expression that a factor ends. -/
def close (g : Group ν) (factor : Expr ν) : Expr ν := complete g.sum (g.term factor)

/-- The group after a factor and an operation, waiting for a further operand. -/
def extend (g : Group ν) (factor : Expr ν) (op : Operator) : Group ν :=
  if op.isProduct then ⟨g.sum, some (g.term factor, op)⟩ else ⟨some (g.close factor, op), none⟩

end Group

/-- The operand that a lexeme is by itself. -/
def operand? : Lexeme → Option (Expr ν)
  | .number text => some (.literal (Decimal.ofNumeral text.toList).toFloat)
  | .ref id anchor => some (.ref id anchor)
  | .selfRef anchor => some (.selfRef anchor)
  | _ => none

mutual

/-- Reads on where an operand should begin, in the group `g` within the groups
    `outer`. -/
def readOperand (stop : Nat) (g : Group ν) (outer : List (Group ν)) :
    List Token → Except SyntaxError (Expr ν)
  | [] => .error ⟨stop, .unexpectedEnd⟩
  | t :: ts =>
    match operand? t.lexeme with
    | some e => readOperation stop g outer e ts
    | none =>
      if t.lexeme = .opening then readOperand stop Group.start (g :: outer) ts
      else .error ⟨t.pos, .unexpectedLexeme t.lexeme⟩

/-- Reads on after the factor `e`, in the group `g` within the groups
    `outer`. -/
def readOperation (stop : Nat) (g : Group ν) (outer : List (Group ν)) (e : Expr ν) :
    List Token → Except SyntaxError (Expr ν)
  | [] =>
    match outer with
    | [] => .ok (g.close e)
    | _ :: _ => .error ⟨stop, .expectedClosing none⟩
  | t :: ts =>
    match t.lexeme, outer with
    | .operator op, outer => readOperand stop (g.extend e op) outer ts
    | .closing, g' :: outer => readOperation stop g' outer (g.close e) ts
    | l, [] => .error ⟨t.pos, .expectedEnd l⟩
    | l, _ :: _ => .error ⟨t.pos, .expectedClosing (some l)⟩

end

/-- The expression of a list of tokens, of which the text ends at `stop`. -/
def ofTokens (stop : Nat) : List Token → Except SyntaxError (Expr ν)
  | [] => .error ⟨0, .emptyText⟩
  | ts => readOperand stop Group.start [] ts

/-- The expression of a text. -/
def parse (text : String) : Except SyntaxError (Expr ν) := do
  ofTokens text.length (← Token.scan text)

end Expr

end AnchorLayout
