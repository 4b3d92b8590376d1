import AnchorLayout.Expr.Basic
import AnchorLayout.Decimal.Written

/-!
# Writing expressions

The canonical text of an expression: one space on either side of an operation,
and parentheses only where the tree would be read differently without them. A
right operand of equal rank needs them, because operations associate to the
left.
-/

namespace AnchorLayout

namespace Expr

variable {ν : Type}

/-- How tightly the outermost part of an expression binds. -/
def rank : Expr ν → Nat
  | .binary op _ _ => if op.isProduct then 2 else 1
  | _ => 3

/-- A text in parentheses, if they are needed. -/
def parenthesized (needed : Bool) (text : String) : String :=
  if needed then "(" ++ text ++ ")" else text

/-- The canonical text of an expression. A tree that is none has no text; of
    several flaws the first one is told. -/
def format : Expr ν → Except (Flaw ν) String
  | .literal x => .ok (Decimal.plain x)
  | .ref id anchor => .ok ("#" ++ id ++ "." ++ anchor)
  | .selfRef anchor => .ok ("$self." ++ anchor)
  | .binary op l r => do
    let left ← l.format
    let right ← r.format
    let rank := if op.isProduct then 2 else 1
    return parenthesized (l.rank < rank) left ++ " " ++ op.symbol.toString ++ " " ++
      parenthesized (r.rank ≤ rank) right
  | .unknown symbol _ _ => .error (.unknownOperator symbol)
  | .foreign v => .error (.notAnExpression v)

end Expr

end AnchorLayout
