import AnchorLayout.Expr.Basic

/-!
# Evaluating expressions

The value of an expression, given what its references stand for. References are
looked up from left to right, each of them once, and in whatever way the caller
looks them up: by a function that may fail, that writes a log, that counts. An
operation is looked at after both of its operands.
-/

namespace AnchorLayout

/-- The shape that a reference names. -/
inductive Target where
  /-- The shape of this id. -/
  | shape (id : String)
  /-- The shape that the expression belongs to. -/
  | self
  deriving DecidableEq, Repr

namespace Expr

variable {ν : Type} {m : Type → Type} [Monad m]

/-- The value of an expression. `lookup` gives the anchors of shapes, and
    `flawed` answers for a tree that is no expression. -/
def evaluate (flawed : Flaw ν → m Float) (lookup : Target → String → m Float) : Expr ν → m Float
  | .literal x => pure x
  | .ref id anchor => lookup (.shape id) anchor
  | .selfRef anchor => lookup .self anchor
  | .binary op l r => do
    let left ← l.evaluate flawed lookup
    let right ← r.evaluate flawed lookup
    pure (op.apply left right)
  | .unknown symbol l r => do
    let _ ← l.evaluate flawed lookup
    let _ ← r.evaluate flawed lookup
    flawed (.unknownOperator symbol)
  | .foreign v => flawed (.notAnExpression v)

end Expr

end AnchorLayout
