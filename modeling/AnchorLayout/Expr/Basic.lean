/-!
# Expressions

The expressions that place a shape: numbers, references to an anchor of another
shape (`ref`) or of the shape itself (`selfRef`), and the four operations of
arithmetic. A tree that was not read from a text may also hold an operation
under another symbol (`unknown`) or a datum of type `ν` where an expression
belongs (`foreign`); no text is read as such a tree.
-/

namespace AnchorLayout

/-- The operations of arithmetic. -/
inductive Operator
  | add
  | sub
  | mul
  | div
  deriving DecidableEq, Repr

namespace Operator

/-- The symbol of an operation. -/
def symbol : Operator → Char
  | .add => '+'
  | .sub => '-'
  | .mul => '*'
  | .div => '/'

/-- The operation of a symbol. -/
def ofSymbol? (s : String) : Option Operator :=
  [add, sub, mul, div].find? fun op => s == op.symbol.toString

/-- Whether the operation is one of a product and so binds tighter than those
    of a sum. -/
def isProduct : Operator → Bool
  | .add => false
  | .sub => false
  | .mul => true
  | .div => true

/-- The value of an operation, as IEEE 754 has it: a division by zero is no
    error, but infinite or no number. -/
def apply : Operator → Float → Float → Float
  | .add => (· + ·)
  | .sub => (· - ·)
  | .mul => (· * ·)
  | .div => (· / ·)

end Operator

/-- An expression, with leaves of type `ν` where a datum stands that is no
    expression. -/
inductive Expr (ν : Type) where
  /-- A number. -/
  | literal (value : Float)
  /-- An anchor of the shape `id`. -/
  | ref (id anchor : String)
  /-- An anchor of the shape that the expression belongs to. -/
  | selfRef (anchor : String)
  /-- An operation of arithmetic. -/
  | binary (op : Operator) (left right : Expr ν)
  /-- An operation that is not one of arithmetic. -/
  | unknown (symbol : String) (left right : Expr ν)
  /-- A datum that is no expression. -/
  | foreign (datum : ν)

/-- What keeps a tree from being an expression. -/
inductive Flaw (ν : Type) where
  /-- An operation under this symbol. -/
  | unknownOperator (symbol : String)
  /-- A datum in the place of an expression. -/
  | notAnExpression (datum : ν)

namespace Expr

variable {ν : Type}

/-- The anchor names of all references of an expression, from left to right. -/
def anchors : Expr ν → List String
  | .ref _ anchor => [anchor]
  | .selfRef anchor => [anchor]
  | .binary _ left right => left.anchors ++ right.anchors
  | .unknown _ left right => left.anchors ++ right.anchors
  | .literal _ => []
  | .foreign _ => []

/-- Whether two expressions are equal, where numbers are equal as numbers, so
    that the two zeros are equal and what is no number is not equal to itself,
    and data by a given test. -/
def sameAs (same : ν → ν → Bool) : Expr ν → Expr ν → Bool
  | .literal x, .literal y => x == y
  | .ref id anchor, .ref id' anchor' => id == id' && anchor == anchor'
  | .selfRef anchor, .selfRef anchor' => anchor == anchor'
  | .binary op l r, .binary op' l' r' => op == op' && l.sameAs same l' && r.sameAs same r'
  | .unknown s l r, .unknown s' l' r' => s == s' && l.sameAs same l' && r.sameAs same r'
  | .foreign v, .foreign w => same v w
  | _, _ => false

end Expr

end AnchorLayout
