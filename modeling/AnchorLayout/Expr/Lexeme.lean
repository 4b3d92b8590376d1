import AnchorLayout.Expr.Basic
import AnchorLayout.Text.Quoted

/-!
# Lexemes

The words of the language of expressions: numbers, references `#id.anchor` and
`$self.anchor`, the symbols of the operations, and parentheses. `Lexeme.read`
reads the one at the start of a text.

A minus sign belongs to the number that follows it where no operand stands
before it (`Lexeme.signMayFollow`), which is why reading needs to know whether
a sign is possible. Errors tell how many characters were read before the one
that cannot be.
-/

namespace AnchorLayout

/-- A word of the language of expressions. -/
inductive Lexeme where
  /-- A number, as it is written. -/
  | number (text : String)
  /-- A reference to an anchor of the shape `id`. -/
  | ref (id anchor : String)
  /-- A reference to an anchor of the shape that the expression belongs to. -/
  | selfRef (anchor : String)
  | operator (op : Operator)
  | opening
  | closing
  deriving DecidableEq, Repr

/-- Why a text is no expression. -/
inductive Misreading where
  /-- No point stands after the id of a reference, or after `$self`. -/
  | expectedPoint (after : String)
  /-- No anchor name stands after the point of a reference. -/
  | expectedAnchor (after : String)
  /-- No id stands after the `#` of a reference. -/
  | expectedId
  /-- A `$` begins something else than `$self`. -/
  | expectedSelf
  /-- A character with which no lexeme begins. -/
  | unexpectedCharacter (c : Char)
  /-- A lexeme, or the end, that does not close an open parenthesis. -/
  | expectedClosing (found : Option Lexeme)
  /-- A lexeme where an operand should begin. -/
  | unexpectedLexeme (found : Lexeme)
  /-- The end where an operand should begin. -/
  | unexpectedEnd
  /-- A lexeme after a complete expression. -/
  | expectedEnd (found : Lexeme)
  /-- A text without lexemes. -/
  | emptyText

/-- A place in a text with the reason why it cannot be read on. -/
structure SyntaxError where
  /-- The number of characters before the place. -/
  pos : Nat
  cause : Misreading

/-- Whether a character separates lexemes. -/
def isSpace (c : Char) : Bool := c == ' ' || c == '\t' || c == '\r' || c == '\n'

/-- Whether a character may stand in the id of a reference. -/
def isIdChar (c : Char) : Bool := c.isAlphanum || c == '_' || c == '-'

/-- Whether a character may stand in an anchor name after its first one, which
    is a character of an id. -/
def isAnchorChar (c : Char) : Bool := isIdChar c || c == '.'

/-- The word that refers to the shape itself. -/
def selfWord : List Char := ['$', 's', 'e', 'l', 'f']

namespace Lexeme

/-- The name of the kind of a lexeme. -/
def kind : Lexeme → String
  | .number _ => "NUMBER"
  | .ref _ _ => "REF"
  | .selfRef _ => "SELF_REF"
  | .operator .add => "PLUS"
  | .operator .sub => "MINUS"
  | .operator .mul => "STAR"
  | .operator .div => "SLASH"
  | .opening => "LPAREN"
  | .closing => "RPAREN"

/-- The characters of a lexeme. -/
def chars : Lexeme → List Char
  | .number text => text.toList
  | .ref id anchor => '#' :: (id.toList ++ '.' :: anchor.toList)
  | .selfRef anchor => selfWord ++ '.' :: anchor.toList
  | .operator op => [op.symbol]
  | .opening => ['(']
  | .closing => [')']

/-- A lexeme as it is written. -/
def text (l : Lexeme) : String := String.ofList l.chars

/-- Whether a minus sign after this lexeme may belong to a number. -/
def signMayFollow : Lexeme → Bool
  | .operator _ => true
  | .opening => true
  | _ => false

/-- The numeral at the start of a text: digits with a point after them and
    further digits, or a point and digits. -/
def numeral? (cs : List Char) : Option (List Char) :=
  let whole := cs.takeWhile Char.isDigit
  match whole.isEmpty, cs.dropWhile Char.isDigit with
  | true, '.' :: rest =>
    let fraction := rest.takeWhile Char.isDigit
    if fraction.isEmpty then none else some ('.' :: fraction)
  | true, _ => none
  | false, '.' :: rest => some (whole ++ '.' :: rest.takeWhile Char.isDigit)
  | false, _ => some whole

/-- The number at the start of a text, with its sign if one may stand there. -/
def number? (sign : Bool) : List Char → Option (List Char)
  | '-' :: cs => if sign then (numeral? cs).map ('-' :: ·) else none
  | cs => numeral? cs

/-- The anchor name after the point with which a text begins. The first `width`
    characters of the reference, called `after`, have been read. -/
def readAnchor (after : String) (width : Nat) : List Char → Except SyntaxError String
  | '.' :: cs =>
    if (cs.take 1).any isIdChar then .ok (String.ofList (cs.takeWhile isAnchorChar))
    else .error ⟨width + 1, .expectedAnchor after⟩
  | _ => .error ⟨width, .expectedPoint after⟩

/-- The reference after the `#` of a text. -/
def readRef (cs : List Char) : Except SyntaxError Lexeme :=
  let id := cs.takeWhile isIdChar
  if id.isEmpty then .error ⟨1, .expectedId⟩
  else
    (readAnchor "shape id" (1 + id.length) (cs.dropWhile isIdChar)).map (.ref (String.ofList id))

/-- The reference to the shape itself at the start of a text. -/
def readSelfRef (cs : List Char) : Except SyntaxError Lexeme :=
  if selfWord.isPrefixOf cs then
    (readAnchor "$self" selfWord.length (cs.drop selfWord.length)).map .selfRef
  else .error ⟨0, .expectedSelf⟩

/-- The lexeme that begins with the character `c` and goes on in `cs`. -/
def read (sign : Bool) (c : Char) (cs : List Char) : Except SyntaxError Lexeme :=
  match number? sign (c :: cs) with
  | some text => .ok (.number (String.ofList text))
  | none =>
    match c with
    | '+' => .ok (.operator .add)
    | '-' => .ok (.operator .sub)
    | '*' => .ok (.operator .mul)
    | '/' => .ok (.operator .div)
    | '(' => .ok .opening
    | ')' => .ok .closing
    | '#' => readRef cs
    | '$' => readSelfRef (c :: cs)
    | _ => .error ⟨0, .unexpectedCharacter c⟩

end Lexeme

namespace Misreading

/-- A lexeme, or the end of the text, as a message names it. -/
def found : Option Lexeme → String
  | some l => l.kind ++ " (" ++ Text.quote l.text ++ ")"
  | none => "EOF (" ++ Text.quote "" ++ ")"

/-- The wording of a cause. -/
def message : Misreading → String
  | .expectedPoint after => "expected \".\" after " ++ after
  | .expectedAnchor after => "expected anchor name after \"" ++ after ++ ".\""
  | .expectedId => "expected shape id after \"#\""
  | .expectedSelf => "expected \"$self\""
  | .unexpectedCharacter c => "unexpected character: " ++ Text.quote c.toString
  | .expectedClosing l => "expected RPAREN, got " ++ found l
  | .unexpectedLexeme l => "unexpected token " ++ found (some l)
  | .unexpectedEnd => "unexpected end of expression"
  | .expectedEnd l => "unexpected token " ++ found (some l) ++ ", expected end of expression"
  | .emptyText => "empty expression"

end Misreading

namespace SyntaxError

/-- The wording of an error, with its place. -/
def message (e : SyntaxError) : String := "[pos " ++ toString e.pos ++ "] " ++ e.cause.message

end SyntaxError

end AnchorLayout
