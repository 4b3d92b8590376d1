import AnchorLayout.Value.Display

/-!
# Short texts for data

What stands for a datum in a log: its text, cut where it grows too long.
Collections show their first items only and nested ones stop at a depth, long
texts and numbers lose their middle, and members of a mapping are summed up one
by one.
-/

namespace AnchorLayout

namespace Value

/-- How much of a datum a log shows. -/
structure Limits where
  /-- Items of an array and members of a mapping. -/
  maxItems : Int := 6
  /-- Characters of any other datum. -/
  maxLength : Int := 300

/-- The number of items that a nested collection shows. -/
def shownItems : Nat := 8

/-- The depth to which collections are shown. -/
def shownDepth : Nat := 6

/-- A text of `limit` characters at most, of which the middle is left out if it
    is longer. -/
def elide (limit : Nat) (cs : List Char) : List Char :=
  if cs.length ≤ limit then cs
  else
    let left := (limit - 3) / 2
    let right := limit - 3 - left
    cs.take left ++ '.' :: '.' :: '.' :: cs.drop (cs.length - right)

/-- The text of `s` elided to `limit` characters. -/
def elideText (limit : Nat) (s : String) : String := String.ofList (elide limit s.toList)

/-- The most characters of a text, an integer and any other datum that are
    shown. -/
def textLimit : Nat := 120
def integerLimit : Nat := 40
def otherLimit : Nat := 120

/-- The last `n` characters of a text. A text of fewer characters is gone round
    once: of one with `n - k` characters these are the last `k`, or all if
    there are not so many. -/
def lastChars (n : Nat) (cs : List Char) : List Char :=
  if n ≤ cs.length then cs.drop (cs.length - n) else cs.drop (2 * cs.length - n)

/-- A quoted text, cut short. If the quoted form of its beginning is too long,
    the two ends of the text are quoted together and the middle of that is left
    out. -/
def elideQuoted (s : String) : String :=
  let cs := s.toList
  let head := Text.quoteChars (cs.take textLimit)
  if head.length ≤ textLimit then String.ofList head
  else
    let left := (textLimit - 3) / 2
    let right := textLimit - 3 - left
    let ends := Text.quoteChars (cs.take left ++ lastChars right cs)
    String.ofList (ends.take left ++ '.' :: '.' :: '.' :: lastChars right ends)

/-- The items shown of a collection, with a mark if there are more. -/
def shown (ts : List String) : List String :=
  if ts.length ≤ shownItems then ts else ts.take shownItems ++ ["..."]

/-- The text of a list of shown items. -/
def listText (ts : List String) : String := "[" ++ commaJoin (shown ts) ++ "]"

mutual

/-- The text of a datum with collections shown down to `depth` levels. -/
def brief (depth : Nat) : Value → String
  | .text s => elideQuoted s
  | .int n => elideText integerLimit (toString n)
  | .list items =>
    match depth, items with
    | _, [] => "[]"
    | 0, _ => "[...]"
    | depth + 1, items => listText (briefItems depth items)
  | .tuple items =>
    match depth, items with
    | _, [] => "()"
    | 0, _ => "(...)"
    | depth + 1, items => tupleText (shown (briefItems depth items))
  | .mapping members =>
    match depth, members with
    | _, [] => "\x7b\x7d"
    | 0, _ => "\x7b...\x7d"
    | depth + 1, members =>
      let entries := (briefMembers depth members).mergeSort fun m n => !decide (n.1 < m.1)
      "\x7b" ++ commaJoin (shown (entries.map fun m => m.2)) ++ "\x7d"
  | v => elideText otherLimit v.display

/-- The texts of the items of a collection. -/
def briefItems (depth : Nat) : List Value → List String
  | [] => []
  | v :: vs => brief depth v :: briefItems depth vs

/-- The texts of the members of a mapping, with their keys. -/
def briefMembers (depth : Nat) : List (String × Value) → List (String × String)
  | [] => []
  | (k, v) :: ms => (k, elideQuoted k ++ ": " ++ brief depth v) :: briefMembers depth ms

end

/-- A text that is cut after `limit` characters, or before as many from its end
    if `limit` is negative, with a note that it is. -/
def truncate (limit : Int) (s : String) : String :=
  let cs := s.toList
  if (cs.length : Int) ≤ limit then s
  else
    let kept := if limit < 0 then cs.length - limit.natAbs else limit.toNat
    String.ofList (cs.take kept) ++ "... (truncated)"

/-- The text of an array: its rows if it has few numbers, else its shape. -/
def arraySummary (limits : Limits) (shape : List Nat) (data : List Float) : String :=
  if (Grid.count shape : Int) ≤ limits.maxItems then
    "ndarray(" ++ brief shownDepth (nest shape data) ++ ")"
  else
    "ndarray(shape=" ++ tupleText (shape.map fun n => toString n) ++ ", dtype=float64)"

/-- The first `limit` shown members of a mapping, with the number of the
    others. -/
def fewMembers (limit : Int) (ts : List String) : List String :=
  if ts.isEmpty ∨ (ts.length : Int) ≤ limit then ts
  else ts.take limit.toNat ++ ["... +" ++ toString ((ts.length : Int) - limit)]

mutual

/-- The text that stands for a datum in a log. Limits given by the caller hold
    for the outermost level only. -/
def summary (limits : Limits) : Value → String
  | .array shape data => arraySummary limits shape data
  | .mapping members =>
    "\x7b" ++ commaJoin (fewMembers limits.maxItems (summaryMembers members)) ++ "\x7d"
  | v => truncate limits.maxLength (brief shownDepth v)

/-- The texts of the members of a mapping in a log. -/
def summaryMembers : List (String × Value) → List String
  | [] => []
  | (k, v) :: ms => (k ++ "=" ++ summary {} v) :: summaryMembers ms

end

end Value

end AnchorLayout
