import AnchorLayout.Grid

/-!
# Rows of cells

The entries of an array in nested brackets: the cells of a row on one line as
far as it reaches, each further row on a line of its own, and an empty line
more between the parts of each further dimension (`bracketed`). What does not
begin the text is indented to the place of its bracket. Three points stand for
the entries, and for the rows, that are left out.
-/

namespace AnchorLayout.Text

/-- The mark of what is left out. -/
def gapMark : List Char := ['.', '.', '.']

/-- Cells with a comma, or what stands for it, and a blank after all but the
    last, in lines of `width` characters at most, if a line holds more than one
    cell. The first of them begins with `line`, the others with blanks. -/
def fillLines (comma : List Char) (indent width : Nat) (line : List Char) :
    List (List Char) → List Char
  | [] => line
  | cell :: cells =>
    let item := if cells.isEmpty then cell else cell ++ comma ++ [' ']
    if width < line.length + cell.length ∧ indent < line.length then
      line.dropLast ++ '\n' ::
        fillLines comma indent width (List.replicate indent ' ' ++ item) cells
    else fillLines comma indent width (line ++ item) cells

/-- The entries of an array of a shape in brackets, each written as its `cell`.
    The first bracket stands behind `indent - 1` characters, and one that
    closes takes a place on every line. -/
def bracketed {α : Type} (cell : α → List Char) (comma : List Char) (edge : Option Nat)
    (indent width : Nat) : (shape : List Nat) → List α → List Char
  | [], xs => xs.flatMap cell
  | [_], xs =>
    let shown := (Grid.ends edge xs).map (·.elim gapMark cell)
    let lines := fillLines comma indent (width - 1) (List.replicate indent ' ') shown
    '[' :: lines.drop indent ++ [']']
  | n :: m :: shape, xs =>
    let rows := Grid.ends edge (Grid.parts (Grid.count (m :: shape)) n xs)
    let shown := rows.map
      (·.elim gapMark (bracketed cell comma edge (indent + 1) (width - 1) (m :: shape)))
    let gap := comma ++ List.replicate (shape.length + 1) '\n' ++ List.replicate indent ' '
    '[' :: gap.intercalate shown ++ [']']

end AnchorLayout.Text
