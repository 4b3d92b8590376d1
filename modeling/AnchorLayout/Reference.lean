import AnchorLayout.Failure

/-!
# Bare references

A text that is nothing but a reference `#id.anchor`, as it is used where a
point is asked for. The id ends at the first point and may hold any other
character; the anchor is not empty and holds no line feed, though one may end
the text.
-/

namespace AnchorLayout

/-- An anchor of a shape. -/
structure Reference where
  id : String
  anchor : String
  deriving DecidableEq, Repr

namespace Reference

/-- The parts of a reference after its `#`. -/
def split? (cs : List Char) : Option Reference :=
  let id := cs.takeWhile (· != '.')
  match cs.dropWhile (· != '.') with
  | [] => none
  | _ :: rest =>
    let anchor := rest.takeWhile (· != '\n')
    let after := rest.dropWhile (· != '\n')
    if id.isEmpty || anchor.isEmpty || 1 < after.length then none
    else some ⟨String.ofList id, String.ofList anchor⟩

/-- The reference that a text is. -/
def ofText (text : String) : Except Failure Reference :=
  match text.toList with
  | '#' :: cs =>
    match split? cs with
    | some r => .ok r
    | none => .error (.invalidReference text)
  | _ => .error (.invalidReference text)

end Reference

end AnchorLayout
