import AnchorLayout.Value.Number

/-!
# View boxes

The part of the plane that is to be seen. A scene gives it as a text of four
numbers, as a list of them, or as a mapping that names them
(`ViewBox.ofValue`).
-/

namespace AnchorLayout

/-- A box by its left upper corner and its size. -/
structure ViewBox where
  minX : Float
  minY : Float
  width : Float
  height : Float

namespace ViewBox

/-- The right edge. -/
def maxX (v : ViewBox) : Float := v.minX + v.width

/-- The lower edge. -/
def maxY (v : ViewBox) : Float := v.minY + v.height

/-- The text that stands for a view box in messages. -/
def display (v : ViewBox) : String :=
  "ViewBox(min_x=" ++ Decimal.literal v.minX ++ ", min_y=" ++ Decimal.literal v.minY ++
    ", width=" ++ Decimal.literal v.width ++ ", height=" ++ Decimal.literal v.height ++ ")"

/-- The view box of four data that stand for numbers. The first that does not
    is the error. -/
def ofNumbers (minX minY width height : Value) : Except Failure ViewBox := do
  let x ← minX.toFloat
  let y ← minY.toFloat
  let w ← width.toFloat
  let h ← height.toFloat
  return ⟨x, y, w, h⟩

/-- The words of a text, which commas and blanks separate. -/
def words (text : String) : List String :=
  (Text.words (fun c => c == ',' || Text.isBlank c) text.toList).map String.ofList

/-- The number that a mapping has under a name. -/
def member (members : Members) (name : String) : Except Failure Float :=
  match members.get? name with
  | some v => v.toFloat
  | none => .error (.viewBoxMissing name)

/-- The view box that a datum stands for. -/
def ofValue : Value → Except Failure ViewBox
  | .text s =>
    match words s with
    | [x, y, w, h] => ofNumbers (.text x) (.text y) (.text w) (.text h)
    | _ => .error (.viewBoxWords s)
  | .mapping members => do
    let x ← member members "minX"
    let y ← member members "minY"
    let w ← member members "width"
    let h ← member members "height"
    return ⟨x, y, w, h⟩
  | .list [x, y, w, h] => ofNumbers x y w h
  | .tuple [x, y, w, h] => ofNumbers x y w h
  | v => .error (.invalidViewBox v)

end ViewBox

end AnchorLayout
