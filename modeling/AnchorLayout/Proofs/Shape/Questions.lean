import AnchorLayout.Proofs.Registry.Lookup
import AnchorLayout.Shape

/-!
# The questions of a shape

Which questions a shape puts to the registry is settled by its properties: a
text that stands for a number is asked for as an expression, and one that stands
for a point as a bare reference. Of several properties for one number only the
first that is given is read, and the coordinates of an end of a line only where
no point is given. A shape asks no more than this (`Question.ofShape`), and may
ask less, since the first failure ends it.
-/

namespace AnchorLayout

namespace Question

variable (self : Option ShapeId)

/-- What is asked for a number. -/
def ofNumber : Value → List Question
  | .text s => [.value s self]
  | _ => []

/-- What is asked for a point. -/
def ofPoint : Value → List Question
  | .text s => [.point s]
  | .list [x, y] => ofNumber self x ++ ofNumber self y
  | .tuple [x, y] => ofNumber self x ++ ofNumber self y
  | .mapping members =>
    match Table.get? members "x", Table.get? members "y" with
    | some x, some y => ofNumber self x ++ ofNumber self y
    | _, _ => []
  | _ => []

/-- What is asked for a number that the first of several properties stands
    for. -/
def ofProperty (props : Members) (names : List String) : List Question :=
  match names.find? fun name => (props.given? name).isSome with
  | none => []
  | some name => ofNumber self ((props.given? name).getD .null)

/-- What is asked for an end of a line. -/
def ofEnd (props : Members) (point x y : String) : List Question :=
  match props.given? point with
  | some v => ofPoint self v
  | none => ofProperty self props [x] ++ ofProperty self props [y]

/-- The properties that a shape of a kind reads for numbers, in order, each with
    the other names that it goes by. -/
def readBy : String → List (List String)
  | "rect" =>
    [["width"], ["height"], ["x", "left"], ["right"], ["y", "top"], ["bottom"], ["rotation"]]
  | "circle" => [["r"], ["centerX"], ["centerY"]]
  | "point" => [["x"], ["y"]]
  | _ => []

/-- All that a shape of a kind may ask. -/
def ofShape (kind : String) (props : Members) : List Question :=
  if kind = "line" then ofEnd self props "from" "x1" "y1" ++ ofEnd self props "to" "x2" "y2"
  else (readBy kind).flatMap (ofProperty self props)

variable {self}

/-! ## Which shape asks

In all these questions `$self` stands for the same shape. -/

/-- In the question `$self` stands for the shape `self`, or for none. -/
def IsOf (self : Option ShapeId) (q : Question) : Prop := ∀ id, q.self? = some id → self = some id

/-- A number is asked for on behalf of the shape whose property it is. -/
theorem isOf_of_mem_ofNumber (v : Value) : ∀ q ∈ ofNumber self v, IsOf self q := by
  intro q hq
  unfold ofNumber at hq
  split at hq
  · obtain rfl := List.mem_singleton.1 hq
    exact fun _ h => h
  · cases hq

/-- A bare reference has no `$self` in it, so only coordinates are asked for on
    behalf of a shape. -/
theorem isOf_of_mem_ofPoint (v : Value) : ∀ q ∈ ofPoint self v, IsOf self q := by
  have hpair : ∀ x y, ∀ q ∈ ofNumber self x ++ ofNumber self y, IsOf self q := fun x y =>
    List.forall_mem_append.2 ⟨isOf_of_mem_ofNumber x, isOf_of_mem_ofNumber y⟩
  intro q hq
  unfold ofPoint at hq
  split at hq
  · obtain rfl := List.mem_singleton.1 hq
    exact nofun
  · exact hpair _ _ q hq
  · exact hpair _ _ q hq
  · split at hq
    · exact hpair _ _ q hq
    · cases hq
  · cases hq

theorem isOf_of_mem_ofProperty (props : Members) (names : List String) :
    ∀ q ∈ ofProperty self props names, IsOf self q := by
  unfold ofProperty
  split
  · exact nofun
  · exact isOf_of_mem_ofNumber _

theorem isOf_of_mem_ofEnd (props : Members) (point x y : String) :
    ∀ q ∈ ofEnd self props point x y, IsOf self q := by
  unfold ofEnd
  split
  · exact isOf_of_mem_ofPoint _
  · exact List.forall_mem_append.2
      ⟨isOf_of_mem_ofProperty props [x], isOf_of_mem_ofProperty props [y]⟩

/-- All that a shape asks is asked on its own behalf. -/
theorem isOf_of_mem_ofShape (kind : String) (props : Members) :
    ∀ q ∈ ofShape self kind props, IsOf self q := by
  unfold ofShape
  split_ifs
  · exact List.forall_mem_append.2
      ⟨isOf_of_mem_ofEnd props "from" "x1" "y1", isOf_of_mem_ofEnd props "to" "x2" "y2"⟩
  · intro q hq
    obtain ⟨names, -, hq⟩ := List.mem_flatMap.1 hq
    exact isOf_of_mem_ofProperty props names q hq

end Question

/-- All that a shape may ask where it is known by the id `id`. -/
def ShapeSpec.questions (d : ShapeSpec) (id : ShapeId) : List Question :=
  Question.ofShape id.given? d.kind d.props

end AnchorLayout
