/-!
# Grids

The entries of an array of any number of dimensions are a list, row by row.
Along each dimension the array falls into parts of one size (`parts`), which
together are the array again (`flatten_parts`). Where there are too many of
them to show, only those at either end are (`ends`), and with them the entries
in the corners of the array (`corners`).
-/

namespace AnchorLayout.Grid

variable {α : Type}

/-- The first `n` parts of `size` entries each. -/
def parts (size : Nat) : Nat → List α → List (List α)
  | 0, _ => []
  | n + 1, xs => xs.take size :: parts size n (xs.drop size)

/-- The number of entries of an array of a shape. -/
def count (shape : List Nat) : Nat := shape.foldl (· * ·) 1

/-- The parts that are shown, with `none` for those left out. If there is an
    `edge`, as many parts as that are shown at either end, unless there are not
    more than these anyway. -/
def ends (edge : Option Nat) (xs : List α) : List (Option α) :=
  match edge with
  | some e =>
    if 2 * e < xs.length then
      (xs.take e).map some ++ none :: (xs.drop (xs.length - e)).map some
    else xs.map some
  | none => xs.map some

/-- The entries that are shown of an array of a shape. -/
def corners (edge : Option Nat) : (shape : List Nat) → List α → List α
  | [], xs => xs
  | n :: shape, xs =>
    ((ends edge (parts (count shape) n xs)).filterMap id).flatMap (corners edge shape)

@[simp] theorem length_parts (size n : Nat) (xs : List α) : (parts size n xs).length = n := by
  induction n generalizing xs with
  | zero => rfl
  | succ n ih => simp [parts, ih]

/-- Parts that cover the entries lose none of them. -/
theorem flatten_parts (size n : Nat) (xs : List α) (h : xs.length ≤ n * size) :
    (parts size n xs).flatten = xs := by
  induction n generalizing xs with
  | zero => simpa [parts] using h
  | succ n ih =>
    rw [parts, List.flatten_cons, ih, List.take_append_drop]
    rw [List.length_drop, Nat.sub_le_iff_le_add, ← Nat.succ_mul]
    exact h

end AnchorLayout.Grid
