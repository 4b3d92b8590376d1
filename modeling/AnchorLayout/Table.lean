/-!
# Ordered tables

A finite map as the list of its entries, in the order in which the keys were
first given. The properties of a shape, its anchors, the shapes of a pass and
the members of a mapping are all such tables: what is written from them follows
this order.

Writing to a key that is present keeps its place (`keys_insert_of_mem`), a new
key goes to the end (`keys_insert_of_notMem`), and only the key written to
changes its entry (`get?_insert_self`, `get?_insert_of_ne`).
-/

namespace AnchorLayout

universe u v

/-- A finite map as the list of its entries, in the order of the first
    insertion of their keys. -/
abbrev Table (κ : Type u) (α : Type v) := List (κ × α)

namespace Table

variable {κ : Type u} {α : Type v}

/-- The keys, in order. -/
def keys (t : Table κ α) : List κ := t.map Prod.fst

variable [BEq κ]

/-- The entry of a key. -/
def get? : Table κ α → κ → Option α
  | [], _ => none
  | (j, b) :: t, k => if j == k then some b else get? t k

/-- Whether a key has an entry. -/
def contains (t : Table κ α) (k : κ) : Bool := (t.get? k).isSome

/-- Gives a key a new entry: in its place if it has one, else at the end. The
    key itself stays as it was first given. -/
def insert : Table κ α → κ → α → Table κ α
  | [], k, a => [(k, a)]
  | (j, b) :: t, k, a => if j == k then (j, a) :: t else (j, b) :: insert t k a

/-- The table without the entry of a key. -/
def erase (t : Table κ α) (k : κ) : Table κ α := t.filter fun e => !(e.1 == k)

/-- The table with the entries of another written over it, one after the
    other. -/
def merge (t new : Table κ α) : Table κ α := new.foldl (fun t e => t.insert e.1 e.2) t

/-- The table of a list of entries, of which a later one wins. -/
def ofEntries (entries : List (κ × α)) : Table κ α := Table.merge [] entries

@[simp] theorem get?_nil (k : κ) : get? ([] : Table κ α) k = none := rfl

@[simp] theorem get?_insert_self [LawfulBEq κ] (t : Table κ α) (k : κ) (a : α) :
    (t.insert k a).get? k = some a := by
  induction t with
  | nil => simp [insert, get?]
  | cons e t ih => by_cases h : e.1 = k <;> simp [insert, get?, h, ih]

/-- Only the key that is written to changes its entry. -/
theorem get?_insert_of_ne [LawfulBEq κ] (t : Table κ α) {j k : κ} (a : α) (h : j ≠ k) :
    (t.insert j a).get? k = t.get? k := by
  induction t with
  | nil => simp [insert, get?, h]
  | cons e t ih =>
    by_cases hj : e.1 = j
    · simp [insert, get?, hj, h]
    · simp [insert, hj, get?, ih]

/-- A key that is present keeps its place. -/
theorem keys_insert_of_mem [LawfulBEq κ] (t : Table κ α) {k : κ} (a : α) (h : k ∈ t.keys) :
    (t.insert k a).keys = t.keys := by
  induction t with
  | nil => simp [keys] at h
  | cons e t ih =>
    by_cases hk : e.1 = k
    · simp [insert, keys, hk]
    · have hm : k ∈ Table.keys t := by simpa [keys, Ne.symm hk] using h
      simpa [insert, keys, hk] using ih hm

/-- A new key goes to the end. -/
theorem keys_insert_of_notMem [LawfulBEq κ] (t : Table κ α) {k : κ} (a : α) (h : k ∉ t.keys) :
    (t.insert k a).keys = t.keys ++ [k] := by
  induction t with
  | nil => simp [insert, keys]
  | cons e t ih =>
    simp only [keys, List.map_cons, List.mem_cons, not_or] at h
    simpa [insert, keys, Ne.symm h.1] using ih h.2

end Table

end AnchorLayout
