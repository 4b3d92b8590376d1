import AnchorLayout.Proofs.Decimal.Double
import AnchorLayout.Proofs.Registry.Keys

/-!
# Ids that are the same

An id that can be a key is the same as itself (`ShapeId.beq_self`), also where
it holds what is no number, because it keeps its mark. And of two such ids it
does not matter which is compared with which (`ShapeId.beq_comm`). So a table
finds what was put at its end under a key that none of its own keys is the same
as (`Table.get?_concat`), and what it found before it finds again
(`Table.get?_append`).
-/

namespace AnchorLayout

namespace Value

/-- Where the marks are the same, what is no number is the same as itself. -/
theorem sameNumber_self (x : Float) : sameNumber true x x = true := by
  rw [sameNumber, Bool.true_and, Bool.and_self, Bool.or_eq_true]
  exact Decimal.beq_self_or_isNaN x

theorem sameNumber_comm (nan : Bool) (x y : Float) : sameNumber nan x y = sameNumber nan y x := by
  rw [sameNumber, sameNumber, Decimal.beq_comm, Bool.and_right_comm]

mutual

/-- A datum that cannot change is the same as itself. -/
theorem same_self : ∀ v : Value, v.changeable? = none → v.same true v = true
  | .null, _ | .bool _, _ | .int _, _ | .text _, _ => by simp [same, integer?]
  | .float x, _ => by simp only [same, sameNumber_self]
  | .point p, _ => by simp [same, sameNumber_self]
  | .tuple vs, h => by
    rw [same]
    exact sameItems_self vs h
  | .expr e, h => by
    rw [same]
    exact sameTree_self e h

/-- So are the items of a tuple, one by one. -/
theorem sameItems_self :
    ∀ vs : List Value, changeableItem? vs = none → sameItems true vs vs = true
  | [], _ => by simp [sameItems]
  | v :: vs, h => by
    rw [changeableItem?, Option.or_eq_none_iff] at h
    rw [sameItems, same_self v h.1, sameItems_self vs h.2, Bool.true_and]

theorem sameTree_self :
    ∀ e : Expr Value, changeableLeaf? e = none → sameTree true e e = true
  | .literal x, _ => by simp [sameTree, sameNumber_self]
  | .ref _ _, _ | .selfRef _, _ => by simp [sameTree]
  | .binary op l r, h | .unknown op l r, h => by
    rw [changeableLeaf?, Option.or_eq_none_iff] at h
    simp [sameTree, sameTree_self l h.1, sameTree_self r h.2]
  | .foreign v, h => by
    rw [sameTree]
    exact same_self v h

end

/-- A point and a tuple are the same if their coordinates are. -/
theorem same_tuple_point (nan : Bool) (vs : List Value) (p : Point) :
    (Value.tuple vs).same nan (.point p) = (Value.point p).same nan (.tuple vs) := by
  rcases vs with _ | ⟨v, _ | ⟨w, _ | ⟨u, vs⟩⟩⟩ <;> simp [same, integer?]

mutual

/-- Which of two data is compared with which does not matter, if they cannot
    change. -/
theorem same_comm (nan : Bool) : ∀ v w : Value, v.changeable? = none → w.changeable? = none →
    v.same nan w = w.same nan v
  | .null, w, _, hw | .text _, w, _, hw => by
    cases w with
    | list | mapping | array => cases hw
    | _ => simp [same, integer?, Bool.beq_comm]
  | .bool _, w, _, hw | .int _, w, _, hw => by
    cases w with
    | list | mapping | array => cases hw
    | float x => cases h : Decimal.toInt? x <;> simp [same, integer?, h, Bool.beq_comm]
    | _ => simp [same, integer?, Bool.beq_comm]
  | .float x, w, _, hw => by
    cases w with
    | list | mapping | array => cases hw
    | float y => simp only [same, sameNumber_comm nan x]
    | bool | int => cases h : Decimal.toInt? x <;> simp [same, integer?, h, Bool.beq_comm]
    | _ => simp [same, integer?]
  | .point p, w, _, hw => by
    cases w with
    | list | mapping | array => cases hw
    | tuple ws => exact (same_tuple_point nan ws p).symm
    | point q => simp only [same, sameNumber_comm nan p.x, sameNumber_comm nan p.y]
    | _ => simp [same, integer?]
  | .tuple vs, w, hv, hw => by
    cases w with
    | list | mapping | array => cases hw
    | tuple ws =>
      rw [same, same]
      exact sameItems_comm nan vs ws hv hw
    | point p => exact same_tuple_point nan vs p
    | _ => simp [same, integer?]
  | .expr e, w, hv, hw => by
    cases w with
    | list | mapping | array => cases hw
    | expr f =>
      rw [same, same]
      exact sameTree_comm nan e f hv hw
    | _ => simp [same, integer?]

theorem sameItems_comm (nan : Bool) : ∀ vs ws : List Value, changeableItem? vs = none →
    changeableItem? ws = none → sameItems nan vs ws = sameItems nan ws vs
  | [], [], _, _ | [], _ :: _, _, _ | _ :: _, [], _, _ => by simp [sameItems]
  | v :: vs, w :: ws, hv, hw => by
    rw [changeableItem?, Option.or_eq_none_iff] at hv hw
    rw [sameItems, sameItems, same_comm nan v w hv.1 hw.1, sameItems_comm nan vs ws hv.2 hw.2]

theorem sameTree_comm (nan : Bool) : ∀ e f : Expr Value, changeableLeaf? e = none →
    changeableLeaf? f = none → sameTree nan e f = sameTree nan f e
  | .literal x, f, _, _ => by cases f <;> simp [sameTree, sameNumber_comm nan x]
  | .ref _ _, f, _, _ | .selfRef _, f, _, _ => by cases f <;> simp [sameTree, Bool.beq_comm]
  | .binary op l r, f, he, hf => by
    cases f with
    | binary op' l' r' =>
      rw [changeableLeaf?, Option.or_eq_none_iff] at he hf
      simp only [sameTree, sameTree_comm nan l l' he.1 hf.1, sameTree_comm nan r r' he.2 hf.2,
        Bool.beq_comm (a := op)]
    | _ => simp [sameTree]
  | .unknown s l r, f, he, hf => by
    cases f with
    | unknown s' l' r' =>
      rw [changeableLeaf?, Option.or_eq_none_iff] at he hf
      simp only [sameTree, sameTree_comm nan l l' he.1 hf.1, sameTree_comm nan r r' he.2 hf.2,
        Bool.beq_comm (a := s)]
    | _ => simp [sameTree]
  | .foreign v, f, he, hf => by
    cases f with
    | foreign w =>
      rw [sameTree, sameTree]
      exact same_comm nan v w he hf
    | _ => simp [sameTree]

end

end Value

namespace ShapeId

variable {id id' : ShapeId}

theorem changeable?_of_asKey (h : id.asKey = .ok id) : id.changeable? = none := by
  rw [asKey] at h
  split at h
  · cases h
  · next hc => exact hc

/-- An id that can be kept is found again. -/
theorem beq_self (h : id.asKey = .ok id) : (id == id) = true := by
  cases id with
  | text name => exact text_beq.2 rfl
  | datum v mark =>
    change v.same (mark == mark) v = true
    rw [beq_self_eq_true]
    exact v.same_self (changeable?_of_asKey h)

/-- It does not matter which of two ids is compared to which. -/
theorem beq_comm (h : id.asKey = .ok id) (h' : id'.asKey = .ok id') :
    (id == id') = (id' == id) := by
  have hc := changeable?_of_asKey h
  have hc' := changeable?_of_asKey h'
  cases id with
  | text name =>
    cases id' with
    | text name' => exact Bool.beq_comm (a := name)
    | datum => rfl
  | datum v mark =>
    cases id' with
    | text => rfl
    | datum w mark' =>
      change v.same (mark == mark') w = w.same (mark' == mark) v
      rw [Bool.beq_comm (a := mark)]
      exact Value.same_comm _ v w hc hc'

end ShapeId

namespace Table

variable {α : Type} {t u : Table ShapeId α} {id : ShapeId}

/-- A key that is new among keys finds nothing. -/
theorem get?_eq_none_of_contains (hkeys : ∀ k ∈ t.keys, k.asKey = .ok k) (hid : id.asKey = .ok id)
    (h : t.keys.contains id = false) : t.get? id = none := by
  induction t with
  | nil => rfl
  | cons e t ih =>
    obtain ⟨he, hkeys⟩ := List.forall_mem_cons.1 hkeys
    obtain ⟨hne, h⟩ := Bool.or_eq_false_iff.1 (List.contains_cons.symm.trans h)
    rw [get?, if_neg (by rw [ShapeId.beq_comm he hid, hne]; exact Bool.false_ne_true)]
    exact ih hkeys h

theorem get?_append (t u : Table ShapeId α) (id : ShapeId) :
    get? (t ++ u) id = (t.get? id).or (u.get? id) := by
  induction t with
  | nil => rfl
  | cons e t ih =>
    rw [List.cons_append, get?, get?]
    split_ifs
    · rfl
    · exact ih

/-- What was put at the end under a new key is written over there. -/
theorem insert_concat (a b : α) (hid : id.asKey = .ok id) (h : t.get? id = none) :
    insert (t ++ [(id, a)]) id b = t ++ [(id, b)] := by
  induction t with
  | nil => exact if_pos (ShapeId.beq_self hid)
  | cons e t ih =>
    rw [get?] at h
    split_ifs at h with he
    rw [List.cons_append, insert, if_neg he, ih h, List.cons_append]

/-- A new key is found behind all others. -/
theorem get?_concat (a : α) (hid : id.asKey = .ok id) (h : t.get? id = none) :
    get? (t ++ [(id, a)]) id = some a := by
  rw [get?_append, h, Option.none_or, get?, if_pos (ShapeId.beq_self hid)]

end Table

end AnchorLayout
