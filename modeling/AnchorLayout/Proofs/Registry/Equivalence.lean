import AnchorLayout.Proofs.Decimal.Equality
import AnchorLayout.Proofs.Registry.Sameness

/-!
# Ids that are the same as one id

Data that one datum is the same as are the same as each other, whether they are
numbers in different forms, tuples and points, or expressions
(`Value.same_euclid`), and so are ids (`ShapeId.beq_euclid`). What is written
under a key is therefore not seen under an id that the key is not the same as
(`Table.get?_insert_of_beq_eq_false`).
-/

namespace AnchorLayout

namespace Value

variable {a b c : Bool}

/-! ## Numbers -/

theorem sameNumber_iff_of_toInt? {x y : Float} {n : ℤ} (h : Decimal.toInt? x = some n) :
    sameNumber a x y = true ↔ Decimal.toInt? y = some n := by
  have hx := Decimal.isNaN_of_isFinite (Decimal.isFinite_of_toInt? h)
  rw [sameNumber, hx, Bool.and_false, Bool.false_and, Bool.or_false]
  exact ⟨fun hxy => Decimal.toInt?_congr hxy ▸ h, Decimal.beq_of_toInt? h⟩

/-- A datum that is an integer is the same as whatever is that integer. -/
theorem same_iff_of_integer? {v w : Value} {n : ℤ} (h : v.integer? = some n) :
    v.same a w = true ↔ w.integer? = some n := by
  cases v with
  | bool d | int k =>
    rw [eq_comm (b := some n), ← h]
    cases w with
    | float y => cases hy : Decimal.toInt? y <;> simp [same, integer?, hy]
    | _ => simp [same, integer?]
  | float x =>
    rw [integer?] at h
    cases w with
    | float y => rw [same, sameNumber_iff_of_toInt? h, integer?]
    | bool | int => simp [same, integer?, h, eq_comm (b := n)]
    | _ => simp [same, integer?]
  | _ => cases h

/-- A double that is no integer is the same as doubles only. -/
theorem same_float_iff_of_toInt? {x : Float} {w : Value} (h : Decimal.toInt? x = none) :
    (Value.float x).same a w = true ↔ ∃ y, w = .float y ∧ sameNumber a x y = true := by
  cases w with
  | float y => simp [same]
  | _ => simp [same, integer?, h]

theorem sameNumber_euclid {x y z : Float} (hc : a = true → b = true → c = true)
    (h : sameNumber a x y = true) (h' : sameNumber b x z = true) : sameNumber c y z = true := by
  simp only [sameNumber, Bool.or_eq_true, Bool.and_eq_true] at *
  rcases h with h | ⟨⟨ha, hx⟩, hy⟩ <;> rcases h' with h' | ⟨⟨hb, hx'⟩, hz⟩
  · exact .inl (Decimal.beq_euclid h h')
  · cases (Decimal.isNaN_of_beq h).symm.trans hx'
  · cases (Decimal.isNaN_of_beq h').symm.trans hx
  · exact .inr ⟨⟨hc ha hb, hy⟩, hz⟩

theorem same_float_euclid {x : Float} {w u : Value} (hc : a = true → b = true → c = true)
    (hw : (Value.float x).same a w = true) (hu : (Value.float x).same b u = true) :
    w.same c u = true := by
  cases hx : Decimal.toInt? x with
  | some n =>
    have hv : (Value.float x).integer? = some n := hx
    exact (same_iff_of_integer? ((same_iff_of_integer? hv).1 hw)).2 ((same_iff_of_integer? hv).1 hu)
  | none =>
    obtain ⟨y, rfl, hy⟩ := (same_float_iff_of_toInt? hx).1 hw
    obtain ⟨z, rfl, hz⟩ := (same_float_iff_of_toInt? hx).1 hu
    rw [same]
    exact sameNumber_euclid hc hy hz

theorem isNumber_eq_same (v : Value) (x : Float) : v.isNumber a x = v.same a (.float x) := by
  cases v with
  | int | bool => cases h : Decimal.toInt? x <;> simp [isNumber, same, integer?, h]
  | _ => simp [isNumber, same, integer?]

theorem same_float (v : Value) (x : Float) : (Value.float x).same a v = v.same a (.float x) := by
  cases v with
  | float y => rw [same, same, sameNumber_comm]
  | int | bool => cases h : Decimal.toInt? x <;> simp [same, integer?, h, Bool.beq_comm]
  | _ => simp [same, integer?]

/-! ## Tuples and points -/

/-- The items of a tuple, or the coordinates of a point. -/
def parts? : Value → Option (List Value)
  | .tuple vs => some vs
  | .point p => some [.float p.x, .float p.y]
  | _ => none

/-- A tuple or a point is the same as whatever has the same parts. -/
theorem same_iff_of_parts? {v w : Value} {vs : List Value} (h : v.parts? = some vs) :
    v.same a w = true ↔ ∃ ws, w.parts? = some ws ∧ sameItems a vs ws = true := by
  cases v with
  | tuple us =>
    cases h
    cases w with
    | tuple ws => simp [same, parts?]
    | point p =>
      rcases vs with _ | ⟨v, _ | ⟨v', _ | ⟨v'', vs⟩⟩⟩ <;>
        simp [same, parts?, sameItems, isNumber_eq_same, integer?]
    | _ => simp [same, parts?, integer?]
  | point p =>
    cases h
    cases w with
    | tuple ws =>
      rcases ws with _ | ⟨u, _ | ⟨u', _ | ⟨u'', us⟩⟩⟩ <;>
        simp [same, parts?, sameItems, isNumber_eq_same, integer?, same_float]
    | point q => simp [same, parts?, sameItems]
    | _ => simp [same, parts?, integer?]
  | _ => cases h

/-- The coordinates of a point are compared one by one. -/
theorem sameItems_coordinates {x y : Float} {ws : List Value} :
    sameItems a [.float x, .float y] ws = true ↔ ∃ w w', ws = [w, w'] ∧
      (Value.float x).same a w = true ∧ (Value.float y).same a w' = true := by
  rcases ws with _ | ⟨w, _ | ⟨w', _ | ⟨w'', ws⟩⟩⟩ <;> simp [sameItems]

theorem changeableItem?_of_parts? {w : Value} {ws : List Value} (h : w.parts? = some ws)
    (hw : w.changeable? = none) : changeableItem? ws = none := by
  cases w with
  | tuple => cases h; exact hw
  | point => cases h; rfl
  | _ => cases h

/-! ## Data -/

mutual

/-- Data that one datum is the same as are the same as each other, if the first
    of them cannot change. What is no number is compared by the marks, of which
    two that match a third have to match each other. -/
theorem same_euclid (hc : a = true → b = true → c = true) : ∀ v w u : Value,
    w.changeable? = none → v.same a w = true → v.same b u = true → w.same c u = true
  | .null, w, u, _, h, h' => by
    have hw : w = .null := by cases w <;> first | rfl | simp [same, integer?] at h
    have hu : u = .null := by cases u <;> first | rfl | simp [same, integer?] at h'
    rw [hw, hu, same]
  | .text s, w, u, _, h, h' => by
    have hw : w = .text s := by cases w <;> simp_all [same, integer?]
    have hu : u = .text s := by cases u <;> simp_all [same, integer?]
    rw [hw, hu, same, beq_self_eq_true]
  | .bool d, w, u, _, h, h' => by
    have hv : (Value.bool d).integer? = some _ := rfl
    exact (same_iff_of_integer? ((same_iff_of_integer? hv).1 h)).2 ((same_iff_of_integer? hv).1 h')
  | .int n, w, u, _, h, h' => by
    have hv : (Value.int n).integer? = some _ := rfl
    exact (same_iff_of_integer? ((same_iff_of_integer? hv).1 h)).2 ((same_iff_of_integer? hv).1 h')
  | .float x, w, u, _, h, h' => same_float_euclid hc h h'
  | .point p, w, u, _, h, h' => by
    obtain ⟨ws, hws, h⟩ := (same_iff_of_parts? rfl).1 h
    obtain ⟨us, hus, h'⟩ := (same_iff_of_parts? rfl).1 h'
    obtain ⟨w₁, w₂, rfl, hw₁, hw₂⟩ := sameItems_coordinates.1 h
    obtain ⟨u₁, u₂, rfl, hu₁, hu₂⟩ := sameItems_coordinates.1 h'
    refine (same_iff_of_parts? hws).2 ⟨_, hus, ?_⟩
    simp [sameItems, same_float_euclid hc hw₁ hu₁, same_float_euclid hc hw₂ hu₂]
  | .tuple vs, w, u, hw, h, h' => by
    obtain ⟨ws, hws, h⟩ := (same_iff_of_parts? rfl).1 h
    obtain ⟨us, hus, h'⟩ := (same_iff_of_parts? rfl).1 h'
    exact (same_iff_of_parts? hws).2
      ⟨us, hus, sameItems_euclid hc vs ws us (changeableItem?_of_parts? hws hw) h h'⟩
  | .expr e, w, u, hw, h, h' => by
    cases w with
    | expr f =>
      cases u with
      | expr g =>
        rw [same] at *
        exact sameTree_euclid hc e f g hw h h'
      | _ => simp [same, integer?] at h'
    | _ => simp [same, integer?] at h
  | .list _, w, u, hw, h, h' | .mapping _, w, u, hw, h, h' | .array _ _, w, u, hw, h, h' => by
    cases w with
    | list | mapping | array => cases hw
    | _ => simp [same, integer?] at h

theorem sameItems_euclid (hc : a = true → b = true → c = true) : ∀ vs ws us : List Value,
    changeableItem? ws = none → sameItems a vs ws = true → sameItems b vs us = true →
      sameItems c ws us = true
  | [], ws, us, _, h, h' => by
    cases ws with
    | cons => simp [sameItems] at h
    | nil =>
      cases us with
      | cons => simp [sameItems] at h'
      | nil => rw [sameItems]
  | v :: vs, ws, us, hw, h, h' => by
    cases ws with
    | nil => simp [sameItems] at h
    | cons w ws =>
      cases us with
      | nil => simp [sameItems] at h'
      | cons u us =>
        rw [changeableItem?, Option.or_eq_none_iff] at hw
        rw [sameItems, Bool.and_eq_true] at *
        exact ⟨same_euclid hc v w u hw.1 h.1 h'.1, sameItems_euclid hc vs ws us hw.2 h.2 h'.2⟩

theorem sameTree_euclid (hc : a = true → b = true → c = true) : ∀ e f g : Expr Value,
    changeableLeaf? f = none → sameTree a e f = true → sameTree b e g = true →
      sameTree c f g = true
  | .literal x, f, g, _, h, h' => by
    cases f with
    | literal y =>
      cases g with
      | literal z =>
        rw [sameTree] at *
        exact sameNumber_euclid hc h h'
      | _ => simp [sameTree] at h'
    | _ => simp [sameTree] at h
  | .ref _ _, f, g, _, h, h' | .selfRef _, f, g, _, h, h' => by
    cases f <;> cases g <;> simp_all [sameTree]
  | .binary op l r, f, g, hf, h, h' => by
    cases f with
    | binary op' l' r' =>
      cases g with
      | binary op'' l'' r'' =>
        rw [changeableLeaf?, Option.or_eq_none_iff] at hf
        simp only [sameTree, Bool.and_eq_true, beq_iff_eq] at *
        exact ⟨⟨h.1.1 ▸ h'.1.1, sameTree_euclid hc l l' l'' hf.1 h.1.2 h'.1.2⟩,
          sameTree_euclid hc r r' r'' hf.2 h.2 h'.2⟩
      | _ => simp [sameTree] at h'
    | _ => simp [sameTree] at h
  | .unknown s l r, f, g, hf, h, h' => by
    cases f with
    | unknown s' l' r' =>
      cases g with
      | unknown s'' l'' r'' =>
        rw [changeableLeaf?, Option.or_eq_none_iff] at hf
        simp only [sameTree, Bool.and_eq_true, beq_iff_eq] at *
        exact ⟨⟨h.1.1 ▸ h'.1.1, sameTree_euclid hc l l' l'' hf.1 h.1.2 h'.1.2⟩,
          sameTree_euclid hc r r' r'' hf.2 h.2 h'.2⟩
      | _ => simp [sameTree] at h'
    | _ => simp [sameTree] at h
  | .foreign v, f, g, hf, h, h' => by
    cases f with
    | foreign w =>
      cases g with
      | foreign u =>
        rw [sameTree] at *
        exact same_euclid hc v w u hf h h'
      | _ => simp [sameTree] at h'
    | _ => simp [sameTree] at h

end

end Value

namespace ShapeId

variable {id key key' : ShapeId}

/-- Ids that one id is the same as are the same as each other, if the first of
    them can be a key. -/
theorem beq_euclid (hkey : key.asKey = .ok key) (h : (id == key) = true)
    (h' : (id == key') = true) : (key == key') = true := by
  have hc := changeable?_of_asKey hkey
  cases id with
  | text s =>
    rw [text_beq.1 h, text_beq.1 h']
    exact text_beq.2 rfl
  | datum v mark =>
    cases key with
    | text => cases h
    | datum w mark' =>
      cases key' with
      | text => cases h'
      | datum u mark'' =>
        refine Value.same_euclid ?_ v w u hc h h'
        simp only [beq_iff_eq]
        exact fun h h' => h.symm.trans h'

end ShapeId

namespace Table

/-- What is written under a key is not seen under an id that the key is not the
    same as. -/
theorem get?_insert_of_beq_eq_false {α : Type} (t : Table ShapeId α) {key id : ShapeId} (a : α)
    (hkey : key.asKey = .ok key) (h : (key == id) = false) :
    (t.insert key a).get? id = t.get? id := by
  induction t with
  | nil => exact if_neg (Bool.eq_false_iff.1 h)
  | cons e t ih =>
    rw [insert]
    split_ifs with he
    · -- The entry that is written over is not the one of `id`.
      have hne : ¬(e.1 == id) = true := fun hid =>
        Bool.eq_false_iff.1 h (ShapeId.beq_euclid hkey he hid)
      rw [get?, get?, if_neg hne, if_neg hne]
    · rw [get?, get?, ih]

end Table

end AnchorLayout
