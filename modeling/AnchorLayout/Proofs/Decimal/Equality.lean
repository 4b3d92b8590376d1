import AnchorLayout.Proofs.Decimal.Order
import AnchorLayout.Proofs.Decimal.Written

/-!
# Equal doubles

Doubles are equal if both are numbers and of the same rank (`beq_iff`), so that
two that are equal to a third are equal to each other (`beq_euclid`). A double
that is an integer stands for it as a rational number (`toInt?_eq_some_iff`):
equal doubles are the same integer, if they are one, and doubles that are the
same integer are equal.
-/

namespace AnchorLayout.Decimal

open Float.Model Float.Model.UnpackedFloat

variable {x y z : Float}

/-- What is no number is equal to nothing, itself included. -/
theorem isNaN_of_beq (h : (x == y) = true) : x.isNaN = false := by
  rw [beq_def, beq_iff_eq] at h
  rw [Float.isNaN, Float.Model.isNaN]
  cases hu : x.toModel.unpack with
  | notANumber =>
    rw [hu] at h
    cases h
  | _ => rfl

/-- Doubles are equal if both are numbers and of one rank; the two zeros
    are. -/
theorem beq_iff : (x == y) = true ↔ x.isNaN = false ∧ y.isNaN = false ∧ rank x = rank y := by
  constructor
  · intro h
    have hx := isNaN_of_beq h
    have hy := isNaN_of_beq (beq_comm x y ▸ h)
    rw [beq_def, compare_eq_compare_rank hx hy, beq_iff_eq, Option.some.injEq,
      compare_eq_iff_eq] at h
    exact ⟨hx, hy, h⟩
  · rintro ⟨hx, hy, h⟩
    rw [beq_def, compare_eq_compare_rank hx hy, beq_iff_eq, Option.some.injEq,
      compare_eq_iff_eq]
    exact h

/-- Doubles that the same double is equal to are equal to each other. -/
theorem beq_euclid (h : (x == y) = true) (h' : (x == z) = true) : (y == z) = true := by
  obtain ⟨-, hy, hxy⟩ := beq_iff.1 h
  obtain ⟨-, hz, hxz⟩ := beq_iff.1 h'
  exact beq_iff.2 ⟨hy, hz, hxy.symm.trans hxz⟩

/-! ## Doubles that are integers -/

theorem isFinite_of_toInt? {n : ℤ} (h : toInt? x = some n) : x.isFinite := by
  rw [isFinite_iff]
  by_contra hp
  rw [toInt?, if_pos (not_lt.1 hp)] at h
  cases h

/-- A finite double whose magnitude is a natural number is an integer. -/
theorem toInt?_of_quotient {k : ℕ} (hf : x.isFinite) (h : (quotient x).1 = k * (quotient x).2) :
    toInt? x = some (if isNegative x then -(k : ℤ) else k) := by
  rw [toInt?, if_neg ((isFinite_iff x).1 hf).not_ge]
  simp only [h, Nat.mul_mod_left, Nat.mul_div_cancel _ (quotient_pos x), if_true]

theorem rational_of_quotient {k : ℕ} (h : (quotient x).1 = k * (quotient x).2) :
    rational x = (if isNegative x then -(k : ℤ) else k : ℤ) := by
  have hd : ((quotient x).2 : ℚ) ≠ 0 := by exact_mod_cast (quotient_pos x).ne'
  rw [rational, h, Nat.cast_mul, mul_div_cancel_right₀ _ hd]
  split_ifs <;> simp

/-- A double is an integer if it stands for one. -/
theorem toInt?_eq_some_iff {n : ℤ} : toInt? x = some n ↔ x.isFinite ∧ rational x = n := by
  constructor
  · intro h
    have hf := isFinite_of_toInt? h
    obtain ⟨hq, -, -⟩ := eq_mul_of_toInt? h
    rw [toInt?_of_quotient hf hq, Option.some.injEq] at h
    exact ⟨hf, by rw [rational_of_quotient hq, h]⟩
  · rintro ⟨hf, h⟩
    -- The magnitude of a double that stands for
    -- an integer is the magnitude of the integer.
    have hd : ((quotient x).2 : ℚ) ≠ 0 := by exact_mod_cast (quotient_pos x).ne'
    have habs : |rational x| = (quotient x).1 / (quotient x).2 := by
      rw [rational]
      split_ifs
      · rw [abs_neg, abs_of_nonneg (by positivity)]
      · rw [abs_of_nonneg (by positivity)]
    rw [h, ← Int.cast_abs, ← Nat.cast_natAbs, eq_div_iff hd] at habs
    have hq : (quotient x).1 = n.natAbs * (quotient x).2 := by exact_mod_cast habs.symm
    rw [rational_of_quotient hq] at h
    rw [toInt?_of_quotient hf hq]
    exact congrArg some (by exact_mod_cast h)

/-- Equal doubles are the same integer, if they are one. -/
theorem toInt?_congr (h : (x == y) = true) : toInt? x = toInt? y := by
  obtain ⟨-, -, hr⟩ := beq_iff.1 h
  have hp : place x = place y := by rw [← natAbs_rank, hr, natAbs_rank]
  ext n
  rw [toInt?_eq_some_iff, toInt?_eq_some_iff, isFinite_iff, isFinite_iff, hp, rational_congr hr]

theorem beq_of_toInt? {n : ℤ} (hx : toInt? x = some n) (hy : toInt? y = some n) :
    (x == y) = true := by
  obtain ⟨hfx, hx⟩ := toInt?_eq_some_iff.1 hx
  obtain ⟨hfy, hy⟩ := toInt?_eq_some_iff.1 hy
  have h : rational x = rational y := hx.trans hy.symm
  exact beq_iff.2 ⟨isNaN_of_isFinite hfx, isNaN_of_isFinite hfy,
    ((rank_le_rank_iff hfx hfy).2 h.le).antisymm ((rank_le_rank_iff hfy hfx).2 h.ge)⟩

end AnchorLayout.Decimal
