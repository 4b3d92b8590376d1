import AnchorLayout.Decimal.Written
import AnchorLayout.Proofs.Decimal.Reading
import AnchorLayout.Proofs.Decimal.Rounding

/-!
# Written numbers read back

A finite double is written as a numeral, with or without a sign
(`exists_plain`), and the number that is read from its text is that double
(`toFloat_plain`). One thing is lost: both zeros are written `0`, without a
sign.
-/

namespace AnchorLayout.Decimal

/-! ## Digits with a point -/

theorem allDigits_positional {cs : List Char} (h : AllDigits cs) (point : ℤ) :
    AllDigits ((positional cs point).1 ++ (positional cs point).2) := by
  simp only [positional]
  split_ifs
  · exact (allDigits_zeros 1).append ((allDigits_zeros _).append h)
  · exact (h.append (allDigits_zeros _)).append (by simp [AllDigits])
  · rwa [List.take_append_drop]

theorem positional_ne_nil {cs : List Char} (h : cs ≠ []) (point : ℤ) :
    (positional cs point).1 ++ (positional cs point).2 ≠ [] := by
  simp only [positional]
  split_ifs
  · simp
  · simp [h]
  · simpa using h

/-- The point is put where it makes the digits stand for the right number. -/
theorem positional_value (negative : Bool) (cs : List Char) (point : ℤ) :
    value ⟨negative, digitsValue ((positional cs point).1 ++ (positional cs point).2),
        -(positional cs point).2.length⟩ =
      digitsValue cs * 10 ^ (point - cs.length) := by
  simp only [positional, value]
  split_ifs with h₀ h₁
  · -- Zeros before the digits add nothing, and those behind the point move it.
    rw [← List.append_assoc, ← List.replicate_one, List.replicate_append_replicate,
      digitsValue_zeros_append]
    congr 2
    simp
    omega
  · rw [List.append_nil, digitsValue_append_zeros]
    obtain ⟨k, hk⟩ : ∃ k : ℕ, point = cs.length + k := ⟨point.toNat - cs.length, by omega⟩
    have : point.toNat - cs.length = k := by omega
    rw [this, hk, add_sub_cancel_left, zpow_natCast]
    simp [mul_comm]
  · rw [List.take_append_drop]
    congr 2
    simp
    omega

/-! ## Written doubles -/

theorem magnitude_eq_zero_iff (x : Float) : (magnitude x).1 = 0 ↔ place x = 0 := by
  have hdm := Nat.div_add_mod (place x) (Nat.pow 2 52)
  have hpow : 0 < Nat.pow 2 52 := Nat.pow_pos two_pos
  rw [magnitude]
  generalize Nat.pow 2 52 = d at hdm hpow ⊢
  split_ifs with h
  · rw [h, mul_zero, zero_add] at hdm
    rw [hdm]
  · have : 0 < d * (place x / d) := Nat.mul_pos hpow (Nat.pos_of_ne_zero h)
    show place x % d + d = 0 ↔ _
    omega

theorem quotient_eq_zero_iff (x : Float) : (quotient x).1 = 0 ↔ place x = 0 := by
  rw [← magnitude_eq_zero_iff, quotient, Nat.mul_eq_zero, Nat.pow_eq]
  exact or_iff_left (pow_pos two_pos _).ne'

/-- A double that is an integer is a quotient without a remainder. -/
theorem eq_mul_of_toInt? {x : Float} {n : ℤ} (h : toInt? x = some n) :
    (quotient x).1 = n.natAbs * (quotient x).2 ∧ (n < 0 → isNegative x = true) ∧
      (0 < n → isNegative x = false) := by
  simp only [toInt?] at h
  split_ifs at h with _ hmod hneg
  · have hn : n.natAbs = (quotient x).1 / (quotient x).2 := by
      rw [← Option.some.inj h, Int.natAbs_neg, Int.natAbs_natCast]
    refine ⟨by rw [hn, Nat.div_mul_cancel (Nat.dvd_of_mod_eq_zero hmod)], fun _ => hneg, ?_⟩
    have := Option.some.inj h
    omega
  · have hn : n.natAbs = (quotient x).1 / (quotient x).2 := by
      rw [← Option.some.inj h, Int.natAbs_natCast]
    refine ⟨by rw [hn, Nat.div_mul_cancel (Nat.dvd_of_mod_eq_zero hmod)], ?_, fun _ => ?_⟩
    · have := Option.some.inj h
      omega
    · exact Bool.eq_false_iff.2 hneg

/-- A double that is no integer is no zero. -/
theorem place_ne_zero_of_toInt? {x : Float} (h : toInt? x = none) : place x ≠ 0 := by
  intro h₀
  have hq := (quotient_eq_zero_iff x).2 h₀
  simp only [toInt?, h₀, hq] at h
  split_ifs at h <;> simp_all [infinityPlace]

/-- The text of a finite double is a numeral, with or without a sign. -/
theorem exists_plain {x : Float} (h : x.isFinite) :
    ∃ negative cs, Numeral cs ∧ plain x = signed negative cs := by
  simp only [plain, h, if_true]
  cases toInt? x with
  | some n => exact ⟨_, _, .integer (allDigits_digits _) (digits_ne_nil _), rfl⟩
  | none =>
    refine ⟨_, _, .fractional (allDigits_positional ?_ _) (positional_ne_nil ?_ _), rfl⟩
    · exact allDigits_digits _
    · exact digits_ne_nil _

/-- The number that is read from the text of a finite double is that double,
    except that a zero has lost its sign. -/
theorem toFloat_plain {x : Float} (h : x.isFinite) :
    (ofNumeral (plain x).toList).toFloat = if x == 0 then 0 else x := by
  simp only [plain, h, if_true]
  cases hn : toInt? x with
  | some n =>
    obtain ⟨hq, hneg, hpos⟩ := eq_mul_of_toInt? hn
    rw [ofNumeral_integer (allDigits_digits _) (digits_ne_nil _), digitsValue_digits]
    split_ifs with h₀
    · -- Only the integer zero is written for a zero, and without a sign.
      have hn₀ : n = 0 := by
        rw [(quotient_eq_zero_iff x).2 ((beq_zero_iff x).1 h₀), eq_comm, Nat.mul_eq_zero] at hq
        have := (quotient_pos x).ne'
        omega
      rw [hn₀]
      rfl
    · have hn₀ : n ≠ 0 := by
        rintro rfl
        rw [Int.natAbs_zero, zero_mul, quotient_eq_zero_iff] at hq
        exact h₀ ((beq_zero_iff x).2 hq)
      refine toFloat_of_value h ?_ ?_
      · rcases lt_or_gt_of_ne hn₀ with h' | h'
        · simp [h', hneg h']
        · simp [h'.le, hpos h']
      · have : ((quotient x).2 : ℚ) ≠ 0 := by exact_mod_cast (quotient_pos x).ne'
        rw [hq, value]
        push_cast
        field_simp
  | none =>
    have h₀ : ¬ (x == 0) = true := fun h₀ =>
      place_ne_zero_of_toInt? hn ((beq_zero_iff x).1 h₀)
    -- A number that is no integer is no zero, and keeps its sign.
    rw [if_neg h₀]
    dsimp only [shortestDigits]
    rw [ofNumeral_fractional (allDigits_positional (allDigits_digits _) _)
      (positional_ne_nil (digits_ne_nil _) _)]
    refine (toFloat_congr (shortest_negative x).symm ?_).trans (toFloat_shortest h)
    rw [positional_value, digitsValue_digits, add_sub_cancel_left, value]

end AnchorLayout.Decimal
