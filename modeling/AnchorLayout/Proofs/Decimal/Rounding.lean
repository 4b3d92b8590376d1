import AnchorLayout.Decimal.Shortest
import AnchorLayout.Proofs.Decimal.Double

/-!
# Rounding to doubles

What is rounded to a double is a positive rational number, given as a quotient
of natural numbers in one way or another: the double next to it depends on the
number alone (`nearestPlace_congr`). A number that a double stands for is
rounded to that double (`nearestPlace_quotient`).

For decimal numbers this says that reading one depends on its sign and its
value only (`toFloat_congr`), whatever is settled by its size beforehand
(`toFloat_eq_nearest`), and that the digits of a double read back as that
double (`toFloat_exact`), in particular the fewest of them (`toFloat_shortest`).
-/

namespace AnchorLayout.Decimal

/-! ## Quotients as rational numbers -/

theorem zpow_eq_div (b : ℕ) (e : ℤ) : (b : ℚ) ^ e = b ^ e.toNat / b ^ (-e).toNat := by
  rcases le_total 0 e with h | h
  · lift e to ℕ using h
    simp
  · obtain ⟨n, rfl⟩ := Int.exists_eq_neg_ofNat h
    simp

/-- Powers of integral exponents are compared with quotients in natural
    numbers. -/
theorem zpow_le_div_iff {b num den : ℕ} (hb : 0 < b) (hd : 0 < den) (e : ℤ) :
    (b : ℚ) ^ e ≤ num / den ↔ den * b ^ e.toNat ≤ num * b ^ (-e).toNat := by
  rw [zpow_eq_div, div_le_div_iff₀ (by positivity) (by positivity), mul_comm (b ^ e.toNat : ℚ)]
  exact_mod_cast Iff.rfl

/-- The order of a number is told by the powers of two around it. -/
theorem log_eq_of_zpow {v : ℚ} (hv : 0 < v) {e : ℤ} (h : 2 ^ e ≤ v) (h' : v < 2 ^ (e + 1)) :
    Int.log 2 v = e := by
  have h₁ : e ≤ Int.log 2 v := (Int.zpow_le_iff_le_log one_lt_two hv).1 (by exact_mod_cast h)
  have h₂ : Int.log 2 v < e + 1 := (Int.lt_zpow_iff_log_lt one_lt_two hv).1 (by exact_mod_cast h')
  omega

/-- The order of a quotient is the logarithm of its value. -/
theorem binaryOrder_eq_log {num den : ℕ} (hn : 0 < num) (hd : 0 < den) :
    binaryOrder num den = Int.log 2 (num / den : ℚ) := by
  have hv : (0 : ℚ) < num / den := by positivity
  -- Up to a factor of two, the value is the quotient of the leading powers of two.
  have hlow : (2 : ℚ) ^ ((num.log2 : ℤ) - den.log2 - 1) ≤ num / den := by
    have h₁ : (2 : ℚ) ^ num.log2 ≤ num := by exact_mod_cast Nat.log2_self_le hn.ne'
    have h₂ : (den : ℚ) ≤ 2 ^ den.log2 * 2 := by exact_mod_cast (Nat.lt_log2_self (n := den)).le
    rw [zpow_sub₀ two_ne_zero, zpow_sub₀ two_ne_zero, div_div, zpow_natCast, zpow_natCast, zpow_one]
    exact div_le_div₀ (by positivity) h₁ (by positivity) h₂
  have hhigh : (num / den : ℚ) < 2 ^ ((num.log2 : ℤ) - den.log2 + 1) := by
    have h₁ : (num : ℚ) < 2 ^ num.log2 * 2 := by exact_mod_cast Nat.lt_log2_self (n := num)
    have h₂ : (2 : ℚ) ^ den.log2 ≤ den := by exact_mod_cast Nat.log2_self_le hd.ne'
    rw [zpow_add₀ two_ne_zero, zpow_sub₀ two_ne_zero, zpow_natCast, zpow_natCast, zpow_one,
      div_mul_eq_mul_div]
    exact div_lt_div₀ h₁ h₂ (by positivity) (by positivity)
  have hiff := @zpow_le_div_iff 2 num den two_pos hd ((num.log2 : ℤ) - den.log2)
  push_cast at hiff
  simp only [binaryOrder, Nat.pow_eq]
  split_ifs with h
  · exact (log_eq_of_zpow hv (hiff.2 h) hhigh).symm
  · exact (log_eq_of_zpow hv hlow (by rw [sub_add_cancel]; exact not_le.1 (mt hiff.1 h))).symm

theorem roundDiv_mul_right (num den : ℕ) {k : ℕ} (hk : 0 < k) :
    roundDiv (num * k) (den * k) = roundDiv num den := by
  simp only [roundDiv, Nat.mul_div_mul_right _ _ hk, Nat.mul_mod_mul_right, ← mul_assoc]
  simp only [Nat.mul_lt_mul_right hk, Nat.mul_left_inj hk.ne']

/-- A natural number is rounded to itself. -/
theorem roundDiv_mul_self (n : ℕ) {k : ℕ} (hk : 0 < k) : roundDiv (n * k) k = n := by
  simp [roundDiv, hk]

theorem le_roundDiv {n num den : ℕ} (hd : 0 < den) (h : n * den ≤ num) : n ≤ roundDiv num den := by
  have := (Nat.le_div_iff_mul_le hd).2 h
  simp only [roundDiv]
  split_ifs <;> omega

theorem roundDiv_eq_zero {num den : ℕ} (h : 2 * num < den) : roundDiv num den = 0 := by
  have hlt : num < den := by omega
  simp [roundDiv, Nat.div_eq_of_lt hlt, Nat.mod_eq_of_lt hlt, h]

/-! ## Rounding a rational number -/

/-- A factor common to both sides of a quotient does not matter. -/
theorem nearestPlace_mul_right (num : ℕ) {den k : ℕ} (hd : 0 < den) (hk : 0 < k) :
    nearestPlace (num * k) (den * k) = nearestPlace num den := by
  rcases Nat.eq_zero_or_pos num with rfl | hn
  · simp [nearestPlace]
  have horder : binaryOrder (num * k) (den * k) = binaryOrder num den := by
    rw [binaryOrder_eq_log (by positivity) (by positivity), binaryOrder_eq_log hn hd]
    push_cast
    rw [mul_div_mul_right _ _ (by positivity)]
  simp only [nearestPlace, horder, if_neg hn.ne', if_neg (Nat.mul_pos hn hk).ne',
    mul_right_comm _ k, roundDiv_mul_right _ _ hk]

/-- Where a quotient is rounded to depends on its value only. -/
theorem nearestPlace_congr {a b c d : ℕ} (hb : 0 < b) (hd : 0 < d)
    (h : (a / b : ℚ) = c / d) : nearestPlace a b = nearestPlace c d := by
  have hcross : a * d = c * b := by
    rw [div_eq_div_iff (by positivity) (by positivity)] at h
    exact_mod_cast h
  rw [← nearestPlace_mul_right a hb hd, hcross, mul_comm b d, nearestPlace_mul_right c hd hb]

/-- The exponent of the last digit that a double next to `num / den` has. -/
theorem nearestPlace_eq {num den : ℕ} (hn : 0 < num) (hd : 0 < den) {e : ℤ}
    (he : e = max (Int.log 2 (num / den : ℚ) - 52) (-1074)) :
    nearestPlace num den = min ((e + 1074).toNat * 2 ^ 52 +
      roundDiv (num * 2 ^ (-e).toNat) (den * 2 ^ e.toNat)) infinityPlace := by
  simp only [nearestPlace, if_neg hn.ne', binaryOrder_eq_log hn hd, Nat.pow_eq, he]

/-- What is beyond all finite doubles is rounded to infinity. -/
theorem nearestPlace_of_le {num den : ℕ} (hd : 0 < den) (h : (2 : ℚ) ^ 1024 ≤ num / den) :
    nearestPlace num den = infinityPlace := by
  have hv : (0 : ℚ) < num / den := lt_of_lt_of_le (by positivity) h
  have hn : 0 < num := Nat.pos_of_ne_zero fun h₀ => by simp [h₀] at hv
  have hlog : 1024 ≤ Int.log 2 (num / den : ℚ) :=
    (Int.zpow_le_iff_le_log one_lt_two hv).1 (by rwa [Nat.cast_ofNat, zpow_ofNat])
  obtain ⟨k, hk⟩ : ∃ k : ℕ, Int.log 2 (num / den : ℚ) = k + 52 :=
    ⟨(Int.log 2 (num / den : ℚ) - 52).toNat, by omega⟩
  rw [nearestPlace_eq hn hd (e := k) (by omega)]
  -- With a full mantissa at this exponent, the
  -- place is that of infinity or one beyond it.
  have hm : 2 ^ 52 ≤ roundDiv (num * 2 ^ (-(k : ℤ)).toNat) (den * 2 ^ (k : ℤ).toNat) := by
    apply le_roundDiv (by positivity)
    have hle : (2 : ℚ) ^ (k + 52) ≤ num / den := by
      have := Int.zpow_log_le_self one_lt_two hv
      rw [hk] at this
      exact_mod_cast this
    rw [le_div_iff₀ (by positivity)] at hle
    have hle' : 2 ^ (k + 52) * den ≤ num := by exact_mod_cast hle
    simp only [Int.toNat_neg_natCast, Int.toNat_natCast, pow_zero, mul_one]
    calc 2 ^ 52 * (den * 2 ^ k) = 2 ^ (k + 52) * den := by ring
      _ ≤ num := hle'
  have hk' : 972 ≤ k := by omega
  rw [infinityPlace, Nat.pow_eq]
  omega

/-- What is less than half of the least double is rounded to zero. -/
theorem nearestPlace_of_lt {num den : ℕ} (hd : 0 < den) (h : (num / den : ℚ) < 2 ^ (-1075 : ℤ)) :
    nearestPlace num den = 0 := by
  rcases Nat.eq_zero_or_pos num with rfl | hn
  · simp [nearestPlace]
  have hv : (0 : ℚ) < num / den := by positivity
  have hlog : Int.log 2 (num / den : ℚ) < -1075 :=
    (Int.lt_zpow_iff_log_lt one_lt_two hv).1 (by exact_mod_cast h)
  -- The exponent is kept as a variable, so that its power is not computed.
  obtain ⟨k, hk⟩ : ∃ k : ℕ, (1074 : ℤ) = k := ⟨1074, rfl⟩
  have hlt : num * 2 ^ (k + 1) < den := by
    have h' := mt (zpow_le_div_iff two_pos hd (-((k + 1 : ℕ) : ℤ))).2 (not_le.2 (by
      push_cast
      rwa [← hk]))
    simpa only [neg_neg, Int.toNat_natCast, Int.toNat_neg_natCast, pow_zero, mul_one, not_le]
      using h'
  rw [nearestPlace_eq hn hd (e := -k) (by omega), neg_neg, Int.toNat_natCast,
    Int.toNat_neg_natCast, pow_zero, mul_one, roundDiv_eq_zero, hk, neg_add_cancel]
  · simp
  · rwa [mul_left_comm, ← pow_succ']

/-- A mantissa and an exponent that a double may have are rounded to the double
    that has them. -/
theorem nearestPlace_of_magnitude {m : ℕ} {q : ℤ} (h₀ : 0 < m) (hm : m < 2 ^ 53)
    (hq : -1074 ≤ q) (h : 2 ^ 52 ≤ m ∨ q = -1074) :
    nearestPlace (m * 2 ^ q.toNat) (2 ^ (-q).toNat) =
      min ((q + 1074).toNat * 2 ^ 52 + m) infinityPlace := by
  have hv : ((m * 2 ^ q.toNat : ℕ) / (2 ^ (-q).toNat : ℕ) : ℚ) = m * 2 ^ q := by
    have := zpow_eq_div 2 q
    push_cast at this ⊢
    rw [this, mul_div_assoc]
  have hpos : (0 : ℚ) < m * 2 ^ q := by positivity
  have hhigh : Int.log 2 (m * 2 ^ q : ℚ) < q + 53 := by
    refine (Int.lt_zpow_iff_log_lt one_lt_two hpos).1 ?_
    have : (m : ℚ) < 2 ^ 53 := by exact_mod_cast hm
    rw [add_comm, Nat.cast_ofNat, zpow_add₀ two_ne_zero]
    gcongr
    exact_mod_cast this
  have hlow : 2 ^ 52 ≤ m → q + 52 ≤ Int.log 2 (m * 2 ^ q : ℚ) := by
    intro h
    refine (Int.zpow_le_iff_le_log one_lt_two hpos).1 ?_
    have : (2 : ℚ) ^ 52 ≤ m := by exact_mod_cast h
    rw [add_comm, Nat.cast_ofNat, zpow_add₀ two_ne_zero]
    gcongr
    exact_mod_cast this
  rw [nearestPlace_eq (by positivity) (by positivity) (e := q) (by rw [hv]; omega),
    mul_assoc, mul_comm (2 ^ (-q).toNat), roundDiv_mul_self _ (by positivity)]

/-- What a finite double stands for is rounded to that double. -/
theorem nearestPlace_quotient {x : Float} (h : x.isFinite) :
    nearestPlace (quotient x).1 (quotient x).2 = place x := by
  rw [isFinite_iff, infinityPlace, Nat.pow_eq] at h
  rcases Nat.eq_zero_or_pos (place x) with h₀ | h₀
  · have hq : (quotient x).1 = 0 := by
      simp only [quotient, magnitude, h₀, Nat.zero_div, Nat.zero_mod, if_true, zero_mul]
    rw [hq, h₀, nearestPlace, if_pos rfl]
  by_cases hf : place x / 2 ^ 52 = 0
  · -- A subnormal double: its place is its mantissa.
    have hlt : place x < 2 ^ 52 := by omega
    simp only [quotient, magnitude, Nat.pow_eq, if_pos hf, Nat.mod_eq_of_lt hlt]
    rw [nearestPlace_of_magnitude h₀ (by omega) le_rfl (.inr rfl), infinityPlace, Nat.pow_eq]
    omega
  · simp only [quotient, magnitude, Nat.pow_eq, if_neg hf]
    -- The leading bit that the mantissa has in
    -- addition is one more in the exponent field.
    rw [nearestPlace_of_magnitude (by omega) (by omega) (by omega) (.inl (by omega)),
      infinityPlace, Nat.pow_eq]
    omega

/-- A finite double is the one next to what it stands for. -/
theorem nearest_quotient {x : Float} (h : x.isFinite) :
    nearest (isNegative x) (quotient x).1 (quotient x).2 = x := by
  rw [nearest, nearestPlace_quotient h, ofPlace_place]

/-! ## Decimal numbers -/

/-- The value of a decimal number without its sign. -/
def value (d : Decimal) : ℚ := d.coefficient * 10 ^ d.exponent

theorem toQuotient_pos (d : Decimal) : 0 < d.toQuotient.2 := Nat.pow_pos (by decide)

theorem div_toQuotient (d : Decimal) : (d.toQuotient.1 / d.toQuotient.2 : ℚ) = d.value := by
  have := zpow_eq_div 10 d.exponent
  simp only [toQuotient, Nat.pow_eq, value]
  push_cast at this ⊢
  rw [this, mul_div_assoc]

theorem lt_pow_digitCount (n : ℕ) : n < 10 ^ digitCount n := by
  fun_induction digitCount n with
  | case1 => simp
  | case2 n _ ih =>
    rw [pow_succ]
    omega

theorem pow_digitCount_le {n : ℕ} (h : n ≠ 0) : 10 ^ digitCount n ≤ 10 * n := by
  fun_induction digitCount n with
  | case1 => contradiction
  | case2 n _ ih =>
    rw [pow_succ]
    by_cases h' : n / 10 = 0
    · rw [h', digitCount]
      simp
      omega
    · have := ih h'
      omega

/-- The size of a decimal number tells its value up to a power of ten. -/
theorem zpow_le_value {d : Decimal} (h₀ : d.coefficient ≠ 0) {k : ℤ}
    (h : k < digitCount d.coefficient + d.exponent) : (10 : ℚ) ^ k ≤ d.value := by
  have hc : (10 : ℚ) ^ (digitCount d.coefficient : ℤ) ≤ 10 * d.coefficient := by
    exact_mod_cast pow_digitCount_le h₀
  calc (10 : ℚ) ^ k ≤ 10 ^ (digitCount d.coefficient + d.exponent - 1 : ℤ) :=
        zpow_le_zpow_right₀ (by norm_num) (by omega)
    _ = 10 ^ (digitCount d.coefficient : ℤ) / 10 * 10 ^ d.exponent := by
        rw [zpow_sub₀ (by norm_num), zpow_add₀ (by norm_num), zpow_one]
        ring
    _ ≤ d.coefficient * 10 ^ d.exponent := by
        gcongr
        linarith

theorem value_lt_zpow {d : Decimal} {k : ℤ} (h : digitCount d.coefficient + d.exponent ≤ k) :
    d.value < (10 : ℚ) ^ k := by
  have hc : (d.coefficient : ℚ) < 10 ^ (digitCount d.coefficient : ℤ) := by
    exact_mod_cast lt_pow_digitCount d.coefficient
  calc d.value < 10 ^ (digitCount d.coefficient : ℤ) * 10 ^ d.exponent := by
        rw [value]
        gcongr
    _ = 10 ^ (digitCount d.coefficient + d.exponent : ℤ) := (zpow_add₀ (by norm_num) _ _).symm
    _ ≤ 10 ^ k := zpow_le_zpow_right₀ (by norm_num) h

/-- The far numbers, which are settled by their size alone, are rounded no
    differently from all others. -/
theorem toFloat_eq_nearest (d : Decimal) :
    d.toFloat = nearest d.negative d.toQuotient.1 d.toQuotient.2 := by
  simp only [toFloat, nearest]
  split_ifs with h₀ hbig hsmall
  · simp [toQuotient, h₀, nearestPlace]
  · rw [nearestPlace_of_le d.toQuotient_pos]
    rw [div_toQuotient]
    calc (2 : ℚ) ^ 1024 ≤ 10 ^ (310 : ℤ) := by
          exact_mod_cast (by decide +kernel : 2 ^ 1024 ≤ 10 ^ 310)
      _ ≤ d.value := zpow_le_value h₀ hbig
  · rw [nearestPlace_of_lt d.toQuotient_pos]
    rw [div_toQuotient]
    calc d.value < (10 : ℚ) ^ (-331 : ℤ) := value_lt_zpow (by omega)
      _ ≤ 2 ^ (-1075 : ℤ) := by
          rw [zpow_neg, zpow_neg]
          refine inv_anti₀ (by positivity) ?_
          exact_mod_cast (by decide +kernel : 2 ^ 1075 ≤ 10 ^ 331)
  · rfl

/-- What a decimal number is read as depends on its sign and its value only. -/
theorem toFloat_congr {d d' : Decimal} (hs : d.negative = d'.negative) (hv : d.value = d'.value) :
    d.toFloat = d'.toFloat := by
  rw [toFloat_eq_nearest, toFloat_eq_nearest, nearest, nearest, hs,
    nearestPlace_congr d.toQuotient_pos d'.toQuotient_pos
      (by rw [div_toQuotient, div_toQuotient, hv])]

/-! ## The digits of a double -/

theorem quotient_pos (x : Float) : 0 < (quotient x).2 := Nat.pow_pos two_pos

/-- A decimal number with the sign and the value of a double is read as it. -/
theorem toFloat_of_value {d : Decimal} {x : Float} (h : x.isFinite) (hs : d.negative = isNegative x)
    (hv : d.value = (quotient x).1 / (quotient x).2) : d.toFloat = x := by
  rw [toFloat_eq_nearest, hs, nearest, nearestPlace_congr d.toQuotient_pos (quotient_pos x)
    (by rw [div_toQuotient, hv]), ← nearest, nearest_quotient h]

theorem div_quotient (x : Float) :
    ((quotient x).1 / (quotient x).2 : ℚ) = (magnitude x).1 * 2 ^ (magnitude x).2 := by
  have := zpow_eq_div 2 (magnitude x).2
  simp only [quotient, Nat.pow_eq]
  push_cast at this ⊢
  rw [this, mul_div_assoc]

theorem exact_negative (x : Float) : (exact x).negative = isNegative x := by
  simp only [exact]
  split_ifs <;> rfl

/-- All digits of a double read back as that double. -/
theorem toFloat_exact {x : Float} (h : x.isFinite) : (exact x).toFloat = x := by
  apply toFloat_of_value h (exact_negative x)
  · rw [div_quotient]
    generalize hq : (magnitude x).2 = q
    simp only [exact, value, hq, Nat.pow_eq]
    split_ifs with h₀
    · lift q to ℕ using h₀
      push_cast
      simp
    · -- Halves are tenths of fives, as often as the exponent says.
      obtain ⟨k, rfl⟩ := Int.exists_eq_neg_ofNat (not_le.1 h₀).le
      push_cast
      rw [neg_neg, Int.toNat_natCast, zpow_neg, zpow_neg, zpow_natCast, zpow_natCast,
        (by norm_num : (10 : ℚ) = 5 * 2), mul_pow]
      field_simp

theorem trim_negative (d : Decimal) : d.trim.negative = d.negative := by
  fun_induction trim d <;> simp_all

theorem trim_value (d : Decimal) : d.trim.value = d.value := by
  fun_induction trim d with
  | case1 d h ih =>
    have hc : (d.coefficient : ℚ) = (d.coefficient / 10 : ℕ) * 10 := by
      exact_mod_cast (Nat.div_mul_cancel (Nat.dvd_of_mod_eq_zero h.2)).symm
    rw [ih, value, value, hc, zpow_add_one₀ (by norm_num)]
    ring
  | case2 => rfl

theorem toFloat_trim (d : Decimal) : d.trim.toFloat = d.toFloat :=
  toFloat_congr (trim_negative d) (trim_value d)

theorem toFloat_of_readsAs {d : Decimal} {x : Float} (h : d.readsAs x) : d.toFloat = x :=
  toBits_injective (eq_of_beq h)

/-- What a grid has for a double reads back as it and has its sign. -/
theorem readsAs_of_onGrid {x : Float} {g : ℤ} {d : Decimal} (h : onGrid x g = some d) :
    d.readsAs x ∧ d.negative = isNegative x := by
  simp only [onGrid] at h
  split at h
  · next hbelow habove =>
    split at h
    · exact Option.some.inj h ▸ ⟨hbelow, rfl⟩
    · exact Option.some.inj h ▸ ⟨habove, rfl⟩
    · split_ifs at h
      · exact Option.some.inj h ▸ ⟨hbelow, rfl⟩
      · exact Option.some.inj h ▸ ⟨habove, rfl⟩
  · next hbelow _ => exact Option.some.inj h ▸ ⟨hbelow, rfl⟩
  · next _ habove => exact Option.some.inj h ▸ ⟨habove, rfl⟩
  · cases h

/-- The fewest digits that read back do read back. -/
theorem toFloat_shortest {x : Float} (h : x.isFinite) : (shortest x).toFloat = x := by
  simp only [shortest]
  split_ifs with h₀
  · exact toFloat_of_value h rfl (by simp [value, h₀])
  · rw [toFloat_trim]
    -- Either some grid has a number that reads back, or all digits are taken.
    cases hs : List.findSome? _ _ with
    | none => exact toFloat_exact h
    | some d =>
      obtain ⟨n, -, hd⟩ := List.exists_of_findSome?_eq_some hs
      exact toFloat_of_readsAs (readsAs_of_onGrid hd).1

theorem shortest_negative (x : Float) : (shortest x).negative = isNegative x := by
  simp only [shortest]
  split_ifs with h₀
  · rfl
  · rw [trim_negative]
    cases hs : List.findSome? _ _ with
    | none => exact exact_negative x
    | some d =>
      obtain ⟨n, -, hd⟩ := List.exists_of_findSome?_eq_some hs
      exact (readsAs_of_onGrid hd).2

end AnchorLayout.Decimal
