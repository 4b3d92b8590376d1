import AnchorLayout.Proofs.Decimal.Order

/-!
# The arithmetic of doubles

The sum, the difference, the product and the quotient of finite doubles are the
doubles next to those of the numbers they stand for (`rank_add`, `rank_sub`,
`rank_mul`, `rank_div`): each is computed exactly and then rounded once.

A mantissa that is too long is shifted out bit by bit. What is kept of these
bits tells how the rest compares with a half (`Holds`), which is all that
rounding asks for.
-/

namespace AnchorLayout.Decimal

open Float.Model Float.Model.UnpackedFloat

/-! ## Extended mantissas -/

/-- A mantissa with the bits that were shifted out of it tells of a quotient
    its integral part, and how what is left compares with a half. -/
structure Holds (em : ExtendedMantissa) (num den : ℕ) : Prop where
  mantissa : em.mantissa = num / den
  roundBit : em.roundBit = decide (den ≤ 2 * (num % den))
  stickyBit : em.stickyBit = decide (2 * (num % den) ≠ 0 ∧ 2 * (num % den) ≠ den)

theorem holds_ofMantissaAndAccuracy (num den : ℕ) (hd : 0 < den) :
    Holds (.ofMantissaAndAccuracy (num / den) (accuracyOfFraction (num % den) den)) num den := by
  unfold accuracyOfFraction
  split_ifs with h₀
  · exact ⟨rfl, by simp [ExtendedMantissa.ofMantissaAndAccuracy, h₀, hd.ne'],
      by simp [ExtendedMantissa.ofMantissaAndAccuracy, h₀]⟩
  · rcases lt_trichotomy (2 * (num % den)) den with h | h | h
    · rw [compare_lt_iff_lt.2 h]
      exact ⟨rfl, by simp [ExtendedMantissa.ofMantissaAndAccuracy, h],
        by simp [ExtendedMantissa.ofMantissaAndAccuracy, h₀, h.ne]⟩
    · rw [compare_eq_iff_eq.2 h]
      exact ⟨rfl, by simp [ExtendedMantissa.ofMantissaAndAccuracy, h],
        by simp [ExtendedMantissa.ofMantissaAndAccuracy, h]⟩
    · rw [compare_gt_iff_gt.2 h]
      exact ⟨rfl, by simp [ExtendedMantissa.ofMantissaAndAccuracy, h.le],
        by simp [ExtendedMantissa.ofMantissaAndAccuracy, h₀, h.ne']⟩

/-- A bit that is shifted out doubles the denominator. -/
theorem Holds.shiftRightOne {em : ExtendedMantissa} {num den : ℕ} (hd : 0 < den)
    (h : Holds em num den) : Holds em.shiftRightOne num (den * 2) := by
  obtain ⟨hm, hr, hs⟩ := h
  have hlt := Nat.mod_lt num hd
  have hmod : num % (den * 2) = num % den + den * (num / den % 2) := Nat.mod_mul
  have hparity : num / den % 2 = 0 ∨ num / den % 2 = 1 := by omega
  refine ⟨?_, ?_, ?_⟩
  · simp only [ExtendedMantissa.shiftRightOne, hm, Nat.div_div_eq_div_mul]
  · simp only [ExtendedMantissa.shiftRightOne, hm, hmod]
    rcases hparity with h | h <;> simp [h] <;> omega
  · simp only [ExtendedMantissa.shiftRightOne, hr, hs, hmod, ← Bool.decide_or]
    congr 1
    rcases hparity with h | h <;> simp only [h, eq_iff_iff] <;> omega

/-- Bits that are shifted out are not forgotten, as far as rounding asks for
    them. -/
theorem Holds.shiftRight {em : ExtendedMantissa} {num den : ℕ} (hd : 0 < den)
    (h : Holds em num den) (k : ℕ) : Holds (em >>> k) num (den * 2 ^ k) := by
  change Holds (k.repeat ExtendedMantissa.shiftRightOne em) _ _
  induction k with
  | zero => simpa [Nat.repeat] using h
  | succ k ih =>
    rw [pow_succ, ← mul_assoc]
    exact ih.shiftRightOne (by positivity)

/-- The bits that were shifted out suffice for rounding. -/
theorem Holds.roundedMantissa {em : ExtendedMantissa} {num den : ℕ} (h : Holds em num den) :
    em.roundedMantissa = roundDiv num den := by
  obtain ⟨m, r, s⟩ := em
  obtain ⟨rfl, hr, hs⟩ := h
  simp only at hr hs
  simp only [roundDiv, ExtendedMantissa.roundedMantissa]
  rcases r <;> rcases s <;>
    simp only [ExtendedMantissa.accuracy, Accuracy.roundToNearestEven, eq_comm (a := true),
      eq_comm (a := false), decide_eq_true_eq, decide_eq_false_iff_not] at * <;>
    split_ifs <;> omega

/-! ## Packing results -/

/-- The double that a result is packed to. -/
def ofUnpacked (u : UnpackedFloat) : Float := ⟨Float.Model.pack u⟩

theorem rank_ofUnpacked {u : UnpackedFloat} {s : Sign} {e : BitVec 11} {m : BitVec 52}
    (h : UnpackedFloat.pack Format.binary64 u = packComponents Format.binary64 s e m) :
    rank (ofUnpacked u) = s.apply (e.toNat * 2 ^ 52 + m.toNat : ℕ) := by
  have hb : (ofUnpacked u).toBits.toNat = s.toBitVec.toNat * 2 ^ 63 + e.toNat * 2 ^ 52 + m.toNat :=
    (congrArg BitVec.toNat h).trans (toNat_packComponents s e m)
  have he : e.toNat < 2 ^ 11 := e.isLt
  have hm : m.toNat < 2 ^ 52 := m.isLt
  rw [rank, place, isNegative, hb, Nat.pow_eq]
  cases s
  · have hs : Sign.negative.toBitVec.toNat = 1 := rfl
    rw [hs, if_pos (decide_eq_true (by omega)), Sign.apply]
    omega
  · have hs : Sign.positive.toBitVec.toNat = 0 := rfl
    rw [hs, if_neg (by rw [decide_eq_true_eq]; omega), Sign.apply]
    omega

theorem rank_ofUnpacked_zero (s : Sign) : rank (ofUnpacked (.zero s)) = 0 := by
  rw [rank_ofUnpacked (u := .zero s) (s := s) (e := 0#11) (m := 0#52) rfl, BitVec.toNat_zero,
    BitVec.toNat_zero, zero_mul]
  cases s <;> rfl

/-- Infinities are at the two ends of the ranks. -/
theorem rank_ofUnpacked_infinity (s : Sign) :
    rank (ofUnpacked (.infinity s)) = s.apply infinityPlace :=
  rank_ofUnpacked (u := .infinity s) (s := s) (e := -1#11) (m := 0#52) rfl

/-- Results beyond the finite doubles are packed to infinity. -/
theorem rank_ofUnpacked_finite (s : Sign) {m : ℕ} {e : ℤ} (h : 0 < m) (hc : IsCanonical m e) :
    rank (ofUnpacked (.finite s m e h)) = s.apply (min (placeOf m e) infinityPlace : ℕ) := by
  obtain ⟨-, hm, he, hme⟩ := hc
  have hinf : infinityPlace = 2047 * 2 ^ 52 := rfl
  by_cases hbig : 972 ≤ e
  · have hp : UnpackedFloat.pack Format.binary64 (.finite s m e h) =
        packComponents Format.binary64 s (-1#11) 0#52 := by
      unfold UnpackedFloat.pack
      exact if_pos (by simp [Format.exponentBias]; omega)
    rw [rank_ofUnpacked hp, min_eq_right (by rw [placeOf]; omega)]
    rfl
  by_cases hn : 2 ^ 52 ≤ m
  · obtain ⟨k, hk⟩ : ∃ k : ℕ, e = (k : ℤ) - 1075 := ⟨(e + 1075).toNat, by omega⟩
    subst hk
    rw [rank_ofUnpacked (pack_normal s h hn hm (by omega)), min_eq_left (by rw [placeOf]; omega)]
    refine congrArg (fun n : ℕ => s.apply n) ?_
    simp only [BitVec.toNat_ofNat, placeOf]
    omega
  · obtain rfl : e = -1074 := by omega
    rw [rank_ofUnpacked (pack_subnormal s h (by omega)), min_eq_left (by rw [placeOf]; omega)]
    refine congrArg (fun n : ℕ => s.apply n) ?_
    simp only [BitVec.toNat_ofNat, placeOf]
    omega

/-! ## Rounding results -/

/-- A double has 53 bits, or fewer where it is very small. -/
theorem targetExponent_binary64 (e : ℤ) :
    Format.binary64.targetExponent e = max (e - 53) (-1074) := rfl

theorem shiftToTargetExponent_of_le {m : ℕ} {e : ℤ} {a : Accuracy}
    (h : Format.binary64.targetExponent (totalExponent m e) ≤ e) :
    shiftToTargetExponent Format.binary64 m e a = (.ofMantissaAndAccuracy m a, e) := by
  have hz : (Format.binary64.targetExponent (totalExponent m e) - e).toNat = 0 := by omega
  simp [shiftToTargetExponent, shiftToExponent, hz, HShiftRight.hShiftRight, Nat.repeat]

/-- A rounded mantissa may have carried into the next power of two, which is
    then shifted back. -/
theorem exists_carry {m : ℕ} {e : ℤ} (hm : m ≤ 2 ^ 53) (he : -1074 ≤ e)
    (hn : 2 ^ 52 ≤ m ∨ e = -1074) :
    ∃ m' e', shiftToTargetExponent Format.binary64 m e .exact =
        (.ofMantissaAndAccuracy m' .exact, e') ∧
      placeOf m' e' = placeOf m e ∧ (m' = 0 ∧ e' = -1074 ∨ IsCanonical m' e') := by
  rcases hm.lt_or_eq with hlt | rfl
  · refine ⟨m, e, shiftToTargetExponent_of_le ?_, rfl, ?_⟩
    · have hlog : m.log2 < 53 := by
        rcases Nat.eq_zero_or_pos m with rfl | h₀
        · simp
        · exact (Nat.log2_lt h₀.ne').2 hlt
      rw [targetExponent_binary64, totalExponent]
      omega
    · rcases Nat.eq_zero_or_pos m with rfl | h₀
      · exact .inl ⟨rfl, hn.resolve_left (by decide)⟩
      · exact .inr ⟨h₀, hlt, he, hn⟩
  · refine ⟨2 ^ 52, e + 1, ?_, ?_, .inr ⟨by decide, by decide, by omega, .inl le_rfl⟩⟩
    · have ht : Format.binary64.targetExponent (totalExponent (2 ^ 53) e) = e + 1 := by
        rw [targetExponent_binary64, totalExponent, Nat.log2_two_pow]
        omega
      simp only [shiftToTargetExponent, ht, shiftToExponent, add_sub_cancel_left]
      rfl
    · rw [placeOf, placeOf]
      omega

theorem log_mul_zpow {v : ℚ} (hv : 0 < v) (e : ℤ) :
    Int.log 2 (v * 2 ^ e) = Int.log 2 v + e := by
  apply log_eq_of_zpow (by positivity)
  · rw [zpow_add₀ two_ne_zero]
    gcongr
    exact_mod_cast Int.zpow_log_le_self one_lt_two hv
  · rw [add_right_comm, zpow_add₀ two_ne_zero _ e]
    gcongr
    exact_mod_cast Int.lt_zpow_succ_log_self one_lt_two v

/-- The exponent that a quotient is shifted to is that of the last digit of a
    double next to it. -/
theorem targetExponent_eq {num den : ℕ} (hn : 0 < num) (hd : 0 < den) {e : ℤ}
    (he : e ≤ Format.binary64.targetExponent (totalExponent (num / den) e)) :
    Format.binary64.targetExponent (totalExponent (num / den) e) =
      max (Int.log 2 (num / den * 2 ^ e : ℚ) - 52) (-1074) := by
  have hv : (0 : ℚ) < num / den := by positivity
  rw [targetExponent_binary64, totalExponent] at he ⊢
  rw [log_mul_zpow hv]
  rcases Nat.eq_zero_or_pos (num / den) with h₀ | h₀
  · -- A quotient without an integral part is only shifted to the least exponent.
    have hlt : (num / den : ℚ) < 2 ^ (0 : ℤ) := by
      rw [zpow_zero, div_lt_one (by positivity)]
      exact_mod_cast (Nat.div_eq_zero_iff_lt hd).1 h₀
    have hlog : Int.log 2 (num / den : ℚ) < 0 :=
      (Int.lt_zpow_iff_log_lt one_lt_two hv).1 (by exact_mod_cast hlt)
    rw [h₀, Nat.log2_zero] at he ⊢
    omega
  · have hlog : Int.log 2 (num / den : ℚ) = (num / den).log2 := by
      have hone : (1 : ℚ) ≤ num / den := by
        rw [one_le_div (by positivity)]
        exact_mod_cast (Nat.div_pos_iff.1 h₀).2
      rw [Int.log_of_one_le_right _ hone, Nat.floor_div_eq_div, Nat.log2_eq_log_two]
    omega

theorem roundDiv_congr {a b c d : ℕ} (hb : 0 < b) (hd : 0 < d) (h : a * d = c * b) :
    roundDiv a b = roundDiv c d :=
  (roundDiv_mono hb hd h.le).antisymm (roundDiv_mono hd hb h.ge)

theorem div_mul_zpow (num den : ℕ) (e : ℤ) :
    (num / den * 2 ^ e : ℚ) = (num * 2 ^ e.toNat : ℕ) / (den * 2 ^ (-e).toNat : ℕ) := by
  have := zpow_eq_div 2 e
  push_cast at this ⊢
  rw [this, div_mul_div_comm]

/-- A quotient with a sign and an exponent is rounded as one of natural
    numbers. -/
theorem nearestRank_div_mul_zpow (s : Sign) (num : ℕ) {den : ℕ} (hd : 0 < den) (e : ℤ) :
    nearestRank (s.apply num / den * 2 ^ e) =
      s.apply (nearestPlace (num * 2 ^ e.toNat) (den * 2 ^ (-e).toNat)) := by
  have hd' : 0 < den * 2 ^ (-e).toNat := by positivity
  have h := nearestRank_div (num * 2 ^ e.toNat) hd'
  rw [← div_mul_zpow] at h
  cases s
  · rw [Sign.apply, Sign.apply, Int.cast_neg, neg_div, neg_mul, nearestRank_neg, Int.cast_natCast,
      h]
  · rw [Sign.apply, Sign.apply, Int.cast_natCast, h]

theorem roundDiv_scaled_shift (num : ℕ) {den : ℕ} (hd : 0 < den) {e t : ℤ} {k : ℕ}
    (hk : t = e + k) :
    roundDiv (num * 2 ^ e.toNat * 2 ^ (-t).toNat) (den * 2 ^ (-e).toNat * 2 ^ t.toNat) =
      roundDiv num (den * 2 ^ k) := by
  apply roundDiv_congr (by positivity) (by positivity)
  calc num * 2 ^ e.toNat * 2 ^ (-t).toNat * (den * 2 ^ k) =
        num * den * 2 ^ (e.toNat + (-t).toNat + k) := by ring
    _ = num * den * 2 ^ ((-e).toNat + t.toNat) := by
        congr 2
        omega
    _ = num * (den * 2 ^ (-e).toNat * 2 ^ t.toNat) := by ring

theorem exponent_scaled {num den : ℕ} (hn : 0 < num) (hd : 0 < den) {e t : ℤ}
    (ht : t = max (Int.log 2 (num / den : ℚ) + e - 52) (-1074)) :
    t = max (Int.log 2 ((num * 2 ^ e.toNat : ℕ) / (den * 2 ^ (-e).toNat : ℕ) : ℚ) - 52)
      (-1074) := by
  rw [← div_mul_zpow, log_mul_zpow (by positivity), ht]

/-- A quotient that is shifted to the exponent of the last digit of a double is
    rounded to the mantissa of one, up to a carry. -/
theorem roundDiv_shifted {num den : ℕ} (hn : 0 < num) (hd : 0 < den) {e t : ℤ} {k : ℕ}
    (hk : t = e + k) (ht : t = max (Int.log 2 (num / den : ℚ) + e - 52) (-1074)) :
    roundDiv num (den * 2 ^ k) ≤ 2 ^ 53 ∧
      (2 ^ 52 ≤ roundDiv num (den * 2 ^ k) ∨ t = -1074) := by
  rw [← roundDiv_scaled_shift num hd hk]
  exact roundDiv_scaled (by positivity) (by positivity) (exponent_scaled hn hd ht)

theorem nearestPlace_shifted {num den : ℕ} (hn : 0 < num) (hd : 0 < den) {e t : ℤ} {k : ℕ}
    (hk : t = e + k) (ht : t = max (Int.log 2 (num / den : ℚ) + e - 52) (-1074)) :
    nearestPlace (num * 2 ^ e.toNat) (den * 2 ^ (-e).toNat) =
      min (placeOf (roundDiv num (den * 2 ^ k)) t) infinityPlace := by
  rw [nearestPlace_eq (by positivity) (by positivity) (exponent_scaled hn hd ht),
    roundDiv_scaled_shift num hd hk, placeOf]

/-- A quotient times a power of two is rounded to the double next to it. -/
theorem rank_roundWithAccuracy (s : Sign) {num den : ℕ} (hn : 0 < num) (hd : 0 < den) {e : ℤ}
    (he : e ≤ Format.binary64.targetExponent (totalExponent (num / den) e)) :
    rank (ofUnpacked (roundWithAccuracy Format.binary64 s (num / den) e
      (accuracyOfFraction (num % den) den))) = nearestRank (s.apply num / den * 2 ^ e) := by
  have ht := targetExponent_eq hn hd he
  rw [log_mul_zpow (by positivity)] at ht
  obtain ⟨t, hte⟩ : ∃ t, t = Format.binary64.targetExponent (totalExponent (num / den) e) :=
    ⟨_, rfl⟩
  obtain ⟨k, hk⟩ : ∃ k : ℕ, t = e + k := ⟨(t - e).toNat, by omega⟩
  rw [← hte] at ht
  -- The first shift makes the mantissa that of a
  -- double, the second one makes up for a carry.
  have hshift : shiftToTargetExponent Format.binary64 (num / den) e
      (accuracyOfFraction (num % den) den) = (ExtendedMantissa.ofMantissaAndAccuracy (num / den)
        (accuracyOfFraction (num % den) den) >>> k, t) := by
    simp only [shiftToTargetExponent, shiftToExponent, ← hte, hk, add_sub_cancel_left,
      Int.toNat_natCast]
  have hround := ((holds_ofMantissaAndAccuracy num den hd).shiftRight hd k).roundedMantissa
  obtain ⟨hle, hge⟩ := roundDiv_shifted hn hd hk ht
  obtain ⟨m, f, hcarry, hplace, hc⟩ := exists_carry hle (by omega) hge
  rw [nearestRank_div_mul_zpow s num hd, nearestPlace_shifted hn hd hk ht, ← hplace]
  have hm : (ExtendedMantissa.ofMantissaAndAccuracy m .exact).mantissa = m := rfl
  simp only [roundWithAccuracy, hshift, hround, hcarry, hm]
  rcases hc with ⟨rfl, rfl⟩ | hc
  · rw [dif_pos rfl, rank_ofUnpacked_zero]
    cases s <;> rfl
  · rw [dif_neg hc.pos.ne', rank_ofUnpacked_finite s _ hc]

/-- A mantissa without a rest is rounded likewise. -/
theorem rank_roundWithAccuracy_exact (s : Sign) {m : ℕ} (hm : 0 < m) {e : ℤ}
    (he : e ≤ Format.binary64.targetExponent (totalExponent m e)) :
    rank (ofUnpacked (roundWithAccuracy Format.binary64 s m e .exact)) =
      nearestRank (s.apply m * 2 ^ e) := by
  have h := rank_roundWithAccuracy s hm one_pos (e := e) (by rwa [Nat.div_one])
  rwa [Nat.div_one, Nat.mod_one, Nat.cast_one, div_one] at h

/-- A mantissa and an exponent are rounded to the double next to their
    number. -/
theorem rank_round (s : Sign) {m : ℕ} (hm : 0 < m) (e : ℤ) :
    rank (ofUnpacked (UnpackedFloat.round Format.binary64 s m e)) =
      nearestRank (s.apply m * 2 ^ e) := by
  obtain ⟨k, hk⟩ : ∃ k, k = (e - Format.binary64.targetExponent (totalExponent m e)).toNat :=
    ⟨_, rfl⟩
  -- A longer mantissa with a lesser exponent has the same total exponent.
  have hlog : (m * 2 ^ k).log2 = m.log2 + k := by
    rw [Nat.log2_eq_iff (by positivity), pow_add, add_right_comm, pow_add]
    exact ⟨Nat.mul_le_mul_right _ (Nat.log2_self_le hm.ne'),
      (Nat.mul_lt_mul_right (by positivity)).2 Nat.lt_log2_self⟩
  have htotal : totalExponent (m * 2 ^ k) (e - k) = totalExponent m e := by
    rw [totalExponent, totalExponent, hlog]
    push_cast
    ring
  have h := rank_roundWithAccuracy_exact s (m := m * 2 ^ k) (by positivity) (e := e - k)
    (by rw [htotal]; omega)
  have hv : (s.apply (m * 2 ^ k : ℕ) * 2 ^ (e - k) : ℚ) = s.apply m * 2 ^ e := by
    rw [zpow_sub₀ two_ne_zero, zpow_natCast]
    cases s <;> simp only [Sign.apply] <;> push_cast <;> field_simp
  rw [hv] at h
  simp only [UnpackedFloat.round, decreaseExponent, ← hk, Nat.shiftLeft_eq]
  exact h

theorem rank_normalize (m e : ℤ) (s : Sign) :
    rank (ofUnpacked (UnpackedFloat.normalize Format.binary64 m e s)) =
      nearestRank (m * 2 ^ e) := by
  unfold UnpackedFloat.normalize
  rcases lt_trichotomy m 0 with h | rfl | h
  · rw [compare_lt_iff_lt.2 h]
    refine (rank_round .negative (by omega) e).trans ?_
    rw [Sign.apply, Int.toNat_of_nonneg (by omega), neg_neg]
  · rw [compare_eq_iff_eq.2 rfl]
    refine (rank_ofUnpacked_zero s).trans ?_
    simp [nearestRank, nearestPlace]
  · rw [compare_gt_iff_gt.2 h]
    refine (rank_round .positive (by omega) e).trans ?_
    rw [Sign.apply, Int.toNat_of_nonneg h.le]

/-! ## Arithmetic -/

/-- What a finite double is unpacked to, with the number it stands for. -/
inductive UnpackedFinite (x : Float) : UnpackedFloat → Prop
  | zero {s : Sign} (hv : rational x = 0) : UnpackedFinite x (.zero s)
  | finite {s : Sign} {m : ℕ} {e : ℤ} {h : 0 < m} (hc : IsCanonical m e)
    (hv : rational x = s.apply m * 2 ^ e) : UnpackedFinite x (.finite s m e h)

theorem unpackedFinite {x : Float} (h : x.isFinite) : UnpackedFinite x x.toModel.unpack := by
  rw [isFinite_iff] at h
  have hu := unpacked x
  generalize x.toModel.unpack = u at hu ⊢
  cases hu with
  | infinity _ hp => omega
  | notANumber hp => omega
  | zero hs hp => exact .zero (rational_of_place_eq_zero hp)
  | finite hs hc hp => exact .finite hc (rational_of_finite hs hc hp)

theorem rank_ofUnpacked_of_isCanonical (s : Sign) {m : ℕ} {e : ℤ} (h : 0 < m)
    (hc : IsCanonical m e) :
    rank (ofUnpacked (.finite s m e h)) = nearestRank (s.apply m * 2 ^ e) := by
  have hn := nearestRank_div_mul_zpow s m one_pos e
  rw [Nat.cast_one, div_one, one_mul, nearestPlace_of_magnitude hc.pos hc.lt hc.le hc.normal] at hn
  rw [hn, rank_ofUnpacked_finite s h hc, placeOf]

theorem apply_neg (s : Sign) (n : ℤ) : (-s).apply n = -s.apply n := by
  cases s
  · exact (neg_neg n).symm
  · rfl

/-- The opposite of a double has the opposite rank, unless it is no number. -/
theorem UnpackedFinite.neg {x : Float} {u : UnpackedFloat} (h : UnpackedFinite x u) :
    rank (ofUnpacked u.neg) = nearestRank (-rational x) := by
  cases h with
  | zero hv => exact (rank_ofUnpacked_zero _).trans (by rw [hv]; rfl)
  | finite hc hv =>
    refine (rank_ofUnpacked_of_isCanonical _ _ hc).trans ?_
    rw [hv, apply_neg, Int.cast_neg, neg_mul]

/-- A mantissa brought to a lesser exponent. -/
theorem apply_shiftLeft (s : Sign) (m : ℕ) {e f : ℤ} (h : f ≤ e) :
    (s.apply (m <<< (e - f).toNat : ℕ) * 2 ^ f : ℚ) = s.apply m * 2 ^ e := by
  obtain ⟨k, rfl⟩ : ∃ k : ℕ, e = f + k := ⟨(e - f).toNat, by omega⟩
  rw [add_sub_cancel_left, Int.toNat_natCast, Nat.shiftLeft_eq, zpow_add₀ two_ne_zero,
    zpow_natCast]
  cases s <;> simp only [Sign.apply] <;> push_cast <;> ring

/-- A sum of finite doubles is the double next to the sum of their numbers. -/
theorem rank_add {x y : Float} (hx : x.isFinite) (hy : y.isFinite) :
    rank (x + y) = nearestRank (rational x + rational y) := by
  change rank (ofUnpacked (UnpackedFloat.add _ x.toModel.unpack y.toModel.unpack)) = _
  have hux := unpackedFinite hx
  have huy := unpackedFinite hy
  generalize x.toModel.unpack = u at hux ⊢
  generalize y.toModel.unpack = v at huy ⊢
  rcases hux with @⟨s, hv⟩ | @⟨s, m, e, hm, hc, hv⟩ <;>
    rcases huy with @⟨t, hw⟩ | @⟨t, n, f, hn, hd, hw⟩
  · rw [hv, hw, add_zero]
    cases s <;> cases t <;> exact rank_ofUnpacked_zero _
  · rw [hv, zero_add, hw]
    exact rank_ofUnpacked_of_isCanonical t hn hd
  · rw [hw, add_zero, hv]
    exact rank_ofUnpacked_of_isCanonical s hm hc
  · refine (rank_normalize _ _ .positive).trans ?_
    rw [hv, hw, Int.cast_add, add_mul, apply_shiftLeft s m (min_le_left e f),
      apply_shiftLeft t n (min_le_right e f)]

/-- A difference of finite doubles is the double next to that of their
    numbers. -/
theorem rank_sub {x y : Float} (hx : x.isFinite) (hy : y.isFinite) :
    rank (x - y) = nearestRank (rational x - rational y) := by
  change rank (ofUnpacked (UnpackedFloat.sub _ x.toModel.unpack y.toModel.unpack)) = _
  have hux := unpackedFinite hx
  have huy := unpackedFinite hy
  generalize x.toModel.unpack = u at hux ⊢
  generalize y.toModel.unpack = v at huy ⊢
  rcases hux with @⟨s, hv⟩ | @⟨s, m, e, hm, hc, hv⟩ <;>
    rcases huy with @⟨t, hw⟩ | @⟨t, n, f, hn, hd, hw⟩
  · rw [hv, hw, sub_zero]
    cases s <;> cases t <;> exact rank_ofUnpacked_zero _
  · rw [hv, zero_sub]
    exact (UnpackedFinite.finite (s := t) hd hw).neg
  · rw [hw, sub_zero, hv]
    exact rank_ofUnpacked_of_isCanonical s hm hc
  · refine (rank_normalize _ _ .positive).trans ?_
    rw [hv, hw, Int.cast_sub, sub_mul, apply_shiftLeft s m (min_le_left e f),
      apply_shiftLeft t n (min_le_right e f)]

theorem apply_mul (s t : Sign) (m n : ℕ) :
    (s * t).apply (m * n : ℕ) = s.apply m * t.apply n := by
  rw [Nat.cast_mul]
  cases s <;> cases t
  · exact (neg_mul_neg _ _).symm
  · exact (neg_mul _ _).symm
  · exact (mul_neg _ _).symm
  · rfl

/-- The product of two mantissas is long enough to be shifted to that of a
    double. -/
theorem le_targetExponent_mul {m n : ℕ} {e f : ℤ} (hc : IsCanonical m e) (hd : IsCanonical n f) :
    e + f ≤ Format.binary64.targetExponent (totalExponent (m * n) (e + f)) := by
  obtain ⟨hm, -, he, hme⟩ := hc
  obtain ⟨hn, -, hf, hnf⟩ := hd
  rw [targetExponent_binary64, totalExponent]
  by_cases h : 2 ^ 52 ≤ m * n
  · have := (Nat.le_log2 (Nat.mul_pos hm hn).ne').2 h
    omega
  · have h₁ : ¬2 ^ 52 ≤ m := fun h' => h (h'.trans (Nat.le_mul_of_pos_right m hn))
    have h₂ : ¬2 ^ 52 ≤ n := fun h' => h (h'.trans (Nat.le_mul_of_pos_left n hm))
    omega

/-- A product of finite doubles is the double next to that of their numbers. -/
theorem rank_mul {x y : Float} (hx : x.isFinite) (hy : y.isFinite) :
    rank (x * y) = nearestRank (rational x * rational y) := by
  change rank (ofUnpacked (UnpackedFloat.mul _ x.toModel.unpack y.toModel.unpack)) = _
  have hux := unpackedFinite hx
  have huy := unpackedFinite hy
  generalize x.toModel.unpack = u at hux ⊢
  generalize y.toModel.unpack = v at huy ⊢
  rcases hux with @⟨s, hv⟩ | @⟨s, m, e, hm, hc, hv⟩ <;>
    rcases huy with @⟨t, hw⟩ | @⟨t, n, f, hn, hd, hw⟩
  · rw [hv, zero_mul]
    exact rank_ofUnpacked_zero _
  · rw [hv, zero_mul]
    exact rank_ofUnpacked_zero _
  · rw [hw, mul_zero]
    exact rank_ofUnpacked_zero _
  · refine (rank_roundWithAccuracy_exact (s * t) (Nat.mul_pos hm hn)
      (le_targetExponent_mul hc hd)).trans ?_
    rw [hv, hw, apply_mul, Int.cast_mul, zpow_add₀ two_ne_zero, mul_mul_mul_comm]

/-- A product with a factor of one at most is finite. -/
theorem isFinite_mul {x y : Float} (hx : x.isFinite) (hy : y.isFinite) (h : |rational y| ≤ 1) :
    (x * y).isFinite := by
  have hle : |rational x * rational y| ≤ |rational x| := by
    rw [abs_mul]
    exact mul_le_of_le_one_right (abs_nonneg _) h
  have hmono := nearestRank_mono hle
  rw [← natAbs_nearestRank, ← natAbs_nearestRank, ← rank_mul hx hy, nearestRank_rational hx,
    natAbs_rank, natAbs_rank] at hmono
  rw [isFinite_iff] at hx ⊢
  omega

/-- A mantissa is made long enough for its quotient to be shifted to that of a
    double. -/
theorem le_targetExponent_div {m n : ℕ} (hm : 0 < m) (hn : 0 < n) {e f t : ℤ} {k : ℕ}
    (hk : e - f = t + k)
    (ht : t ≤ Format.binary64.targetExponent (totalExponent m e - totalExponent n f)) :
    t ≤ Format.binary64.targetExponent (totalExponent (m * 2 ^ k / n) t) := by
  rw [targetExponent_binary64, totalExponent, totalExponent] at ht
  rw [targetExponent_binary64, totalExponent]
  have hlow := Nat.log2_self_le hm.ne'
  have hhigh := Nat.lt_log2_self (n := n)
  by_cases h : m.log2 + k ≤ n.log2
  · omega
  · -- The quotient has as many bits as its parts tell, or one less.
    have hle : 2 ^ (m.log2 + k - n.log2 - 1) ≤ m * 2 ^ k / n := by
      rw [Nat.le_div_iff_mul_le hn]
      calc 2 ^ (m.log2 + k - n.log2 - 1) * n
          ≤ 2 ^ (m.log2 + k - n.log2 - 1) * 2 ^ (n.log2 + 1) := Nat.mul_le_mul_left _ hhigh.le
        _ = 2 ^ m.log2 * 2 ^ k := by
            rw [← pow_add, ← pow_add]
            congr 1
            omega
        _ ≤ m * 2 ^ k := Nat.mul_le_mul_right _ hlow
    have := (Nat.le_log2 (Nat.ne_of_gt (Nat.lt_of_lt_of_le (Nat.two_pow_pos _) hle))).2 hle
    omega

theorem apply_div (s t : Sign) (m n : ℕ) :
    ((s / t).apply m / n : ℚ) = s.apply m / t.apply n := by
  cases s <;> cases t
  · change ((m : ℤ) / n : ℚ) = (-(m : ℤ) : ℤ) / (-(n : ℤ) : ℤ)
    simp
  · change ((-(m : ℤ) : ℤ) / n : ℚ) = (-(m : ℤ) : ℤ) / (n : ℤ)
    simp
  · change ((-(m : ℤ) : ℤ) / n : ℚ) = (m : ℤ) / (-(n : ℤ) : ℤ)
    simp [div_neg, neg_div]
  · rfl

/-- A quotient of finite doubles is the double next to that of their numbers. -/
theorem rank_div {x y : Float} (hx : x.isFinite) (hy : y.isFinite) (h₀ : rational y ≠ 0) :
    rank (x / y) = nearestRank (rational x / rational y) := by
  change rank (ofUnpacked (UnpackedFloat.div _ x.toModel.unpack y.toModel.unpack)) = _
  have hux := unpackedFinite hx
  have huy := unpackedFinite hy
  generalize x.toModel.unpack = u at hux ⊢
  generalize y.toModel.unpack = v at huy ⊢
  rcases huy with @⟨t, hw⟩ | @⟨t, n, f, hn, hd, hw⟩
  · exact absurd hw h₀
  rcases hux with @⟨s, hv⟩ | @⟨s, m, e, hm, hc, hv⟩
  · rw [hv, zero_div]
    exact rank_ofUnpacked_zero _
  · obtain ⟨g, hg⟩ : ∃ g, g = min (e - f)
        (Format.binary64.targetExponent (totalExponent m e - totalExponent n f)) := ⟨_, rfl⟩
    obtain ⟨k, hk⟩ : ∃ k : ℕ, e - f = g + k := ⟨(e - f - g).toNat, by omega⟩
    have hmk : 0 < m * 2 ^ k := by positivity
    have h := rank_roundWithAccuracy (s / t) hmk hn
      (le_targetExponent_div hm hn hk (by omega))
    have hshift : (e - f - g).toNat = k := by omega
    simp only [UnpackedFloat.div, divCore, ← hg, hshift, Nat.shiftLeft_eq]
    have he : e = f + (g + k) := by omega
    have hs : (s.apply (m * 2 ^ k : ℕ) : ℚ) = s.apply m * 2 ^ k := by
      cases s <;> simp only [Sign.apply] <;> push_cast <;> ring
    rw [h, hv, hw, apply_div, hs, he, zpow_add₀ two_ne_zero, zpow_add₀ two_ne_zero, zpow_natCast]
    field_simp

/-! ## Infinities -/

theorem unpack_of_isInf {x : Float} (h : x.isInf) :
    ∃ s, x.toModel.unpack = .infinity s ∧ rank x = s.apply infinityPlace := by
  rw [isInf_iff] at h
  have hu := unpacked x
  generalize x.toModel.unpack = u at hu ⊢
  cases hu with
  | infinity hs hp => exact ⟨_, rfl, by rw [rank_eq_apply hs, hp]⟩
  | notANumber hp => omega
  | zero _ hp => cases h.symm.trans hp
  | finite _ _ _ _ hlt => omega

theorem isInf_of_rank {x : Float} {s : Sign} (h : rank x = s.apply infinityPlace) : x.isInf := by
  rw [isInf_iff, ← natAbs_rank, h]
  cases s <;> simp [Sign.apply]

/-- What is added to an infinity does not matter if it is finite. -/
theorem rank_add_of_isInf {x y : Float} (hx : x.isFinite) (hy : y.isInf) :
    rank (x + y) = rank y := by
  change rank (ofUnpacked (UnpackedFloat.add _ x.toModel.unpack y.toModel.unpack)) = _
  obtain ⟨s, hs, hr⟩ := unpack_of_isInf hy
  have hux := unpackedFinite hx
  generalize x.toModel.unpack = u at hux ⊢
  rw [hs, hr]
  cases hux <;> exact rank_ofUnpacked_infinity s

theorem rank_add_of_isInf_left {x y : Float} (hx : x.isInf) (hy : y.isFinite) :
    rank (x + y) = rank x := by
  change rank (ofUnpacked (UnpackedFloat.add _ x.toModel.unpack y.toModel.unpack)) = _
  obtain ⟨s, hs, hr⟩ := unpack_of_isInf hx
  have huy := unpackedFinite hy
  generalize y.toModel.unpack = v at huy ⊢
  rw [hs, hr]
  cases huy <;> exact rank_ofUnpacked_infinity s

/-- A part of an infinity is that infinity. -/
theorem rank_div_of_isInf {x y : Float} (hx : x.isInf) (hy : y.isFinite) (h : 0 < rational y) :
    rank (x / y) = rank x := by
  change rank (ofUnpacked (UnpackedFloat.div _ x.toModel.unpack y.toModel.unpack)) = _
  obtain ⟨s, hs, hr⟩ := unpack_of_isInf hx
  have huy := unpackedFinite hy
  generalize y.toModel.unpack = v at huy ⊢
  rw [hs, hr]
  cases huy with
  | zero hv => exact absurd hv h.ne'
  | @finite t m e hm hc hv =>
    have hpos : (0 : ℚ) < m * 2 ^ e := by positivity
    cases t with
    | negative =>
      rw [hv, Sign.apply, Int.cast_neg, neg_mul, neg_pos, Int.cast_natCast] at h
      exact absurd h hpos.not_gt
    | positive => cases s <;> exact rank_ofUnpacked_infinity _

theorem isInf_mul {x y : Float} (hx : x.isInf) (hy : y.isFinite) (h : rational y ≠ 0) :
    (x * y).isInf := by
  change (ofUnpacked (UnpackedFloat.mul _ x.toModel.unpack y.toModel.unpack)).isInf = true
  obtain ⟨s, hs, -⟩ := unpack_of_isInf hx
  have huy := unpackedFinite hy
  generalize y.toModel.unpack = v at huy ⊢
  rw [hs]
  cases huy with
  | zero hv => exact absurd hv h
  | finite => exact isInf_of_rank (rank_ofUnpacked_infinity _)

/-- No product of what is no number is a number. -/
theorem isNaN_mul {x : Float} (hx : x.isNaN) (y : Float) : (x * y).isNaN := by
  change (ofUnpacked (UnpackedFloat.mul _ x.toModel.unpack y.toModel.unpack)).isNaN = true
  rw [isNaN_iff] at hx
  have hu := unpacked x
  generalize x.toModel.unpack = u at hu ⊢
  cases hu with
  | infinity _ hp => omega
  | notANumber =>
    have hn : (ofUnpacked .notANumber).isNaN = true := by decide
    generalize y.toModel.unpack = v
    cases v <;> exact hn
  | zero _ hp => omega
  | finite _ _ _ _ hlt => omega

end AnchorLayout.Decimal
