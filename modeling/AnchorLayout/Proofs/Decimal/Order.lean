import AnchorLayout.Proofs.Decimal.Rounding

/-!
# The order of doubles

Doubles that are numbers are ordered by their signed places (`rank`), and so is
where rational numbers are rounded to: of two of them the lesser one is not
rounded to the greater double (`nearestRank_mono`). A finite double is at the
rank that the number it stands for is rounded to (`nearestRank_rational`).
-/

namespace AnchorLayout.Decimal

open Float.Model Float.Model.UnpackedFloat

/-! ## Unpacked doubles -/

/-- A mantissa and an exponent that a finite double may have. -/
structure IsCanonical (m : ℕ) (e : ℤ) : Prop where
  pos : 0 < m
  lt : m < 2 ^ 53
  le : -1074 ≤ e
  normal : 2 ^ 52 ≤ m ∨ e = -1074

/-- The place of the double with a mantissa and an exponent, were there no
    infinity. -/
def placeOf (m : ℕ) (e : ℤ) : ℕ := (e + 1074).toNat * 2 ^ 52 + m

/-- A double with a mantissa is not at the place of zero. -/
theorem placeOf_pos {m : ℕ} {e : ℤ} (h : IsCanonical m e) : 0 < placeOf m e :=
  Nat.lt_of_lt_of_le h.pos (Nat.le_add_left _ _)

/-- What a double is unpacked to. -/
inductive Unpacked (x : Float) : UnpackedFloat → Prop
  | infinity {s : Sign} (hs : isNegative x = true ↔ s = .negative)
    (hp : place x = infinityPlace) : Unpacked x (.infinity s)
  | notANumber (hp : infinityPlace < place x) : Unpacked x .notANumber
  | zero {s : Sign} (hs : isNegative x = true ↔ s = .negative) (hp : place x = 0) :
    Unpacked x (.zero s)
  | finite {s : Sign} {m : ℕ} {e : ℤ} {h : 0 < m} (hs : isNegative x = true ↔ s = .negative)
    (hc : IsCanonical m e) (hp : place x = placeOf m e) (h₀ : 0 < place x)
    (hlt : place x < infinityPlace) : Unpacked x (.finite s m e h)

section

variable {x : Float} {s : Sign} {e : BitVec 11} {m : BitVec 52}

/-- The bits of a double are its sign, its exponent and its mantissa, one after
    the other. -/
theorem toNat_toBits_of_components
    (h : x.toBits.toBitVec = packComponents Format.binary64 s e m) :
    x.toBits.toNat = s.toBitVec.toNat * 2 ^ 63 + e.toNat * 2 ^ 52 + m.toNat :=
  (congrArg BitVec.toNat h).trans (toNat_packComponents s e m)

theorem place_of_components (h : x.toBits.toBitVec = packComponents Format.binary64 s e m) :
    place x = e.toNat * 2 ^ 52 + m.toNat := by
  have he : e.toNat < 2 ^ 11 := e.isLt
  have hm : m.toNat < 2 ^ 52 := m.isLt
  rw [place, toNat_toBits_of_components h, Nat.pow_eq]
  omega

theorem isNegative_of_components (h : x.toBits.toBitVec = packComponents Format.binary64 s e m) :
    isNegative x = true ↔ s = .negative := by
  have he : e.toNat < 2 ^ 11 := e.isLt
  have hm : m.toNat < 2 ^ 52 := m.isLt
  rw [isNegative, toNat_toBits_of_components h, decide_eq_true_eq, Nat.pow_eq]
  cases s
  · simp [Sign.toBitVec]
    omega
  · simp [Sign.toBitVec]
    omega

end

/-- Every double is infinite, no number, zero or finite, and its place tells
    which. -/
theorem unpacked (x : Float) : Unpacked x x.toModel.unpack := by
  obtain ⟨s, e, m, h⟩ := exists_packComponents x.toBits.toBitVec
  have hu : x.toModel.unpack = UnpackedFloat.unpack _ (packComponents Format.binary64 s e m) := by
    rw [← h]
    rfl
  have he : e.toNat < 2 ^ 11 := e.isLt
  have hm : m.toNat < 2 ^ 52 := m.isLt
  have hp := place_of_components h
  have hs := isNegative_of_components h
  rw [hu]
  unfold UnpackedFloat.unpack
  simp only [unpackExponent_packComponents, unpackMantissa_packComponents, ofBitVec_unpackSign]
  split_ifs with he₁ hm₁ he₀ hm₀
  · refine .infinity hs ?_
    rw [hp, he₁, hm₁]
    rfl
  · refine .notANumber ?_
    have h₀ : m.toNat ≠ 0 := fun h => hm₁ (BitVec.eq_of_toNat_eq h)
    rw [hp, he₁, infinityPlace, Nat.pow_eq]
    have : (-1#11).toNat = 2047 := rfl
    omega
  · refine .zero hs ?_
    rw [hp, he₀, hm₀]
    rfl
  · -- A subnormal double has the least exponent.
    have h₀ : m.toNat ≠ 0 := fun h => hm₀ (BitVec.eq_of_toNat_eq h)
    have hz : e.toNat = 0 := by rw [he₀]; rfl
    refine .finite hs ⟨by omega, by omega, by simp [Format.exponentBias, hz], .inr ?_⟩ ?_
      (by omega) ?_
    · simp [Format.exponentBias, hz]
    · simp [placeOf, hp, Format.exponentBias, hz]
    · rw [hp, hz, infinityPlace, Nat.pow_eq]
      omega
  · -- A normal one has a leading bit that is not among its bits.
    have hm' : (1#1 ++ m).toNat = 2 ^ 52 + m.toNat := by
      rw [BitVec.toNat_append, ← Nat.shiftLeft_add_eq_or_of_lt m.isLt]
      rfl
    have h₁ : e.toNat ≠ 2047 := fun h => he₁ (BitVec.eq_of_toNat_eq h)
    have h₀ : e.toNat ≠ 0 := fun h => he₀ (BitVec.eq_of_toNat_eq h)
    refine .finite hs ⟨by omega, by omega, ?_, .inl (by omega)⟩ ?_ (by omega) ?_
    · simp [Format.exponentBias]
      omega
    · simp [placeOf, hp, hm', Format.exponentBias]
      omega
    · rw [hp, infinityPlace, Nat.pow_eq]
      omega

/-! ## Ranks -/

/-- The place of a double, counted downwards if the double is negative. -/
def rank (x : Float) : ℤ := if isNegative x then -place x else place x

theorem rank_eq_apply {x : Float} {s : Sign} (hs : isNegative x = true ↔ s = .negative) :
    rank x = s.apply (place x) := by
  cases s <;> simp_all [rank, Sign.apply]

theorem natAbs_rank (x : Float) : (rank x).natAbs = place x := by
  unfold rank
  split_ifs <;> simp

/-- What is no number is beyond infinity. -/
theorem isNaN_iff (x : Float) : x.isNaN = true ↔ infinityPlace < place x := by
  rw [Float.isNaN, Float.Model.isNaN]
  have h := unpacked x
  generalize x.toModel.unpack = u at h ⊢
  cases h with
  | infinity _ hp => simp [UnpackedFloat.isNaN, hp]
  | notANumber hp => simp [UnpackedFloat.isNaN, hp]
  | zero _ hp => simp [UnpackedFloat.isNaN, hp]
  | finite _ _ _ _ hlt => simpa [UnpackedFloat.isNaN] using hlt.le

theorem isNaN_eq_false_iff (x : Float) : x.isNaN = false ↔ place x ≤ infinityPlace := by
  rw [← not_lt, ← isNaN_iff, Bool.not_eq_true]

/-- Infinity is at one place of either sign. -/
theorem isInf_iff (x : Float) : x.isInf = true ↔ place x = infinityPlace := by
  rw [Float.isInf, Float.Model.isInf]
  have h := unpacked x
  generalize x.toModel.unpack = u at h ⊢
  cases h with
  | infinity _ hp => simp [UnpackedFloat.isInf, hp]
  | notANumber hp => simpa [UnpackedFloat.isInf] using hp.ne'
  | zero _ hp => simp [UnpackedFloat.isInf, hp, infinityPlace]
  | finite _ _ _ _ hlt => simpa [UnpackedFloat.isInf] using hlt.ne

theorem isNaN_of_isFinite {x : Float} (h : x.isFinite) : x.isNaN = false :=
  (isNaN_eq_false_iff x).2 ((isFinite_iff x).1 h).le

/-- A double is finite, infinite or no number. -/
theorem isFinite_or_isInf_or_isNaN (x : Float) : x.isFinite ∨ x.isInf ∨ x.isNaN := by
  rw [isFinite_iff, isInf_iff, isNaN_iff]
  exact lt_trichotomy _ _

/-- Places are ordered by exponents first, and then by mantissas. -/
theorem compare_placeOf {m n : ℕ} {e f : ℤ} (hm : IsCanonical m e) (hn : IsCanonical n f) :
    (compare e f).then (compare m n) = compare (placeOf m e) (placeOf n f) := by
  obtain ⟨-, hm', he, hme⟩ := hm
  obtain ⟨-, hn', hf, hnf⟩ := hn
  rcases lt_trichotomy e f with h | rfl | h
  · have hlt : placeOf m e < placeOf n f := by rw [placeOf, placeOf]; omega
    rw [compare_lt_iff_lt.2 h, compare_lt_iff_lt.2 hlt]
    rfl
  · have hcancel : compare (placeOf m e) (placeOf n e) = compare m n := by
      simp [compare, compareOfLessAndEq, placeOf]
    rw [compare_eq_iff_eq.2 rfl, hcancel]
    rfl
  · have hlt : placeOf n f < placeOf m e := by rw [placeOf, placeOf]; omega
    rw [compare_gt_iff_gt.2 h, compare_gt_iff_gt.2 hlt]
    rfl

theorem eq_compare_of {a b : ℤ} {o : Ordering}
    (h : match o with | .lt => a < b | .eq => a = b | .gt => b < a) : o = compare a b := by
  cases o with
  | lt => exact (compare_lt_iff_lt.2 h).symm
  | eq => exact (compare_eq_iff_eq.2 h).symm
  | gt => exact (compare_gt_iff_gt.2 h).symm

theorem compare_natCast (m n : ℕ) : compare (m : ℤ) (n : ℤ) = compare m n := by
  simp [compare, compareOfLessAndEq]

/-- The order is turned around by a change of sign. -/
theorem compare_neg (a b : ℤ) : compare (-a) (-b) = (compare a b).swap := by
  rcases lt_trichotomy a b with h | rfl | h
  · rw [compare_lt_iff_lt.2 h, compare_gt_iff_gt.2 (neg_lt_neg h)]
    rfl
  · rw [compare_eq_iff_eq.2 rfl, compare_eq_iff_eq.2 rfl]
    rfl
  · rw [compare_gt_iff_gt.2 h, compare_lt_iff_lt.2 (neg_lt_neg h)]
    rfl

/-- Doubles that are numbers are compared by their ranks. -/
theorem compare_eq_compare_rank {x y : Float} (hx : x.isNaN = false) (hy : y.isNaN = false) :
    x.toModel.unpack.compare y.toModel.unpack = some (compare (rank x) (rank y)) := by
  rw [isNaN_eq_false_iff] at hx hy
  have hux := unpacked x
  have huy := unpacked y
  generalize x.toModel.unpack = u at hux ⊢
  generalize y.toModel.unpack = v at huy ⊢
  have hinf : 0 < infinityPlace := by decide
  rcases hux with @⟨s, hs, hp⟩ | hp | @⟨s, hs, hp⟩ | @⟨s, m, e, hm, hs, hc, hp, h₀, hlt⟩ <;>
    rcases huy with @⟨t, ht, hq⟩ | hq | @⟨t, ht, hq⟩ | @⟨t, n, f, hn, ht, hd, hq, h₁, hlt'⟩
  case finite.finite =>
    -- Of two finite doubles with the same sign, the places decide.
    have hcmp := compare_placeOf hc hd
    rw [← hp, ← hq, ← compare_natCast (place x)] at hcmp
    rw [rank_eq_apply hs, rank_eq_apply ht]
    cases s <;> cases t
    · exact congrArg some ((congrArg _ hcmp).trans (compare_neg _ _).symm)
    · exact congrArg some (eq_compare_of (o := .lt) (by simp only [Sign.apply]; omega))
    · exact congrArg some (eq_compare_of (o := .gt) (by simp only [Sign.apply]; omega))
    · exact congrArg some hcmp
  all_goals first
    | omega
    | rw [rank_eq_apply hs, rank_eq_apply ht]
  all_goals
    cases s <;> cases t <;> first
      | exact congrArg some (eq_compare_of (o := .lt) (by simp only [Sign.apply]; omega))
      | exact congrArg some (eq_compare_of (o := .eq) (by simp only [Sign.apply]; omega))
      | exact congrArg some (eq_compare_of (o := .gt) (by simp only [Sign.apply]; omega))

/-- Of two numbers the one of lesser rank is less; the two zeros are of one
    rank. -/
theorem lt_iff_rank_lt {x y : Float} (hx : x.isNaN = false) (hy : y.isNaN = false) :
    x < y ↔ rank x < rank y := by
  change decide (x.toModel.unpack.lt y.toModel.unpack = true) = true ↔ _
  rw [decide_eq_true_eq, UnpackedFloat.lt, compare_eq_compare_rank hx hy, beq_iff_eq,
    Option.some.injEq, compare_lt_iff_lt]

theorem le_iff_rank_le {x y : Float} (hx : x.isNaN = false) (hy : y.isNaN = false) :
    x ≤ y ↔ rank x ≤ rank y := by
  change decide (x.toModel.unpack.le y.toModel.unpack = true) = true ↔ _
  rw [decide_eq_true_eq, UnpackedFloat.le, compare_eq_compare_rank hx hy, Option.any_some,
    Std.isLE_compare]

/-! ## Rounding -/

/-- Of quotients with the same denominator, the lesser one is not rounded to the
    greater number. -/
theorem roundDiv_le_roundDiv {a b d : ℕ} (h : a ≤ b) : roundDiv a d ≤ roundDiv b d := by
  rcases Nat.eq_zero_or_pos d with rfl | hd
  · simp [roundDiv]
    split_ifs <;> omega
  have hq : a / d ≤ b / d := Nat.div_le_div_right h
  have ha := Nat.div_add_mod a d
  have hb := Nat.div_add_mod b d
  simp only [roundDiv]
  rcases hq.lt_or_eq with hlt | heq
  · split_ifs <;> omega
  · rw [← heq] at hb ⊢
    split_ifs <;> omega

/-- Rounding to natural numbers keeps the order of quotients. -/
theorem roundDiv_mono {a b c d : ℕ} (hb : 0 < b) (hd : 0 < d) (h : a * d ≤ c * b) :
    roundDiv a b ≤ roundDiv c d :=
  calc roundDiv a b = roundDiv (a * d) (b * d) := (roundDiv_mul_right a b hd).symm
    _ ≤ roundDiv (c * b) (b * d) := roundDiv_le_roundDiv h
    _ = roundDiv (c * b) (d * b) := by rw [mul_comm b d]
    _ = roundDiv c d := roundDiv_mul_right c d hb

theorem roundDiv_le {n num den : ℕ} (hd : 0 < den) (h : num ≤ n * den) : roundDiv num den ≤ n :=
  (roundDiv_le_roundDiv h).trans (roundDiv_mul_self n hd).le

/-- Powers of two are moved to the side on which they are natural numbers. -/
theorem mul_zpow_le_div_iff {n num den : ℕ} (hd : 0 < den) (e : ℤ) :
    (n * 2 ^ e : ℚ) ≤ num / den ↔ n * (den * 2 ^ e.toNat) ≤ num * 2 ^ (-e).toNat := by
  have := zpow_eq_div 2 e
  push_cast at this
  rw [this, ← mul_div_assoc, div_le_div_iff₀ (by positivity) (by positivity), mul_assoc,
    mul_comm (2 ^ e.toNat : ℚ)]
  exact_mod_cast Iff.rfl

theorem div_le_mul_zpow_iff {n num den : ℕ} (hd : 0 < den) (e : ℤ) :
    (num / den : ℚ) ≤ n * 2 ^ e ↔ num * 2 ^ (-e).toNat ≤ n * (den * 2 ^ e.toNat) := by
  have := zpow_eq_div 2 e
  push_cast at this
  rw [this, ← mul_div_assoc, div_le_div_iff₀ (by positivity) (by positivity), mul_assoc,
    mul_comm (2 ^ e.toNat : ℚ)]
  exact_mod_cast Iff.rfl

/-- Scaled so that its last digit is that of a double, a quotient is rounded to
    the mantissa of one, up to a carry. -/
theorem roundDiv_scaled {num den : ℕ} (hn : 0 < num) (hd : 0 < den) {e : ℤ}
    (he : e = max (Int.log 2 (num / den : ℚ) - 52) (-1074)) :
    roundDiv (num * 2 ^ (-e).toNat) (den * 2 ^ e.toNat) ≤ 2 ^ 53 ∧
      (2 ^ 52 ≤ roundDiv (num * 2 ^ (-e).toNat) (den * 2 ^ e.toNat) ∨ e = -1074) := by
  have hv : (0 : ℚ) < num / den := by positivity
  constructor
  · apply roundDiv_le (by positivity)
    rw [← div_le_mul_zpow_iff hd]
    have hlt : (num / den : ℚ) < 2 ^ (53 + e) :=
      (Int.lt_zpow_iff_log_lt one_lt_two hv).2 (by omega)
    rw [zpow_add₀ two_ne_zero] at hlt
    exact_mod_cast hlt.le
  · rcases (show -1074 ≤ e by omega).lt_or_eq with h | h
    · refine .inl (le_roundDiv (by positivity) ?_)
      rw [← mul_zpow_le_div_iff hd]
      have hle : (2 : ℚ) ^ (52 + e) ≤ num / den :=
        (Int.zpow_le_iff_le_log one_lt_two hv).2 (by omega)
      rw [zpow_add₀ two_ne_zero] at hle
      exact_mod_cast hle
    · exact .inr h.symm

/-- Of two positive quotients, the lesser one is not rounded to the greater
    double. -/
theorem nearestPlace_mono {a b c d : ℕ} (hb : 0 < b) (hd : 0 < d) (h : (a / b : ℚ) ≤ c / d) :
    nearestPlace a b ≤ nearestPlace c d := by
  rcases Nat.eq_zero_or_pos a with rfl | ha
  · simp [nearestPlace]
  have hv : (0 : ℚ) < a / b := by positivity
  have hc : 0 < c := Nat.pos_of_ne_zero fun h₀ => by
    rw [h₀, Nat.cast_zero, zero_div] at h
    exact hv.not_ge h
  have hcross : a * d ≤ c * b := by
    rw [div_le_div_iff₀ (by positivity) (by positivity)] at h
    exact_mod_cast h
  have hlog : Int.log 2 (a / b : ℚ) ≤ Int.log 2 (c / d : ℚ) := Int.log_mono_right hv h
  obtain ⟨e, he⟩ : ∃ e, e = max (Int.log 2 (a / b : ℚ) - 52) (-1074) := ⟨_, rfl⟩
  obtain ⟨f, hf⟩ : ∃ f, f = max (Int.log 2 (c / d : ℚ) - 52) (-1074) := ⟨_, rfl⟩
  rw [nearestPlace_eq ha hb he, nearestPlace_eq hc hd hf]
  apply min_le_min_right
  rcases (show e ≤ f by omega).lt_or_eq with hlt | rfl
  · -- The lesser one has a mantissa below the next power of two, the greater one a full mantissa.
    obtain ⟨h₁, -⟩ := roundDiv_scaled ha hb he
    obtain ⟨-, h₂⟩ := roundDiv_scaled hc hd hf
    omega
  · apply Nat.add_le_add_left
    apply roundDiv_mono (by positivity) (by positivity)
    calc a * 2 ^ (-e).toNat * (d * 2 ^ e.toNat) = a * d * (2 ^ (-e).toNat * 2 ^ e.toNat) := by ring
      _ ≤ c * b * (2 ^ (-e).toNat * 2 ^ e.toNat) := Nat.mul_le_mul_right _ hcross
      _ = c * 2 ^ (-e).toNat * (b * 2 ^ e.toNat) := by ring

/-- No quotient is rounded to what is no number. -/
theorem nearestPlace_le (num den : ℕ) : nearestPlace num den ≤ infinityPlace := by
  unfold nearestPlace
  split_ifs
  · exact Nat.zero_le _
  · exact min_le_right _ _

/-! ## Doubles as rational numbers -/

/-- The number that a finite double stands for. -/
def rational (x : Float) : ℚ :=
  if isNegative x then -((quotient x).1 / (quotient x).2) else (quotient x).1 / (quotient x).2

/-- A finite double is told by its mantissa and its exponent. -/
theorem magnitude_of_place {x : Float} {m : ℕ} {e : ℤ} (h : IsCanonical m e)
    (hp : place x = placeOf m e) : magnitude x = (m, e) := by
  obtain ⟨-, hm, he, hme⟩ := h
  simp only [placeOf, magnitude, Nat.pow_eq] at hp ⊢
  split_ifs with h₀
  · exact Prod.ext (by simp only; omega) (by simp only; omega)
  · exact Prod.ext (by simp only; omega) (by simp only; omega)

theorem rational_of_place_eq_zero {x : Float} (h : place x = 0) : rational x = 0 := by
  have hq : (quotient x).1 = 0 := by
    simp only [quotient, magnitude, h, Nat.zero_div, Nat.zero_mod, if_true, zero_mul]
  simp only [rational, hq, Nat.cast_zero, zero_div, neg_zero, ite_self]

theorem rational_of_finite {x : Float} {s : Sign} {m : ℕ} {e : ℤ}
    (hs : isNegative x = true ↔ s = .negative) (hc : IsCanonical m e)
    (hp : place x = placeOf m e) : rational x = s.apply m * 2 ^ e := by
  rw [rational, div_quotient, magnitude_of_place hc hp]
  cases s <;> simp_all [Sign.apply]

/-- The rank of the double next to a rational number. -/
def nearestRank (v : ℚ) : ℤ :=
  if v < 0 then -nearestPlace v.num.natAbs v.den else nearestPlace v.num.natAbs v.den

theorem nearestRank_div (num : ℕ) {den : ℕ} (hd : 0 < den) :
    nearestRank (num / den) = nearestPlace num den := by
  have hv : (0 : ℚ) ≤ num / den := by positivity
  have hnum : (((num / den : ℚ).num.natAbs : ℕ) : ℚ) = (num / den : ℚ).num := by
    rw [← Int.cast_natCast, Int.natAbs_of_nonneg (Rat.num_nonneg.2 hv)]
  rw [nearestRank, if_neg hv.not_gt]
  refine congrArg _ (nearestPlace_congr (Rat.den_pos _) hd ?_)
  rw [hnum, Rat.num_div_den]

/-- Rounding does not look at the sign. -/
theorem nearestRank_neg (v : ℚ) : nearestRank (-v) = -nearestRank v := by
  rcases lt_trichotomy v 0 with h | rfl | h
  · rw [nearestRank, nearestRank, if_pos h, if_neg (neg_pos.2 h).not_gt, neg_neg,
      Rat.num_neg_eq_neg_num, Int.natAbs_neg, Rat.den_neg_eq_den]
  · simp [nearestRank, nearestPlace]
  · rw [nearestRank, nearestRank, if_pos (neg_neg_iff_pos.2 h), if_neg h.not_gt,
      Rat.num_neg_eq_neg_num, Int.natAbs_neg, Rat.den_neg_eq_den]

theorem natAbs_nearestRank_le (v : ℚ) : (nearestRank v).natAbs ≤ infinityPlace := by
  unfold nearestRank
  split_ifs <;> simpa using nearestPlace_le _ _

theorem nearestRank_nonneg {v : ℚ} (h : 0 ≤ v) : 0 ≤ nearestRank v := by
  rw [nearestRank, if_neg h.not_gt]
  exact Int.natCast_nonneg _

/-- Of two rational numbers, the lesser one is not rounded to the greater
    double. -/
theorem nearestRank_mono {v w : ℚ} (h : v ≤ w) : nearestRank v ≤ nearestRank w := by
  have of_nonneg {v w : ℚ} (hv : 0 ≤ v) (h : v ≤ w) : nearestRank v ≤ nearestRank w := by
    lift v to ℚ≥0 using hv
    lift w to ℚ≥0 using v.2.trans h
    rw [← NNRat.num_div_den v, ← NNRat.num_div_den w] at h ⊢
    push_cast at h ⊢
    rw [nearestRank_div _ v.den_pos, nearestRank_div _ w.den_pos]
    exact_mod_cast nearestPlace_mono v.den_pos w.den_pos h
  rcases le_total 0 v with hv | hv
  · exact of_nonneg hv h
  rcases le_total 0 w with hw | hw
  · have := nearestRank_nonneg hw
    have := nearestRank_nonneg (neg_nonneg.2 hv)
    rw [nearestRank_neg] at this
    omega
  · have := of_nonneg (neg_nonneg.2 hw) (neg_le_neg h)
    rw [nearestRank_neg, nearestRank_neg] at this
    omega

/-- The magnitude of a number is rounded to the magnitude of its double. -/
theorem natAbs_nearestRank (v : ℚ) : ((nearestRank v).natAbs : ℤ) = nearestRank |v| := by
  rcases le_total 0 v with h | h
  · rw [abs_of_nonneg h, Int.natAbs_of_nonneg (nearestRank_nonneg h)]
  · have := nearestRank_nonneg (neg_nonneg.2 h)
    rw [abs_of_nonpos h]
    rw [nearestRank_neg] at this ⊢
    omega

/-- A finite double is where the number it stands for is rounded to. -/
theorem nearestRank_rational {x : Float} (h : x.isFinite) : nearestRank (rational x) = rank x := by
  rw [rational, rank]
  split_ifs
  · rw [nearestRank_neg, nearestRank_div _ (quotient_pos x), nearestPlace_quotient h]
  · rw [nearestRank_div _ (quotient_pos x), nearestPlace_quotient h]

/-- Doubles of one rank stand for one number. -/
theorem rational_congr {x y : Float} (h : rank x = rank y) : rational x = rational y := by
  have hp : place x = place y := by rw [← natAbs_rank, h, natAbs_rank]
  rcases Nat.eq_zero_or_pos (place x) with h₀ | h₀
  · rw [rational_of_place_eq_zero h₀, rational_of_place_eq_zero (hp ▸ h₀)]
  have hs : isNegative x = isNegative y := by
    rw [Bool.eq_iff_iff]
    unfold rank at h
    split_ifs at h <;> simp_all
  rw [rational, rational, hs, quotient, quotient, magnitude, magnitude, hp]

/-- Finite doubles are ordered as the numbers they stand for. -/
theorem rank_le_rank_iff {x y : Float} (hx : x.isFinite) (hy : y.isFinite) :
    rank x ≤ rank y ↔ rational x ≤ rational y := by
  rw [← nearestRank_rational hx, ← nearestRank_rational hy]
  refine ⟨fun h => le_of_not_gt fun hlt => ?_, nearestRank_mono⟩
  have heq := h.antisymm (nearestRank_mono hlt.le)
  rw [nearestRank_rational hx, nearestRank_rational hy] at heq
  exact hlt.ne' (rational_congr heq)

end AnchorLayout.Decimal
