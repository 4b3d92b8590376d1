import AnchorLayout.Decimal.Binary
import Mathlib

/-!
# Doubles by their places

A double is nothing but a sign and a place among the doubles from zero upwards
(`ofPlace_place`), and so is given by its bits (`toBits_injective`). What else
is asked of a double can be told by its place: whether it is finite
(`isFinite_iff`) and whether it is one of the two zeros (`beq_zero_iff`).
-/

namespace AnchorLayout.Decimal

open Float.Model Float.Model.UnpackedFloat

/-! ## The fields of the bits -/

theorem toNat_unpackMantissa (b : BitVec 64) :
    (@unpackMantissa Format.binary64 b).toNat = b.toNat % 2 ^ 52 := by
  simp [unpackMantissa, BitVec.extractLsb]

theorem toNat_unpackExponent (b : BitVec 64) :
    (@unpackExponent Format.binary64 b).toNat = b.toNat / 2 ^ 52 % 2 ^ 11 := by
  simp [unpackExponent, BitVec.extractLsb, Nat.shiftRight_eq_div_pow]

theorem toNat_unpackSign (b : BitVec 64) :
    (@unpackSign Format.binary64 b).toNat = b.toNat / 2 ^ 63 % 2 := by
  simp [unpackSign, BitVec.extractLsb, Nat.shiftRight_eq_div_pow]

/-- The three fields of the bits stand side by side. -/
theorem toNat_packComponents (s : Sign) (e : BitVec 11) (m : BitVec 52) :
    (packComponents Format.binary64 s e m).toNat =
      s.toBitVec.toNat * 2 ^ 63 + e.toNat * 2 ^ 52 + m.toNat := by
  simp only [packComponents, BitVec.toNat_append]
  rw [← Nat.shiftLeft_add_eq_or_of_lt m.isLt, ← Nat.shiftLeft_add_eq_or_of_lt e.isLt]
  simp only [Nat.shiftLeft_eq]
  ring

theorem toBitVec_ofBitVec (v : BitVec 1) : (Sign.ofBitVec v).toBitVec = v := by
  revert v
  decide

/-- Bits are made of a sign, an exponent and a mantissa. -/
theorem exists_packComponents (b : BitVec 64) :
    ∃ s e m, b = packComponents Format.binary64 s e m := by
  refine ⟨Sign.ofBitVec (@unpackSign Format.binary64 b),
    @unpackExponent Format.binary64 b, @unpackMantissa Format.binary64 b, ?_⟩
  apply BitVec.eq_of_toNat_eq
  have := b.isLt
  rw [toNat_packComponents, toBitVec_ofBitVec, toNat_unpackMantissa, toNat_unpackExponent,
    toNat_unpackSign]
  omega

@[simp] theorem ofBitVec_unpackSign (s : Sign) (e : BitVec 11) (m : BitVec 52) :
    Sign.ofBitVec (unpackSign (packComponents Format.binary64 s e m)) = s := by
  have h : unpackSign (packComponents Format.binary64 s e m) = s.toBitVec := by
    apply BitVec.eq_of_toNat_eq
    have := e.isLt
    have := m.isLt
    have := s.toBitVec.isLt
    rw [toNat_unpackSign, toNat_packComponents]
    omega
  rw [h]
  cases s <;> rfl

/-! ## Packing what has been unpacked -/

theorem pack_subnormal (s : Sign) {m : ℕ} (h₀ : 0 < m) (hm : m < 2 ^ 52) :
    UnpackedFloat.pack Format.binary64 (.finite s m (-1074) h₀) =
      packComponents Format.binary64 s 0#11 (BitVec.ofNat 52 m) := by
  have hlog : m.log2 + 1 ≠ 53 := by
    have := (Nat.log2_lt h₀.ne').2 hm
    omega
  unfold UnpackedFloat.pack
  -- Without a leading bit, the exponent field is zero.
  exact (if_neg (by decide)).trans (if_neg hlog)

theorem pack_normal (s : Sign) {m e : ℕ} (h₀ : 0 < m) (hm : 2 ^ 52 ≤ m) (hm' : m < 2 ^ 53)
    (he : e < 2047) :
    UnpackedFloat.pack Format.binary64 (.finite s m ((e : ℤ) - 1075) h₀) =
      packComponents Format.binary64 s (BitVec.ofNat 11 e) (BitVec.ofNat 52 m) := by
  have hlog : m.log2 + 1 = 53 := by
    have := (Nat.log2_eq_iff h₀.ne').2 ⟨hm, hm'⟩
    omega
  have hexp : ((e : ℤ) - 1075 + Format.binary64.exponentBias +
      Format.binary64.mantissaBitsWithoutImplicit).toNat = e := by
    simp [Format.exponentBias]
    omega
  unfold UnpackedFloat.pack
  simp only [hexp]
  exact (if_neg (by simp; omega)).trans (if_pos hlog)

/-- Bits with the one chosen pattern for what is no number survive being
    unpacked and packed again. -/
theorem pack_unpack {b : BitVec 64} (h : Format.binary64.Valid b) :
    UnpackedFloat.pack Format.binary64 (UnpackedFloat.unpack Format.binary64 b) = b := by
  obtain ⟨s, e, m, rfl⟩ := exists_packComponents b
  have hnan := h.eq_packedNaN
  have hm : m.toNat < 2 ^ 52 := m.isLt
  have he : e.toNat < 2 ^ 11 := e.isLt
  unfold UnpackedFloat.unpack
  simp only [unpackExponent_packComponents, unpackMantissa_packComponents,
    ofBitVec_unpackSign] at hnan ⊢
  split_ifs with he₁ hm₁ he₀ hm₀
  · rw [he₁, hm₁]
    rfl
  · exact (hnan he₁ hm₁).symm
  · rw [he₀, hm₀]
    rfl
  · -- A subnormal double keeps its mantissa, which is too short for a leading bit.
    have h₀ : 0 < m.toNat := Nat.pos_of_ne_zero fun h => hm₀ (BitVec.eq_of_toNat_eq h)
    have hp := pack_subnormal s h₀ hm
    rw [BitVec.ofNat_toNat, BitVec.setWidth_eq] at hp
    rw [he₀]
    exact hp
  · -- The leading bit of a normal double is put before the mantissa and dropped again.
    have hm' : (1#1 ++ m).toNat = 2 ^ 52 + m.toNat := by
      rw [BitVec.toNat_append, ← Nat.shiftLeft_add_eq_or_of_lt m.isLt]
      rfl
    have he' : e.toNat < 2047 := by
      have : e.toNat ≠ 2047 := fun h => he₁ (BitVec.eq_of_toNat_eq h)
      omega
    have hp := pack_normal s (m := (1#1 ++ m).toNat) (by omega) (by omega) (by omega) he'
    have hlow : BitVec.ofNat 52 (1#1 ++ m).toNat = m := by
      apply BitVec.eq_of_toNat_eq
      rw [BitVec.toNat_ofNat, hm']
      omega
    rw [hlow, BitVec.ofNat_toNat, BitVec.setWidth_eq] at hp
    exact hp

/-! ## Doubles as bits -/

/-- A double is told by its bits. -/
theorem ofBits_toBits (x : Float) : Float.ofBits x.toBits = x := by
  obtain ⟨⟨bits, h⟩⟩ := x
  have hp := pack_unpack h
  simp only [Float.ofBits, Float.toBits, Float.Model.ofBits, Float.Model.pack]
  congr 2
  exact congrArg UInt64.ofBitVec hp

/-- No two doubles have the same bits. -/
theorem toBits_injective : Function.Injective Float.toBits := by
  intro x y h
  rw [← ofBits_toBits x, h, ofBits_toBits]

/-- The bits of a double are its sign and its place. -/
theorem toNat_toBits (x : Float) :
    x.toBits.toNat = (if isNegative x then 2 ^ 63 else 0) + place x := by
  have := x.toBits.toNat_lt
  simp only [isNegative, place, Nat.pow_eq, decide_eq_true_eq]
  split_ifs <;> omega

/-- A double is its sign and its place. -/
theorem ofPlace_place (x : Float) : ofPlace (isNegative x) (place x) = x := by
  have hbits : (if isNegative x then Nat.pow 2 63 + place x else place x) = x.toBits.toNat := by
    rw [toNat_toBits]
    split_ifs <;> simp
  rw [ofPlace, hbits, UInt64.ofNat_toNat, ofBits_toBits]

/-! ## Finite doubles -/

/-- The fields of a double and its place. -/
theorem exists_fields (x : Float) : ∃ s e m,
    x.toModel.unpack = UnpackedFloat.unpack _ (packComponents Format.binary64 s e m) ∧
      place x = e.toNat * 2 ^ 52 + m.toNat := by
  obtain ⟨s, e, m, h⟩ := exists_packComponents x.toBits.toBitVec
  refine ⟨s, e, m, by rw [← h]; rfl, ?_⟩
  have hb : x.toBits.toNat = _ := congrArg BitVec.toNat h
  have he : e.toNat < 2 ^ 11 := e.isLt
  have hm : m.toNat < 2 ^ 52 := m.isLt
  rw [toNat_packComponents] at hb
  rw [place, hb, Nat.pow_eq]
  omega

/-- The finite doubles are those before infinity. -/
theorem isFinite_iff (x : Float) : x.isFinite ↔ place x < infinityPlace := by
  obtain ⟨s, e, m, h, hp⟩ := exists_fields x
  have he : e.toNat < 2 ^ 11 := e.isLt
  have hm : m.toNat < 2 ^ 52 := m.isLt
  have htop : e = -1#11 ↔ e.toNat = 2047 := ⟨fun h => h ▸ rfl, fun h => BitVec.eq_of_toNat_eq h⟩
  have hplace : place x < infinityPlace ↔ ¬ e = -1#11 := by
    rw [htop, hp, infinityPlace, Nat.pow_eq]
    omega
  -- Infinities and what is no number are those with all bits of the exponent set.
  rw [hplace, Float.isFinite, Float.Model.isFinite, h]
  unfold UnpackedFloat.unpack
  simp only [unpackExponent_packComponents, unpackMantissa_packComponents]
  split_ifs <;> simp_all [UnpackedFloat.isFinite]

/-- Equality of doubles is that of the numbers that they are unpacked to. -/
theorem beq_def (x y : Float) :
    (x == y) = (x.toModel.unpack.compare y.toModel.unpack == some .eq) := rfl

theorem compare_zero_iff (a : UnpackedFloat) :
    a.compare (.zero .positive) = some .eq ↔ ∃ s, a = .zero s := by
  rcases a with s | _ | s | ⟨s, m, e, h⟩
  · cases s <;> simp [UnpackedFloat.compare]
  · simp [UnpackedFloat.compare]
  · simp [UnpackedFloat.compare]
  · cases s <;> simp [UnpackedFloat.compare]

/-- The two zeros are the doubles at the place zero. -/
theorem beq_zero_iff (x : Float) : (x == 0) = true ↔ place x = 0 := by
  obtain ⟨s, e, m, h, hp⟩ := exists_fields x
  have he : e = 0#11 ↔ e.toNat = 0 := ⟨fun h => h ▸ rfl, fun h => BitVec.eq_of_toNat_eq h⟩
  have hm : m = 0#52 ↔ m.toNat = 0 := ⟨fun h => h ▸ rfl, fun h => BitVec.eq_of_toNat_eq h⟩
  have hplace : place x = 0 ↔ e = 0#11 ∧ m = 0#52 := by
    rw [he, hm, hp]
    omega
  have hzero : (0 : Float).toModel.unpack = .zero .positive := rfl
  rw [beq_def, hzero, beq_iff_eq, compare_zero_iff, hplace, h]
  unfold UnpackedFloat.unpack
  simp only [unpackExponent_packComponents, unpackMantissa_packComponents]
  split_ifs <;> simp_all

theorem zero_beq_of_beq_zero {x : Float} (h : (x == 0) = true) : ((0 : Float) == x) = true := by
  have hzero : (0 : Float).toModel.unpack = .zero .positive := rfl
  rw [beq_def, hzero, beq_iff_eq, compare_zero_iff] at h
  obtain ⟨s, hs⟩ := h
  rw [beq_def, hzero, hs]
  cases s <;> rfl

/-- A finite double is equal to itself. -/
theorem beq_self_of_isFinite {x : Float} (h : x.isFinite) : (x == x) = true := by
  rw [beq_def, beq_iff_eq]
  rw [Float.isFinite, Float.Model.isFinite] at h
  generalize x.toModel.unpack = u at h ⊢
  cases u with
  | infinity s => cases h
  | notANumber => cases h
  | zero s => rfl
  | finite s m e _ => cases s <;> simp [UnpackedFloat.compare, Std.ReflCmp.compare_self]

/-! ## Equality of doubles -/

theorem compare_comm (a b : UnpackedFloat) :
    (a.compare b == some .eq) = (b.compare a == some .eq) := by
  rw [Bool.eq_iff_iff, beq_iff_eq, beq_iff_eq]
  rcases a with s | _ | s | ⟨s, m, e, hm⟩ <;> rcases b with t | _ | t | ⟨t, n, f, hn⟩ <;>
    try cases s <;> try cases t
  case finite.finite.positive.positive | finite.finite.negative.negative =>
    simp [UnpackedFloat.compare, eq_comm (a := e), eq_comm (a := m)]
  all_goals first | rfl | simp [UnpackedFloat.compare]

theorem beq_comm (x y : Float) : (x == y) = (y == x) := compare_comm _ _

/-- A double is equal to itself unless it is no number. -/
theorem beq_self_or_isNaN (x : Float) : (x == x) = true ∨ x.isNaN = true := by
  rw [beq_def, beq_iff_eq, Float.isNaN, Float.Model.isNaN]
  rcases x.toModel.unpack with s | _ | s | ⟨s, m, e, h⟩
  · exact .inl (by cases s <;> rfl)
  · exact .inr rfl
  · exact .inl rfl
  · exact .inl (by cases s <;> simp [UnpackedFloat.compare, Std.ReflCmp.compare_self])

end AnchorLayout.Decimal
