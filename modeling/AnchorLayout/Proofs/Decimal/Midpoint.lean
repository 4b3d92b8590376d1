import AnchorLayout.Proofs.Decimal.Arithmetic

/-!
# Points in between

Although each operation rounds, what is computed from the ends of an interval
does not leave it. From a start `a` and a size `w`, the middle `a + w / 2` lies
between `a` and `a + w` (`rank_add_half`); from a middle `c` and a radius `r`,
the middle lies between `c - r` and `c + r` (`rank_mem_radius`); and from two
ends, their middle `(a + b) / 2` lies between them, unless their sum is beyond
all finite doubles (`rank_midpoint`).
-/

namespace AnchorLayout.Decimal

open Set Float.Model.UnpackedFloat

/-- A double that is next to a number is a number. -/
theorem isNaN_of_rank_eq {x : Float} {v : ℚ} (h : rank x = nearestRank v) : x.isNaN = false := by
  rw [isNaN_eq_false_iff, ← natAbs_rank, h]
  exact natAbs_nearestRank_le v

theorem isNaN_of_isInf {x : Float} (h : x.isInf) : x.isNaN = false := by
  rw [isNaN_eq_false_iff, (isInf_iff x).1 h]

/-- What is a number is finite or infinite. -/
theorem isFinite_or_isInf {x : Float} (h : x.isNaN = false) : x.isFinite ∨ x.isInf := by
  obtain hx | hx | hx := isFinite_or_isInf_or_isNaN x
  · exact .inl hx
  · exact .inr hx
  · rw [h] at hx
    cases hx

theorem isFinite_zero : (0 : Float).isFinite := by decide

theorem rank_zero : rank 0 = 0 := by decide

theorem rational_zero : rational 0 = 0 := rational_of_place_eq_zero (by decide)

theorem isFinite_two : (2 : Float).isFinite := by decide

theorem rational_two : rational 2 = 2 := by
  have hs : isNegative 2 = false := by decide
  have hq : quotient 2 = (2 ^ 52, 2 ^ 51) := by decide
  rw [rational, hs, hq]
  norm_num

theorem rational_nonneg_iff {x : Float} (hx : x.isFinite) : 0 ≤ rational x ↔ 0 ≤ rank x := by
  rw [← rational_zero, ← rank_le_rank_iff isFinite_zero hx, rank_zero]

/-- Finite doubles lie between each other as the numbers they stand for. -/
theorem rank_mem_uIcc_iff {x y z : Float} (hx : x.isFinite) (hy : y.isFinite) (hz : z.isFinite) :
    rank y ∈ uIcc (rank x) (rank z) ↔ rational y ∈ uIcc (rational x) (rational z) := by
  simp only [mem_uIcc, rank_le_rank_iff, hx, hy, hz]

/-- Rounding keeps a number between two others. -/
theorem nearestRank_mem_uIcc {u v w : ℚ} (h : v ∈ uIcc u w) :
    nearestRank v ∈ uIcc (nearestRank u) (nearestRank w) :=
  (show Monotone nearestRank from fun _ _ => nearestRank_mono).mapsTo_uIcc h

/-! ## Halves -/

/-- The half of a finite double is the double next to the half of its
    number. -/
theorem rank_half {x : Float} (hx : x.isFinite) : rank (x / 2) = nearestRank (rational x / 2) := by
  rw [rank_div hx isFinite_two (by rw [rational_two]; exact two_ne_zero), rational_two]

theorem rank_half_of_isInf {x : Float} (hx : x.isInf) : rank (x / 2) = rank x :=
  rank_div_of_isInf hx isFinite_two (by rw [rational_two]; exact two_pos)

/-- A half lies between zero and the whole. -/
theorem half_mem_uIcc (v : ℚ) : v / 2 ∈ uIcc 0 v := by
  rw [mem_uIcc]
  rcases le_total 0 v with h | h
  · exact .inl ⟨by linarith, by linarith⟩
  · exact .inr ⟨by linarith, by linarith⟩

/-- What lies between two finite doubles is finite. -/
theorem isFinite_of_mem_uIcc {x y z : Float} (hx : x.isFinite) (hz : z.isFinite)
    (h : rank y ∈ uIcc (rank x) (rank z)) : y.isFinite := by
  rw [isFinite_iff, ← natAbs_rank] at hx hz ⊢
  rw [mem_uIcc] at h
  omega

/-- The half of a finite double lies between zero and that double. -/
theorem rank_half_mem_uIcc {x : Float} (hx : x.isFinite) :
    rank (x / 2) ∈ uIcc (rank 0) (rank x) := by
  rw [rank_half hx, ← nearestRank_rational hx, ← nearestRank_rational isFinite_zero, rational_zero]
  exact nearestRank_mem_uIcc (half_mem_uIcc _)

theorem isFinite_half {x : Float} (hx : x.isFinite) : (x / 2).isFinite :=
  isFinite_of_mem_uIcc isFinite_zero hx (rank_half_mem_uIcc hx)

theorem rational_half_mem_uIcc {x : Float} (hx : x.isFinite) :
    rational (x / 2) ∈ uIcc 0 (rational x) := by
  rw [← rational_zero, ← rank_mem_uIcc_iff isFinite_zero (isFinite_half hx) hx]
  exact rank_half_mem_uIcc hx

theorem isInf_half {x : Float} (hx : x.isInf) : (x / 2).isInf := by
  rw [isInf_iff, ← natAbs_rank, rank_half_of_isInf hx, natAbs_rank, (isInf_iff x).1 hx]

/-! ## A start and a size -/

/-- Two numbers of which one at most is infinite. -/
def HasSum (x y : Float) : Prop :=
  x.isFinite ∧ y.isFinite ∨ x.isFinite ∧ y.isInf ∨ x.isInf ∧ y.isFinite

/-- A half is infinite only where the whole is. -/
theorem HasSum.half {x y : Float} (h : HasSum x y) : HasSum x (y / 2) := by
  obtain ⟨hx, hy⟩ | ⟨hx, hy⟩ | ⟨hx, hy⟩ := h
  · exact .inl ⟨hx, isFinite_half hy⟩
  · exact .inr (.inl ⟨hx, isInf_half hy⟩)
  · exact .inr (.inr ⟨hx, isFinite_half hy⟩)

theorem HasSum.isNaN_left {x y : Float} (h : HasSum x y) : x.isNaN = false := by
  obtain ⟨hx, -⟩ | ⟨hx, -⟩ | ⟨hx, -⟩ := h
  · exact isNaN_of_isFinite hx
  · exact isNaN_of_isFinite hx
  · exact isNaN_of_isInf hx

theorem HasSum.isNaN_right {x y : Float} (h : HasSum x y) : y.isNaN = false := by
  obtain ⟨-, hy⟩ | ⟨-, hy⟩ | ⟨-, hy⟩ := h
  · exact isNaN_of_isFinite hy
  · exact isNaN_of_isInf hy
  · exact isNaN_of_isFinite hy

/-- Only infinities of two signs have no sum, and one at most is infinite
    here. -/
theorem HasSum.isNaN_add {x y : Float} (h : HasSum x y) : (x + y).isNaN = false := by
  obtain ⟨hx, hy⟩ | ⟨hx, hy⟩ | ⟨hx, hy⟩ := h
  · exact isNaN_of_rank_eq (rank_add hx hy)
  · rw [isNaN_eq_false_iff, ← natAbs_rank, rank_add_of_isInf hx hy, natAbs_rank,
      (isInf_iff y).1 hy]
  · rw [isNaN_eq_false_iff, ← natAbs_rank, rank_add_of_isInf_left hx hy, natAbs_rank,
      (isInf_iff x).1 hx]

/-- The middle lies between the start and the end. -/
theorem rank_add_half {x y : Float} (h : HasSum x y) :
    rank (x + y / 2) ∈ uIcc (rank x) (rank (x + y)) := by
  obtain ⟨hx, hy⟩ | ⟨hx, hy⟩ | ⟨hx, hy⟩ := h
  · rw [rank_add hx (isFinite_half hy), rank_add hx hy, ← nearestRank_rational hx]
    apply nearestRank_mem_uIcc
    have := rational_half_mem_uIcc hy
    rw [mem_uIcc] at this ⊢
    rcases this with h | h
    · exact .inl ⟨by linarith, by linarith⟩
    · exact .inr ⟨by linarith, by linarith⟩
  · rw [rank_add_of_isInf hx (isInf_half hy), rank_half_of_isInf hy, rank_add_of_isInf hx hy]
    exact right_mem_uIcc
  · rw [rank_add_of_isInf_left hx (isFinite_half hy)]
    exact left_mem_uIcc

/-- The end is not before the start if the size is not negative. -/
theorem rank_le_rank_add {x y : Float} (h : HasSum x y) (hy₀ : 0 ≤ rank y) :
    rank x ≤ rank (x + y) := by
  obtain ⟨hx, hy⟩ | ⟨hx, hy⟩ | ⟨hx, hy⟩ := h
  · rw [rank_add hx hy, ← nearestRank_rational hx]
    apply nearestRank_mono
    have := (rational_nonneg_iff hy).2 hy₀
    linarith
  · rw [rank_add_of_isInf hx hy]
    rw [isFinite_iff, ← natAbs_rank] at hx
    rw [isInf_iff, ← natAbs_rank] at hy
    omega
  · rw [rank_add_of_isInf_left hx hy]

/-! ## A middle and a radius -/

/-- The middle lies between the ends that a radius has to either side, be it
    negative. -/
theorem rank_mem_radius {c r : Float} (hc : c.isFinite) (hr : r.isFinite) :
    rank c ∈ uIcc (rank (c - r)) (rank (c + r)) := by
  rw [rank_sub hc hr, rank_add hc hr, ← nearestRank_rational hc]
  apply nearestRank_mem_uIcc
  rw [mem_uIcc]
  rcases le_total 0 (rational r) with h | h
  · exact .inl ⟨by linarith, by linarith⟩
  · exact .inr ⟨by linarith, by linarith⟩

/-- Those ends are in order if the radius is not negative. -/
theorem rank_sub_le_rank_add {c r : Float} (hc : c.isFinite) (hr : r.isFinite)
    (hr₀ : 0 ≤ rank r) : rank (c - r) ≤ rank (c + r) := by
  rw [rank_sub hc hr, rank_add hc hr]
  apply nearestRank_mono
  have := (rational_nonneg_iff hr).2 hr₀
  linarith

/-! ## Two ends -/

/-- A finite double at the rank of a mantissa and an exponent stands for what
    they do. -/
theorem rational_eq_of_rank {x : Float} (hx : x.isFinite) {s : Sign} {m : ℕ} {e : ℤ}
    (hc : IsCanonical m e) (h : rank x = nearestRank (s.apply m * 2 ^ e)) :
    rational x = s.apply m * 2 ^ e := by
  rw [← rank_ofUnpacked_of_isCanonical s hc.pos hc, rank_ofUnpacked_finite s hc.pos hc] at h
  have hpos := placeOf_pos hc
  rw [isFinite_iff, ← natAbs_rank] at hx
  have hp : rank x = s.apply (placeOf m e) := by
    cases s <;> simp only [Sign.apply] at h ⊢ <;> omega
  have hplace : place x = placeOf m e := by
    rw [← natAbs_rank, hp]
    cases s <;> simp [Sign.apply]
  refine rational_of_finite ?_ hc hplace
  rw [rank, hplace] at hp
  cases s <;> simp only [Sign.apply] at hp <;> split_ifs at hp with hs <;> simp [hs] <;> omega

/-- Twice a finite double is a double too, if it is not beyond all of them. -/
theorem rational_double {x : Float} (hx : x.isFinite) (h : (x + x).isFinite) :
    rational (x + x) = 2 * rational x := by
  have hr := rank_add hx hx
  rw [← two_mul] at hr
  have hu := unpackedFinite hx
  generalize x.toModel.unpack = u at hu
  rcases hu with hv | @⟨s, m, e, hm, hc, hv⟩
  · rw [hv, mul_zero] at hr ⊢
    refine rational_of_place_eq_zero ?_
    rw [← natAbs_rank, hr]
    rfl
  -- Doubling goes into the exponent, or into the
  -- mantissa where the exponent is the least.
  obtain ⟨n, f, hd, hnf⟩ : ∃ n f, IsCanonical n f ∧ 2 * rational x = s.apply n * 2 ^ f := by
    by_cases hn : 2 ^ 52 ≤ m
    · refine ⟨m, e + 1, ⟨hc.pos, hc.lt, by have := hc.le; omega, .inl hn⟩, ?_⟩
      rw [hv, zpow_add_one₀ two_ne_zero]
      ring
    · have he := hc.normal.resolve_left hn
      refine ⟨2 * m, e, ⟨by omega, by omega, hc.le, .inr he⟩, ?_⟩
      rw [hv]
      cases s <;> simp only [Sign.apply] <;> push_cast <;> ring
  rw [hnf] at hr ⊢
  exact rational_eq_of_rank h hd hr

/-- Twice a finite double is a double, or it is beyond all finite ones. -/
theorem double_cases {x : Float} (hx : x.isFinite) :
    (∃ y : Float, y.isFinite ∧ rank y = nearestRank (2 * rational x) ∧
      rational y = 2 * rational x) ∨
    (nearestRank (2 * rational x)).natAbs = infinityPlace := by
  have hr := rank_add hx hx
  rw [← two_mul] at hr
  obtain h | h := isFinite_or_isInf (isNaN_of_rank_eq hr)
  · exact .inl ⟨x + x, h, hr, rational_double hx h⟩
  · right
    rw [← hr, natAbs_rank]
    exact (isInf_iff _).1 h

/-- What is not less than the double next to twice a number is not less than
    twice that number. -/
theorem double_le {x y : Float} (hx : x.isFinite) (hy : y.isFinite)
    (h : nearestRank (2 * rational x) ≤ rank y) : 2 * rational x ≤ rational y := by
  obtain ⟨z, hz, hr, hv⟩ | hinf := double_cases hx
  · rwa [← hr, rank_le_rank_iff hz hy, hv] at h
  · by_contra hlt
    have hle := nearestRank_mono (le_of_not_ge hlt)
    rw [nearestRank_rational hy] at hle
    rw [isFinite_iff, ← natAbs_rank] at hy
    omega

/-- What is not more than the double next to twice a number is not more than
    twice that number. -/
theorem le_double {x y : Float} (hx : x.isFinite) (hy : y.isFinite)
    (h : rank y ≤ nearestRank (2 * rational x)) : rational y ≤ 2 * rational x := by
  obtain ⟨z, hz, hr, hv⟩ | hinf := double_cases hx
  · rwa [← hr, rank_le_rank_iff hy hz, hv] at h
  · by_contra hlt
    have hle := nearestRank_mono (le_of_not_ge hlt)
    rw [nearestRank_rational hy] at hle
    rw [isFinite_iff, ← natAbs_rank] at hy
    omega

/-- The middle lies between the ends, unless their sum is infinite. -/
theorem rank_midpoint {x y : Float} (hx : x.isFinite) (hy : y.isFinite) (h : (x + y).isFinite) :
    rank ((x + y) / 2) ∈ uIcc (rank x) (rank y) := by
  have hsum := rank_add hx hy
  rw [rank_half h, ← nearestRank_rational hx, ← nearestRank_rational hy]
  apply nearestRank_mem_uIcc
  rw [mem_uIcc]
  rcases le_total (rational x) (rational y) with hxy | hxy
  · have h₁ := double_le hx h (hsum ▸ nearestRank_mono (by linarith))
    have h₂ := le_double hy h (hsum ▸ nearestRank_mono (by linarith))
    exact .inl ⟨by linarith, by linarith⟩
  · have h₁ := double_le hy h (hsum ▸ nearestRank_mono (by linarith))
    have h₂ := le_double hx h (hsum ▸ nearestRank_mono (by linarith))
    exact .inr ⟨by linarith, by linarith⟩

end AnchorLayout.Decimal
