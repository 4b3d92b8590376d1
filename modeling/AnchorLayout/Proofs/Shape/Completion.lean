import AnchorLayout.Proofs.Decimal.Arithmetic
import AnchorLayout.Proofs.Shape.Realization

/-!
# Which shapes are realized

A shape whose properties stand for numbers is realized, whatever these numbers
are: zero, negative, infinite or none at all. What it cannot do is turn by an
infinite angle: the cosine of an angle that is infinite in radians is not
defined, and no finite number of degrees is that many radians
(`Rotation.ofDegrees?_eq_none_iff`).
-/

namespace AnchorLayout

open AnchorLayout.Action

/-! ## Angles -/

namespace Rotation

theorem isFinite_radiansPerDegree : radiansPerDegree.isFinite := by decide +kernel

theorem quotient_radiansPerDegree :
    Decimal.quotient radiansPerDegree = (5030569068109113, 2 ^ 58) := by decide +kernel

theorem rational_radiansPerDegree :
    Decimal.rational radiansPerDegree = 5030569068109113 / 2 ^ 58 := by
  have hs : Decimal.isNegative radiansPerDegree = false := by decide +kernel
  rw [Decimal.rational, hs, quotient_radiansPerDegree]
  push_cast
  rfl

/-- An angle is infinite in radians exactly if it is infinite in degrees. -/
theorem isInf_mul_radiansPerDegree (x : Float) : (x * radiansPerDegree).isInf = x.isInf := by
  have hc := isFinite_radiansPerDegree
  have hr := rational_radiansPerDegree
  have hpos : 0 < Decimal.rational radiansPerDegree := by rw [hr]; positivity
  rw [Bool.eq_iff_iff]
  refine ⟨fun h => ?_, fun h => Decimal.isInf_mul h hc hpos.ne'⟩
  rw [Decimal.isInf_iff] at h
  obtain hx | hx | hx := Decimal.isFinite_or_isInf_or_isNaN x
  · have hle : |Decimal.rational radiansPerDegree| ≤ 1 := by
      rw [abs_of_pos hpos, hr]
      norm_num
    have := (Decimal.isFinite_iff _).1 (Decimal.isFinite_mul hx hc hle)
    omega
  · exact hx
  · have := (Decimal.isNaN_iff _).1 (Decimal.isNaN_mul hx radiansPerDegree)
    omega

theorem ofDegrees?_eq_none_iff (x : Float) : ofDegrees? x = none ↔ x.isInf := by
  rw [← isInf_mul_radiansPerDegree]
  simp only [ofDegrees?]
  split_ifs with h <;> simp [h]

end Rotation

namespace Shape

variable {kind : String} {run : Realizer} {id : ShapeId} {props : Members} {i : Inputs}

/-- A shape that cannot be turned by its angle is one that is to be turned by
    an infinite one. -/
theorem angle_cases (rotation : Float) :
    isTurned rotation = true ∧ Rotation.ofDegrees? rotation = none ↔ rotation.isInf := by
  rw [Rotation.ofDegrees?_eq_none_iff, and_iff_right_iff_imp, isTurned, Bool.not_eq_true',
    ← Bool.not_eq_true, Decimal.beq_zero_iff, Decimal.isInf_iff]
  intro h h₀
  cases h.symm.trans h₀

/-- A shape of one of the usual kinds whose properties stand for numbers
    publishes the anchors that these settle. It is then realized, whatever
    numbers they are, unless it is to be turned by an infinite angle. -/
theorem result_of_read (hk : kinds.get? kind = some run) (hid : id.asKey = .ok id)
    (s : Journaled Registry) (hkind : i.kind = kind) (hread : i.Read s.state id props) :
    (run { id } props s).1 =
        (if i.rotation.isInf then .error .infiniteAngle
        else .ok ({ id, published := i.anchors, isFinal := true },
          withOthers i.drawn props (geometry kind))) ∧
      ∃ as, Anchors.ofMembers id i.anchors = .ok as ∧
        (run { id } props s).2.state.anchorsOf id = .ok as := by
  obtain ⟨hangle, s', hs', as, has, hpub⟩ | ⟨hangle, out, s', hs', hr⟩ :=
    run_cases hk hid hkind hread
  · rw [hs', if_pos ((angle_cases _).1 hangle)]
    exact ⟨rfl, as, has, hpub⟩
  · rw [hs', if_neg (mt (angle_cases _).2 hangle), hr.out]
    exact ⟨rfl, hr.anchors⟩

/-- A rectangle of infinite size that is turned by no number of degrees. -/
theorem result_of_read_infinite :
    let props : Members := [("x", .float Decimal.infinity),
      ("width", .float (-Decimal.infinity)), ("height", .int (-3)),
      ("rotation", .float Decimal.notANumber)]
    let i := Inputs.rect (some Decimal.infinity) none (some (-Decimal.infinity)) none none
      (some (-3)) (some Decimal.notANumber)
    ShapeId.asKey (.text "a") = .ok (.text "a") ∧ i.kind = "rect" ∧ i.Read {} (.text "a") props ∧
      i.rotation.isInf = false ∧
      (rect { id := .text "a" } props ⟨{}, {}⟩).1 =
        .ok ({ id := .text "a", published := i.anchors, isFinal := true },
          withOthers i.drawn props rectGeometry) := by
  intro props i
  have hread : i.Read {} (.text "a") props := by
    have hint : Decimal.ofInt? (-3) = some (-3) := by decide +kernel
    exact ⟨⟨_, rfl, rfl⟩, ⟨_, hint, rfl⟩, ⟨_, rfl, rfl⟩, rfl, rfl, rfl, ⟨_, rfl, rfl⟩⟩
  have hrot : i.rotation.isInf = false := by decide +kernel
  have h := (result_of_read (show kinds.get? "rect" = _ from rfl) rfl ⟨{}, {}⟩ rfl hread).1
  rw [hrot] at h
  exact ⟨rfl, rfl, hread, hrot, h⟩

/-- A rectangle of which nothing is given but an angle, an expression that
    stands for infinity. -/
theorem not_realized_infinite :
    ∃ (props : Members) (i : Inputs), props.get? "rotation" = some (.text "1/0") ∧
      i.kind = "rect" ∧ i.Read {} (.text "a") props ∧
      (rect { id := .text "a" } props ⟨{}, {}⟩).1 = .error .infiniteAngle ∧
      Failure.infiniteAngle.message = "math domain error" := by
  have hscan : Token.scan "1/0" =
      .ok [⟨.number "1", 0⟩, ⟨.operator .div, 1⟩, ⟨.number "0", 2⟩] := by cbv
  have hexpr : Registry.expression "1/0" = .ok (.binary .div
      (.literal (Decimal.ofNumeral "1".toList).toFloat)
      (.literal (Decimal.ofNumeral "0".toList).toFloat)) := by
    rw [Registry.expression, Expr.parse, hscan]
    rfl
  have hvalue : ((Decimal.ofNumeral "1".toList).toFloat / (Decimal.ofNumeral "0".toList).toFloat) =
      Decimal.infinity := by decide +kernel
  have hread : (Inputs.rect none none none none none none (some Decimal.infinity)).Read {}
      (.text "a") [("rotation", .text "1/0")] := by
    refine ⟨rfl, rfl, rfl, rfl, rfl, rfl, _, ?_, rfl⟩
    rw [Registry.StandsFor, Registry.valueOf, hexpr, ← hvalue]
    rfl
  refine ⟨_, _, rfl, rfl, hread, ?_, rfl⟩
  obtain ⟨-, s', hs', -⟩ | ⟨hangle, -⟩ :=
    run_cases (show kinds.get? "rect" = _ from rfl) (s := ⟨{}, {}⟩) rfl rfl hread
  · rw [hs']
  · exact absurd ((angle_cases _).2 (by decide +kernel)) hangle

end Shape

end AnchorLayout
