import Aperture.Proofs.Exact.Hours
import Mathlib.Analysis.SpecialFunctions.Complex.Arg
import Mathlib.Analysis.SpecialFunctions.Trigonometric.Angle
import Mathlib.Analysis.SpecialFunctions.Trigonometric.Inverse

/-!
# Angles over the reals

The circle functions of the reals as those of this library, and what becomes of degrees, hours and
their wrapping then: an angle and the wrapped one have the same sine and cosine.

The instance is scoped like the one of the scalars.
-/

namespace Aperture.Exact

open AddCommGroup (modEq_iff_zsmul')

/-- The circle functions of the reals. -/
noncomputable scoped instance circle : Trig ℝ where
  pi := Real.pi
  sin := Real.sin
  cos := Real.cos
  arcsin := Real.arcsin
  arccos := Real.arccos
  arctan2 y x := Complex.arg ⟨x, y⟩
  hypot x y := √(x ^ 2 + y ^ 2)
  sqrt := Real.sqrt

@[simp] theorem sin_eq (x : ℝ) : Trig.sin x = Real.sin x := rfl

@[simp] theorem cos_eq (x : ℝ) : Trig.cos x = Real.cos x := rfl

@[simp] theorem arcsin_eq (x : ℝ) : Trig.arcsin x = Real.arcsin x := rfl

@[simp] theorem arccos_eq (x : ℝ) : Trig.arccos x = Real.arccos x := rfl

@[simp] theorem scalar_abs (x : ℝ) : Scalar.abs x = |x| := rfl

theorem epsilon_eq : (Constant.epsilon : ℝ) = 1 / 10 ^ 12 := by
  rw [Constant.epsilon, ofDecimal_eq]
  norm_num

theorem epsilon_pos : (0 : ℝ) < Constant.epsilon := by
  rw [epsilon_eq]
  positivity

/-- Factors of a product that counts as positive. -/
theorem pos_of_epsilon_le_mul {x y : ℝ} (hx : 0 ≤ x) (h : Constant.epsilon ≤ x * y) :
    0 < x ∧ 0 < y := by
  have hpos : 0 < x * y := epsilon_pos.trans_le h
  have hxpos : 0 < x := hx.lt_of_ne fun hzero => by simp [← hzero] at hpos
  exact ⟨hxpos, (pos_iff_pos_of_mul_pos hpos).1 hxpos⟩

/-! ## Degrees -/

theorem toRadians_eq (x : ℝ) : Trig.toRadians x = x * (Real.pi / 180) := rfl

theorem toDegrees_eq (x : ℝ) : Trig.toDegrees x = x * (180 / Real.pi) := rfl

@[simp] theorem toRadians_toDegrees (x : ℝ) : Trig.toRadians (Trig.toDegrees x) = x := by
  have hpi := Real.pi_ne_zero
  rw [toRadians_eq, toDegrees_eq]
  field_simp

@[simp] theorem toDegrees_toRadians (x : ℝ) : Trig.toDegrees (Trig.toRadians x) = x := by
  have hpi := Real.pi_ne_zero
  rw [toRadians_eq, toDegrees_eq]
  field_simp

theorem toRadians_thirty : Trig.toRadians (30 : ℝ) = Real.pi / 6 := by
  rw [toRadians_eq]
  ring

theorem toRadians_sixty : Trig.toRadians (60 : ℝ) = Real.pi / 3 := by
  rw [toRadians_eq]
  ring

theorem cos_toRadians_nonneg {x : ℝ} (h : x ∈ Set.Icc (-90) 90) :
    0 ≤ Real.cos (Trig.toRadians x) := by
  have hpi := Real.pi_pos
  rw [toRadians_eq]
  exact Real.cos_nonneg_of_neg_pi_div_two_le_of_le (by nlinarith [h.1]) (by nlinarith [h.2])

/-- A direction counted the other way round. -/
theorem toRadians_reflect (x : ℝ) : Trig.toRadians (360 - x) = 2 * Real.pi - Trig.toRadians x := by
  rw [toRadians_eq, toRadians_eq]
  ring

/-- A number that can be a sine is not cut. -/
theorem clip_of_abs_le {x : ℝ} (h : |x| ≤ 1) : Scalar.clip x = x := by
  obtain ⟨hlow, hhigh⟩ := abs_le.1 h
  simp [Scalar.clip, not_lt.2 hlow, not_lt.2 hhigh]

/-- Degrees brought into `[0, 360)` are the same angle. -/
theorem coe_toRadians_modulo (x : ℝ) :
    ((Trig.toRadians (Scalar.modulo x (Scalar.ofNat 360)) : ℝ) : Real.Angle) =
      (Trig.toRadians x : ℝ) := by
  have h := modulo_eq x (m := 360) (by norm_num)
  refine Real.Angle.angle_eq_iff_two_pi_dvd_sub.2 ⟨-⌊x / 360⌋, ?_⟩
  simp only [toRadians_eq, ofNat_eq, Nat.cast_ofNat, h]
  push_cast
  ring

theorem sin_toRadians_modulo (x : ℝ) :
    Real.sin (Trig.toRadians (Scalar.modulo x (Scalar.ofNat 360))) =
      Real.sin (Trig.toRadians x) := by
  rw [← Real.Angle.sin_coe, coe_toRadians_modulo, Real.Angle.sin_coe]

theorem cos_toRadians_modulo (x : ℝ) :
    Real.cos (Trig.toRadians (Scalar.modulo x (Scalar.ofNat 360))) =
      Real.cos (Trig.toRadians x) := by
  rw [← Real.Angle.cos_coe, coe_toRadians_modulo, Real.Angle.cos_coe]

/-! ## Hours -/

/-- The angle of some hours in radians. -/
noncomputable def hourRadians (hours : ℝ) : ℝ :=
  Trig.toRadians (hours * Constant.degreesPerHour)

theorem hourRadians_eq (hours : ℝ) : hourRadians hours = hours * (Real.pi / 12) := by
  rw [hourRadians, degreesPerHour_eq, toRadians_eq]
  ring

theorem abs_hourRadians (hours : ℝ) : |hourRadians hours| = hourRadians |hours| := by
  rw [hourRadians_eq, hourRadians_eq, abs_mul, abs_of_pos (by positivity : 0 < Real.pi / 12)]

theorem toDegrees_hourRadians (hours : ℝ) : Trig.toDegrees (hourRadians hours) = hours * 15 := by
  rw [hourRadians, toDegrees_toRadians, degreesPerHour_eq]

theorem hourRadians_sub (x y : ℝ) : hourRadians (x - y) = hourRadians x - hourRadians y := by
  simp only [hourRadians_eq, sub_mul]

theorem hourRadians_add_longitude (hours longitude : ℝ) :
    hourRadians (hours + longitude / Constant.degreesPerHour) =
      hourRadians hours + Trig.toRadians longitude := by
  rw [hourRadians_eq, hourRadians_eq, degreesPerHour_eq, toRadians_eq]
  ring

/-- Hours that differ by full days are the same angle. -/
theorem coe_hourRadians_eq {x y : ℝ} (h : x ≡ y [PMOD 24]) :
    (hourRadians x : Real.Angle) = hourRadians y := by
  obtain ⟨n, hn⟩ := modEq_iff_zsmul'.1 h.symm
  refine Real.Angle.angle_eq_iff_two_pi_dvd_sub.2 ⟨n, ?_⟩
  rw [← hourRadians_sub, hn, hourRadians_eq, zsmul_eq_mul]
  ring

theorem coe_hourRadians_hourAngle (seconds longitude rightAscension : ℝ) :
    (hourRadians (hourAngle (localSiderealTime seconds longitude) rightAscension) : Real.Angle) =
      (hourRadians (greenwichSiderealTime seconds) + Trig.toRadians longitude -
        hourRadians rightAscension : ℝ) := by
  rw [coe_hourRadians_eq (hourAngle_modEq seconds longitude rightAscension), ← degreesPerHour_eq,
    hourRadians_sub, hourRadians_add_longitude]

/-- **The hour angle at a longitude** is that at Greenwich and the longitude, up to full turns. -/
theorem coe_hourRadians_of_greenwich (seconds longitude rightAscension : ℝ) :
    (hourRadians (hourAngle (localSiderealTime seconds longitude) rightAscension) : Real.Angle) =
      (hourRadians (hourAngle (localSiderealTime seconds Scalar.zero) rightAscension) +
        Trig.toRadians longitude : ℝ) := by
  rw [zero_eq, coe_hourRadians_eq (hourAngle_modEq_greenwich seconds longitude rightAscension),
    ← degreesPerHour_eq, hourRadians_add_longitude]

end Aperture.Exact
