import Aperture.Geometry.Horizontal
import Aperture.Proofs.Exact.Scalar
import Mathlib.Algebra.Order.Archimedean.Basic
import Mathlib.Algebra.Order.ToIntervalMod

/-!
# Hours over exact scalars

Hours are wrapped twice on the way to an hour angle, into `[0, 24)` and then into `[-12, 12)`. Each
time a remainder is taken and compared with the right end of its interval.

* The comparison makes the interval half-open, whatever remainder in `[0, 24]` is taken
  (`dayHours_withRemainder_mem`, `signedHours_withRemainder_mem`). A remainder that rounding lifted
  to 24 does no harm.
* Over a field the remainder is that of the division. The comparison never acts, and the wrapped
  hours are the residue of the hours in the interval (`dayHours_eq`, `signedHours_eq`). What is
  wrapped twice is then the residue of the sum (`hourAngle_modEq`).
-/

namespace Aperture.Exact

open AddCommGroup (modEq_iff_zsmul')

variable {K : Type} [Field K] [LinearOrder K] [FloorRing K]

/-! ## Any remainder -/

/-- The numbers of a field as scalars, with remainders that are taken by `f`. -/
abbrev withRemainder (f : K → K → K) : Scalar K := { (scalar : Scalar K) with modulo := f }

theorem dayHours_withRemainder (f : K → K → K) (hours : K) :
    @dayHours K (withRemainder f) hours = if 24 ≤ f hours 24 then 0 else f hours 24 := by
  show (if decide (((24 : ℕ) : K) ≤ f hours (24 : ℕ)) then ((0 : ℕ) : K) else f hours (24 : ℕ)) = _
  simp only [Nat.cast_ofNat, Nat.cast_zero, decide_eq_true_eq]

theorem signedHours_withRemainder (f : K → K → K) (hours : K) :
    @signedHours K (withRemainder f) hours =
      if 12 ≤ f (hours + 12) 24 - 12 then -12 else f (hours + 12) 24 - 12 := by
  show (if decide (((12 : ℕ) : K) ≤ f (hours + (12 : ℕ)) (24 : ℕ) - (12 : ℕ)) then -((12 : ℕ) : K)
    else f (hours + (12 : ℕ)) (24 : ℕ) - (12 : ℕ)) = _
  simp only [Nat.cast_ofNat, decide_eq_true_eq]

section

variable {f : K → K → K} {hours : K}

/-- A remainder that is the modulus counts as zero. -/
theorem dayHours_withRemainder_of_full (h : f hours 24 = 24) :
    @dayHours K (withRemainder f) hours = 0 := by
  rw [dayHours_withRemainder, h, if_pos le_rfl]

variable [IsStrictOrderedRing K]

theorem dayHours_withRemainder_mem (h : f hours 24 ∈ Set.Icc 0 24) :
    @dayHours K (withRemainder f) hours ∈ Set.Ico 0 24 := by
  rw [dayHours_withRemainder]
  split_ifs with hfull
  · norm_num
  · exact ⟨h.1, not_le.1 hfull⟩

theorem signedHours_withRemainder_mem (h : f (hours + 12) 24 ∈ Set.Icc 0 24) :
    @signedHours K (withRemainder f) hours ∈ Set.Ico (-12) 12 := by
  rw [signedHours_withRemainder]
  split_ifs with hfull
  · norm_num
  · exact ⟨by linarith [h.1], not_le.1 hfull⟩

theorem signedHours_withRemainder_of_full (h : f (hours + 12) 24 = 24) :
    @signedHours K (withRemainder f) hours = -12 := by
  rw [signedHours_withRemainder, h, if_pos (by norm_num)]

end

/-! ## Constants -/

@[simp] theorem degreesPerHour_eq : (Constant.degreesPerHour : K) = 15 := Nat.cast_ofNat

variable [IsStrictOrderedRing K]

theorem siderealDay_pos : (0 : K) < Constant.siderealDay := by
  rw [Constant.siderealDay, ofDecimal_eq]
  positivity

/-! ## Remainders of the division -/

theorem modulo_eq (x : K) {m : K} (hm : 0 < m) : Scalar.modulo x m = x - ⌊x / m⌋ * m := by
  show x - |m| * ⌊x / |m|⌋ = _
  rw [abs_of_pos hm, mul_comm]

theorem modulo_mem (x : K) {m : K} (hm : 0 < m) : Scalar.modulo x m ∈ Set.Ico 0 m := by
  rw [modulo_eq x hm]
  exact ⟨Int.sub_floor_div_mul_nonneg x hm, Int.sub_floor_div_mul_lt x hm⟩

theorem modulo_eq_toIcoMod (x : K) {m : K} (hm : 0 < m) : Scalar.modulo x m = toIcoMod hm 0 x := by
  refine ((toIcoMod_eq_iff hm).2 ⟨by simpa using modulo_mem x hm, ⌊x / m⌋, ?_⟩).symm
  rw [modulo_eq x hm, zsmul_eq_mul, sub_add_cancel]

/-- Over a field no remainder is the modulus. -/
theorem dayHours_eq_modulo (hours : K) : dayHours hours = Scalar.modulo hours 24 := by
  have hbelow := (modulo_mem hours (m := 24) (by norm_num)).2
  exact (dayHours_withRemainder Scalar.modulo hours).trans (if_neg (not_le.2 hbelow))

theorem signedHours_eq_modulo (hours : K) :
    signedHours hours = Scalar.modulo (hours + 12) 24 - 12 := by
  have hbelow := (modulo_mem (hours + 12) (m := 24) (by norm_num)).2
  exact (signedHours_withRemainder Scalar.modulo hours).trans (if_neg (by linarith))

/-! ## Residues -/

theorem day_pos : (0 : K) < 24 := by norm_num

/-- **Hours of the day** are the residue of the hours in `[0, 24)`. -/
theorem dayHours_eq (hours : K) : dayHours hours = toIcoMod day_pos 0 hours := by
  rw [dayHours_eq_modulo, modulo_eq_toIcoMod]

/-- **Signed hours** are the residue of the hours in `[-12, 12)`. -/
theorem signedHours_eq (hours : K) : signedHours hours = toIcoMod day_pos (-12) hours := by
  rw [signedHours_eq_modulo, modulo_eq_toIcoMod _ day_pos, toIcoMod_add_right_eq_add, zero_sub,
    add_sub_cancel_right]

theorem dayHours_mem (hours : K) : dayHours hours ∈ Set.Ico 0 24 := by
  rw [dayHours_eq]
  exact toIcoMod_mem_Ico' day_pos hours

theorem signedHours_mem (hours : K) : signedHours hours ∈ Set.Ico (-12) 12 := by
  have hmem := toIcoMod_mem_Ico day_pos (-12) hours
  rw [signedHours_eq]
  exact ⟨hmem.1, hmem.2.trans_eq (by norm_num)⟩

theorem toIcoMod_modEq (a x : K) : toIcoMod day_pos a x ≡ x [PMOD 24] :=
  modEq_iff_zsmul'.2 ⟨toIcoDiv day_pos a x, self_sub_toIcoMod day_pos a x⟩

theorem dayHours_modEq (hours : K) : dayHours hours ≡ hours [PMOD 24] := by
  rw [dayHours_eq]
  exact toIcoMod_modEq 0 hours

theorem signedHours_modEq (hours : K) : signedHours hours ≡ hours [PMOD 24] := by
  rw [signedHours_eq]
  exact toIcoMod_modEq (-12) hours

theorem dayHours_inj {x y : K} : dayHours x = dayHours y ↔ x ≡ y [PMOD 24] := by
  rw [dayHours_eq, dayHours_eq, toIcoMod_inj]

theorem signedHours_inj {x y : K} : signedHours x = signedHours y ↔ x ≡ y [PMOD 24] := by
  rw [signedHours_eq, signedHours_eq, toIcoMod_inj]

theorem signedHours_of_mem {hours : K} (h : hours ∈ Set.Ico (-12) 12) :
    signedHours hours = hours := by
  rw [signedHours_eq, toIcoMod_eq_self]
  exact ⟨h.1, h.2.trans_eq (by norm_num)⟩

/-- Twelve hours after the meridian are twelve hours before it. -/
theorem signedHours_twelve : signedHours (12 : K) = -12 := by
  have hright := toIcoMod_apply_right day_pos (-12 : K)
  rwa [show (-12 : K) + 24 = 12 by norm_num, ← signedHours_eq] at hright

/-! ## Sidereal time and hour angle -/

/-- A sidereal day is a turn of 24 hours. -/
theorem greenwichSiderealTime_add (seconds : K) (n : ℤ) :
    greenwichSiderealTime (seconds + n * Constant.siderealDay) =
      greenwichSiderealTime seconds + n • 24 := by
  have hday := (siderealDay_pos (K := K)).ne'
  rw [greenwichSiderealTime, greenwichSiderealTime, ofNat_eq, Nat.cast_ofNat, zsmul_eq_mul]
  field_simp
  ring

theorem localSiderealTime_modEq (seconds longitude : K) :
    localSiderealTime seconds longitude ≡
      greenwichSiderealTime seconds + longitude / 15 [PMOD 24] := by
  rw [localSiderealTime, degreesPerHour_eq]
  exact dayHours_modEq _

/-- **The hour angle is a residue:** both wraps change it by whole days. -/
theorem hourAngle_modEq (seconds longitude rightAscension : K) :
    hourAngle (localSiderealTime seconds longitude) rightAscension ≡
      greenwichSiderealTime seconds + longitude / 15 - rightAscension [PMOD 24] :=
  (signedHours_modEq _).trans ((localSiderealTime_modEq seconds longitude).sub_right _)

/-- **The hour angle at a longitude** is that at Greenwich and the longitude in hours. -/
theorem hourAngle_modEq_greenwich (seconds longitude rightAscension : K) :
    hourAngle (localSiderealTime seconds longitude) rightAscension ≡
      hourAngle (localSiderealTime seconds 0) rightAscension + longitude / 15 [PMOD 24] := by
  have hgreenwich := (hourAngle_modEq seconds 0 rightAscension).add_right (longitude / 15)
  rw [zero_div, add_zero, sub_add_eq_add_sub] at hgreenwich
  exact (hourAngle_modEq seconds longitude rightAscension).trans hgreenwich.symm

/-- Sidereal time repeats after whole sidereal days and around the Earth. -/
theorem localSiderealTime_add (seconds longitude : K) (days turns : ℤ) :
    localSiderealTime (seconds + days * Constant.siderealDay) (longitude + turns * 360) =
      localSiderealTime seconds longitude := by
  rw [localSiderealTime, localSiderealTime, dayHours_inj, degreesPerHour_eq,
    greenwichSiderealTime_add, modEq_iff_zsmul']
  refine ⟨-(days + turns), ?_⟩
  simp only [zsmul_eq_mul]
  push_cast
  ring

/-- An hour angle repeats with the right ascension. -/
theorem hourAngle_add (siderealTime rightAscension : K) (days : ℤ) :
    hourAngle siderealTime (rightAscension + days * 24) = hourAngle siderealTime rightAscension := by
  rw [hourAngle, hourAngle, signedHours_inj, modEq_iff_zsmul']
  refine ⟨days, ?_⟩
  rw [zsmul_eq_mul]
  ring

end Aperture.Exact
