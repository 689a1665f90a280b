import Aperture.Proofs.Exact.Circle
import Aperture.Vec3

/-!
# The horizon

Over the reals, what altitude and azimuth say about a target.

* A direction is a unit vector along east, north and up (`Horizontal.heading`), and so is the place
  of a target in the sky, by its hour angle and declination (`sky`).
* The altitude is that of the target. The azimuth is recovered from its cosine and gets its sign
  from the hour angle alone, so the heading is the place of the target with the *absolute* cosine of
  the declination in its east component (`Horizontal.heading_ofHourAngle`).

**Theorem (`toHourAngle_ofHourAngle`).** Away from zenith and poles, hour angle and declination are
recovered from altitude and azimuth.
-/

namespace Aperture

open Exact
open Real (sin cos arcsin arccos)

/-! ## Places in the sky -/

/-- East, north and up of a target at the hour angle `h` and the declination `d`, seen from the
latitude `φ`, all in radians. -/
noncomputable def sky (h d φ : ℝ) : Vec3 ℝ :=
  ⟨-(cos d * sin h), sin d * cos φ - cos d * sin φ * cos h, sin d * sin φ + cos d * cos φ * cos h⟩

theorem sky_unit (h d φ : ℝ) : (sky h d φ).x ^ 2 + (sky h d φ).y ^ 2 + (sky h d φ).z ^ 2 = 1 := by
  simp only [sky]
  linear_combination (sin d ^ 2 + cos d ^ 2 * cos h ^ 2) * Real.sin_sq_add_cos_sq φ +
    cos d ^ 2 * Real.sin_sq_add_cos_sq h + Real.sin_sq_add_cos_sq d

theorem abs_sky_z_le (h d φ : ℝ) : |(sky h d φ).z| ≤ 1 := by
  refine abs_le_one_iff_mul_self_le_one.2 ?_
  nlinarith [sky_unit h d φ]

/-- The declination is found back from north and up. -/
theorem sky_declination (h d φ : ℝ) :
    (sky h d φ).z * sin φ + (sky h d φ).y * cos φ = sin d := by
  simp only [sky]
  linear_combination sin d * Real.sin_sq_add_cos_sq φ

/-- The north component from the altitude. -/
theorem sky_north (h d φ : ℝ) : sin d - (sky h d φ).z * sin φ = (sky h d φ).y * cos φ := by
  linear_combination -sky_declination h d φ

/-! ## Recovered angles -/

/-- Above the threshold the angle is not replaced. -/
theorem toRadians_triangleAngle {side other third denominator : ℝ}
    (hdenominator : Constant.epsilon ≤ denominator)
    (hquotient : |(side - other * third) / denominator| ≤ 1) :
    Trig.toRadians (triangleAngle side other third denominator) =
      arccos ((side - other * third) / denominator) := by
  have hkeep : ¬ |denominator| < Constant.epsilon :=
    not_lt.2 (hdenominator.trans (le_abs_self denominator))
  have hangle : triangleAngle side other third denominator =
      Trig.toDegrees (arccos (Scalar.clip ((side - other * third) / denominator))) :=
    if_neg (by simpa using hkeep)
  rw [hangle, toRadians_toDegrees, clip_of_abs_le hquotient]

namespace Horizontal

/-- East, north and up of a direction, at unit length. -/
noncomputable def heading (p : Horizontal ℝ) : Vec3 ℝ :=
  let a := Trig.toRadians p.altitude
  let z := Trig.toRadians p.azimuth
  ⟨cos a * sin z, cos a * cos z, sin a⟩

/-! ## Altitude -/

section

variable (hours declination latitude : ℝ)

/-- **The altitude is that of the target.** -/
theorem toRadians_altitude :
    Trig.toRadians (ofHourAngle hours declination latitude).altitude =
      arcsin
        (sky (hourRadians hours) (Trig.toRadians declination) (Trig.toRadians latitude)).z := by
  show Trig.toRadians (Trig.toDegrees (arcsin (Scalar.clip (sky _ _ _).z))) = _
  rw [toRadians_toDegrees, clip_of_abs_le (abs_sky_z_le ..)]
  rfl

theorem sin_altitude :
    sin (Trig.toRadians (ofHourAngle hours declination latitude).altitude) =
      (sky (hourRadians hours) (Trig.toRadians declination) (Trig.toRadians latitude)).z := by
  obtain ⟨hlow, hhigh⟩ := abs_le.1
    (abs_sky_z_le (hourRadians hours) (Trig.toRadians declination) (Trig.toRadians latitude))
  rw [toRadians_altitude, Real.sin_arcsin hlow hhigh]

theorem cos_altitude_nonneg :
    0 ≤ cos (Trig.toRadians (ofHourAngle hours declination latitude).altitude) := by
  rw [toRadians_altitude]
  exact Real.cos_arcsin_nonneg _

theorem cos_altitude_sq :
    cos (Trig.toRadians (ofHourAngle hours declination latitude).altitude) ^ 2 =
      (sky (hourRadians hours) (Trig.toRadians declination) (Trig.toRadians latitude)).x ^ 2 +
        (sky (hourRadians hours) (Trig.toRadians declination) (Trig.toRadians latitude)).y ^ 2 := by
  rw [Real.cos_sq', sin_altitude]
  linear_combination -sky_unit (hourRadians hours) (Trig.toRadians declination)
    (Trig.toRadians latitude)

/-- Altitudes lie in `[-90, 90]` and azimuths in `[0, 360)`. -/
theorem ofHourAngle_mem :
    (ofHourAngle hours declination latitude).altitude ∈ Set.Icc (-90) 90 ∧
      (ofHourAngle hours declination latitude).azimuth ∈ Set.Ico 0 360 := by
  refine ⟨?_, modulo_mem _ (by norm_num)⟩
  have hdegree : 0 < Real.pi / 180 := by positivity
  have hturn := toRadians_altitude hours declination latitude
  have hlow := Real.neg_pi_div_two_le_arcsin
    (sky (hourRadians hours) (Trig.toRadians declination) (Trig.toRadians latitude)).z
  have hhigh := Real.arcsin_le_pi_div_two
    (sky (hourRadians hours) (Trig.toRadians declination) (Trig.toRadians latitude)).z
  rw [toRadians_eq] at hturn
  rw [← hturn] at hlow hhigh
  constructor <;> nlinarith

/-! ## Azimuth -/

/-- The angle from north that the azimuth is made from. -/
noncomputable def fromNorth : ℝ :=
  let a := Trig.toRadians (ofHourAngle hours declination latitude).altitude
  triangleAngle (sin (Trig.toRadians declination)) (sin a) (sin (Trig.toRadians latitude))
    (cos a * cos (Trig.toRadians latitude))

theorem azimuth_eq : (ofHourAngle hours declination latitude).azimuth =
    Scalar.modulo (if 0 < sin (hourRadians hours) then 360 - fromNorth hours declination latitude
      else fromNorth hours declination latitude) (Scalar.ofNat 360) := by
  simp only [fromNorth, ofHourAngle, toRadians_toDegrees, lt_eq, zero_eq, decide_eq_true_eq,
    ofNat_eq, Nat.cast_ofNat]
  rfl

theorem cos_azimuth : cos (Trig.toRadians (ofHourAngle hours declination latitude).azimuth) =
    cos (Trig.toRadians (fromNorth hours declination latitude)) := by
  rw [azimuth_eq, cos_toRadians_modulo]
  split_ifs
  · rw [toRadians_reflect, Real.cos_two_pi_sub]
  · rfl

/-- Once the target has crossed the meridian, the angle counts westward. -/
theorem sin_azimuth : sin (Trig.toRadians (ofHourAngle hours declination latitude).azimuth) =
    if 0 < sin (hourRadians hours) then -sin (Trig.toRadians (fromNorth hours declination latitude))
      else sin (Trig.toRadians (fromNorth hours declination latitude)) := by
  rw [azimuth_eq, sin_toRadians_modulo]
  split_ifs
  · rw [toRadians_reflect, Real.sin_two_pi_sub]
  · rfl

end

/-- The angle of a horizontal vector of length `c` from north. -/
theorem angle_from_north {x y c : ℝ} (hc : 0 < c) (hlength : c ^ 2 = x ^ 2 + y ^ 2) :
    |y / c| ≤ 1 ∧ c * cos (arccos (y / c)) = y ∧ c * sin (arccos (y / c)) = |x| := by
  have hle : |y / c| ≤ 1 := by
    rw [abs_div, abs_of_pos hc, div_le_one hc]
    exact abs_le_of_sq_le_sq (by nlinarith [sq_nonneg x]) hc.le
  obtain ⟨hlow, hhigh⟩ := abs_le.1 hle
  refine ⟨hle, ?_, ?_⟩
  · rw [Real.cos_arccos hlow hhigh, mul_div_cancel₀ _ hc.ne']
  · have hx : x ^ 2 = c ^ 2 * (1 - (y / c) ^ 2) := by
      field_simp
      linarith
    rw [Real.sin_arccos, ← Real.sqrt_sq_eq_abs x, hx, Real.sqrt_mul (sq_nonneg c),
      Real.sqrt_sq hc.le]

section

variable {hours declination latitude : ℝ}

/-- **The heading of a target.** Away from zenith and poles, altitude and azimuth point at the place
of the target, with the absolute cosine of its declination in the east component. -/
theorem heading_ofHourAngle
    (hzenith : Constant.epsilon ≤
      cos (Trig.toRadians (ofHourAngle hours declination latitude).altitude) *
        cos (Trig.toRadians latitude)) :
    (ofHourAngle hours declination latitude).heading =
      { sky (hourRadians hours) (Trig.toRadians declination) (Trig.toRadians latitude) with
        x := -(|cos (Trig.toRadians declination)| * sin (hourRadians hours)) } := by
  obtain ⟨hcos, hsin⟩ := And.intro (cos_azimuth hours declination latitude)
    (sin_azimuth hours declination latitude)
  have hlength := cos_altitude_sq hours declination latitude
  have hup := sin_altitude hours declination latitude
  have hnonneg := cos_altitude_nonneg hours declination latitude
  set h := hourRadians hours
  set d := Trig.toRadians declination
  set φ := Trig.toRadians latitude
  set c := cos (Trig.toRadians (ofHourAngle hours declination latitude).altitude)
  obtain ⟨hc, hφ⟩ := pos_of_epsilon_le_mul hnonneg hzenith
  have hquotient : (sin d - (sky h d φ).z * sin φ) / (c * cos φ) = (sky h d φ).y / c := by
    rw [sky_north, mul_div_mul_right _ _ hφ.ne']
  obtain ⟨hle, hnorth, hside⟩ := angle_from_north hc hlength
  have hangle : Trig.toRadians (fromNorth hours declination latitude) =
      arccos ((sky h d φ).y / c) := by
    rw [fromNorth, toRadians_triangleAngle hzenith, hup, hquotient]
    rwa [hup, hquotient]
  rw [hangle] at hcos hsin
  have heast : c * sin (Trig.toRadians (ofHourAngle hours declination latitude).azimuth) =
      -(|cos d| * sin h) := by
    have habs : |(sky h d φ).x| = |cos d| * |sin h| := by rw [sky, abs_neg, abs_mul]
    rw [hsin]
    split_ifs with hset
    · rw [mul_neg, hside, habs, abs_of_pos hset]
    · rw [hside, habs, abs_of_nonpos (not_lt.1 hset), mul_neg]
  rw [heading, heast, hcos, hnorth, hup]

/-- The azimuth lies east exactly before the upper meridian. -/
theorem azimuth_side
    (hzenith : Constant.epsilon ≤
      cos (Trig.toRadians (ofHourAngle hours declination latitude).altitude) *
        cos (Trig.toRadians latitude))
    (hdeclination : 0 < cos (Trig.toRadians declination)) :
    0 < sin (Trig.toRadians (ofHourAngle hours declination latitude).azimuth) ↔
      sin (hourRadians hours) < 0 := by
  obtain ⟨hc, -⟩ := pos_of_epsilon_le_mul (cos_altitude_nonneg hours declination latitude) hzenith
  have heast : cos (Trig.toRadians (ofHourAngle hours declination latitude).altitude) *
      sin (Trig.toRadians (ofHourAngle hours declination latitude).azimuth) =
        -(|cos (Trig.toRadians declination)| * sin (hourRadians hours)) :=
    congrArg Vec3.x (heading_ofHourAngle hzenith)
  rw [← mul_pos_iff_of_pos_left hc, heast, abs_of_pos hdeclination, ← mul_neg,
    mul_pos_iff_of_pos_left hdeclination, neg_pos]

end

/-! ## Back to the equator -/

/-- Hour angle and declination of a direction, from its heading. -/
theorem toHourAngle_eq (p : Horizontal ℝ) (latitude : ℝ) :
    let φ := Trig.toRadians latitude
    let d := arcsin (Scalar.clip (p.heading.z * sin φ + p.heading.y * cos φ))
    let west := triangleAngle p.heading.z (sin φ) (sin d) (cos φ * cos d)
    p.toHourAngle latitude =
      (signedHours ((if 0 < sin (Trig.toRadians p.azimuth) then -west else west) / 15),
        Trig.toDegrees d) := by
  have hnorth : cos (Trig.toRadians p.altitude) * cos (Trig.toRadians latitude) *
      cos (Trig.toRadians p.azimuth) = p.heading.y * cos (Trig.toRadians latitude) := by
    rw [heading]
    ring
  simp only [toHourAngle, sin_eq, cos_eq, arcsin_eq, hnorth, lt_eq, zero_eq, decide_eq_true_eq,
    degreesPerHour_eq]
  rfl

/-- The angle from the meridian that the hour angle is made from, for a target in the sky. -/
theorem triangleAngle_sky {hours d φ : ℝ} (hhours : |hours| ≤ 12)
    (hpole : Constant.epsilon ≤ cos φ * cos d) (hφ : cos φ ≠ 0) (hd : cos d ≠ 0) :
    triangleAngle (sky (hourRadians hours) d φ).z (sin φ) (sin d) (cos φ * cos d) =
      |hours| * 15 := by
  have hquotient : ((sky (hourRadians hours) d φ).z - sin φ * sin d) / (cos φ * cos d) =
      cos (hourRadians hours) := by
    rw [sky]
    field_simp
    ring
  have hhalf : |hourRadians hours| ≤ Real.pi := by
    have hpi := Real.pi_pos
    rw [abs_hourRadians, hourRadians_eq]
    nlinarith
  rw [← toDegrees_toRadians (triangleAngle ..),
    toRadians_triangleAngle hpole (hquotient ▸ Real.abs_cos_le_one _), hquotient, ← Real.cos_abs,
    Real.arccos_cos (abs_nonneg _) hhalf, abs_hourRadians, toDegrees_hourRadians]

/-- **Both meridians and the two sides of them:** the sign of the sine, which is zero at `0` and at
`-12`, gives an hour angle back from its absolute value. -/
theorem signedHours_side {hours s : ℝ} (hhours : hours ∈ Set.Ico (-12) 12)
    (hside : 0 < s ↔ sin (hourRadians hours) < 0) :
    signedHours (if 0 < s then -|hours| else |hours|) = hours := by
  have hpi := Real.pi_pos
  rw [hourRadians_eq] at hside
  obtain hneg | hnonneg := lt_or_ge hours 0
  · obtain hlow | hlow := hhours.1.eq_or_lt
    · have hsin : sin (hours * (Real.pi / 12)) = 0 := by
        have hhalf : (-12) * (Real.pi / 12) = -Real.pi := by ring
        rw [← hlow, hhalf, Real.sin_neg, Real.sin_pi, neg_zero]
      have hwest : ¬ 0 < s := by rw [hside, hsin]; exact lt_irrefl 0
      rw [if_neg hwest, ← hlow, abs_neg, abs_of_pos (by norm_num), signedHours_twelve]
    · have hsin : sin (hours * (Real.pi / 12)) < 0 :=
        Real.sin_neg_of_neg_of_neg_pi_lt (by nlinarith) (by nlinarith)
      rw [if_pos (hside.2 hsin), abs_of_neg hneg, neg_neg, signedHours_of_mem hhours]
  · have hsin : 0 ≤ sin (hours * (Real.pi / 12)) :=
      Real.sin_nonneg_of_nonneg_of_le_pi (by positivity) (by nlinarith [hhours.2])
    rw [if_neg (hside.not.2 (not_lt.2 hsin)), abs_of_nonneg hnonneg, signedHours_of_mem hhours]

/-- **Hour angle and declination are recovered.** -/
theorem toHourAngle_ofHourAngle {hours declination latitude : ℝ}
    (hhours : hours ∈ Set.Ico (-12) 12) (hdeclination : declination ∈ Set.Ioo (-90) 90)
    (hzenith : Constant.epsilon ≤
      cos (Trig.toRadians (ofHourAngle hours declination latitude).altitude) *
        cos (Trig.toRadians latitude))
    (hpole : Constant.epsilon ≤ cos (Trig.toRadians latitude) * cos (Trig.toRadians declination)) :
    (ofHourAngle hours declination latitude).toHourAngle latitude = (hours, declination) ∧
      (ofHourAngle hours declination latitude).altitude ∈ Set.Icc (-90) 90 ∧
      (ofHourAngle hours declination latitude).azimuth ∈ Set.Ico 0 360 := by
  refine ⟨?_, ofHourAngle_mem hours declination latitude⟩
  obtain ⟨-, hφ⟩ := pos_of_epsilon_le_mul (cos_altitude_nonneg hours declination latitude) hzenith
  obtain ⟨-, hcosd⟩ := pos_of_epsilon_le_mul hφ.le hpole
  have hside := azimuth_side hzenith hcosd
  have hday : |hours| ≤ 12 := abs_le.2 ⟨hhours.1, hhours.2.le⟩
  rw [toHourAngle_eq, heading_ofHourAngle hzenith]
  set p := ofHourAngle hours declination latitude
  set h := hourRadians hours
  set d := Trig.toRadians declination with hd
  set φ := Trig.toRadians latitude
  have hdec : arcsin (Scalar.clip ((sky h d φ).z * sin φ + (sky h d φ).y * cos φ)) = d := by
    have hpi := Real.pi_pos
    rw [sky_declination, clip_of_abs_le (Real.abs_sin_le_one d), hd, toRadians_eq]
    exact Real.arcsin_sin (by nlinarith [hdeclination.1]) (by nlinarith [hdeclination.2])
  have hback : (if 0 < sin (Trig.toRadians p.azimuth) then -(|hours| * 15) else |hours| * 15) / 15 =
      if 0 < sin (Trig.toRadians p.azimuth) then -|hours| else |hours| := by
    split_ifs <;> ring
  dsimp only
  rw [hdec, triangleAngle_sky hday hpole hφ.ne' hcosd.ne', toDegrees_toRadians, hback,
    signedHours_side hhours hside]

/-- Seen from 60 degrees north, a target 30 degrees from the equator stays away from the zenith. -/
theorem epsilon_le_at_sixty (hours : ℝ) {declination : ℝ}
    (hdeclination : sin (Trig.toRadians declination) = 1 / 2) :
    Constant.epsilon ≤ cos (Trig.toRadians (ofHourAngle hours declination 60).altitude) *
      cos (Trig.toRadians 60) := by
  have hthree : √(3 : ℝ) ^ 2 = 3 := Real.sq_sqrt (by norm_num)
  -- The up component is `√3 / 4 + w / 2`.
  obtain ⟨w, hw⟩ : ∃ w, w = cos (Trig.toRadians declination) * cos (hourRadians hours) := ⟨_, rfl⟩
  have hwle : w ^ 2 ≤ 3 / 4 := by
    have hcos : cos (Trig.toRadians declination) ^ 2 = 3 / 4 := by
      rw [Real.cos_sq', hdeclination]
      norm_num
    rw [hw, mul_pow, hcos]
    nlinarith [Real.cos_sq_le_one (hourRadians hours)]
  have hsq : cos (Trig.toRadians (ofHourAngle hours declination 60).altitude) ^ 2 =
      1 - (√3 / 4 + w / 2) ^ 2 := by
    rw [Real.cos_sq', sin_altitude, sky, toRadians_sixty, hdeclination, Real.sin_pi_div_three,
      Real.cos_pi_div_three, hw]
    ring
  have hhalf : 1 / 2 ≤ cos (Trig.toRadians (ofHourAngle hours declination 60).altitude) := by
    refine (abs_le_of_sq_le_sq' ?_ (cos_altitude_nonneg hours declination 60)).2
    rw [hsq]
    nlinarith [sq_nonneg (√3 / 2 - w)]
  rw [toRadians_sixty, Real.cos_pi_div_three, epsilon_eq]
  linarith

/-- On both meridians and six hours past the upper one. -/
theorem toHourAngle_ofHourAngle_meridians :
    Constant.epsilon ≤ cos (Trig.toRadians (ofHourAngle (-12) 30 60).altitude) *
      cos (Trig.toRadians 60) ∧
    Constant.epsilon ≤ cos (Trig.toRadians 60) * cos (Trig.toRadians 30) ∧
    (ofHourAngle (-12) 30 60).toHourAngle 60 = ((-12 : ℝ), 30) ∧
    (ofHourAngle 0 30 60).toHourAngle 60 = ((0 : ℝ), 30) ∧
    (ofHourAngle 6 30 60).toHourAngle 60 = ((6 : ℝ), 30) := by
  have hzenith (hours : ℝ) := epsilon_le_at_sixty hours (toRadians_thirty ▸ Real.sin_pi_div_six)
  have hpole : Constant.epsilon ≤ cos (Trig.toRadians 60) * cos (Trig.toRadians 30) := by
    have hone : 1 ≤ √(3 : ℝ) := Real.one_le_sqrt.2 (by norm_num)
    rw [toRadians_sixty, toRadians_thirty, Real.cos_pi_div_three, Real.cos_pi_div_six, epsilon_eq]
    linarith
  have hback (hours : ℝ) (hday : hours ∈ Set.Ico (-12) 12) :=
    (toHourAngle_ofHourAngle hday (by norm_num) (hzenith hours) hpole).1
  exact ⟨hzenith (-12), hpole, hback (-12) (by norm_num), hback 0 (by norm_num),
    hback 6 (by norm_num)⟩

end Horizontal

end Aperture
