import Aperture.Proofs.Geometry.Additive
import Aperture.Proofs.Geometry.Horizon

/-!
# Fixed and moving pointing

A baseline that is not pointed is projected from Greenwich, with the hour angle there; a pointed one
at its first member, with the altitude and azimuth there. Over the reals both are rotations, so they
keep lengths and differ at most in the direction that they look along.

* From Greenwich this is the direction of the target (`Projection.axis`), and turned into the east,
  north and up of a site it is the place of the target in the sky there (`toLocal_axis`).
* At the first member it is the heading of the recovered altitude and azimuth, which has the
  *absolute* cosine of the declination in its east component
  (`Horizontal.heading_ofHourAngle`).

**Theorem (`pointings_share_sky`).** Away from zenith and poles the two pointings have the same
delay, and the same distance from the origin of the plane, for every declination in `[-90, 90]`; in
general exactly when the cosine of the declination is not negative, or the target is on the
meridian, or the baseline does not extend east.
-/

namespace Aperture

open Exact
open Real (sin cos)

/-! ## Lengths -/

/-- The inner product. -/
def Vec3.dot (p q : Vec3 ℝ) : ℝ := p.x * q.x + p.y * q.y + p.z * q.z

theorem Vec3.dot_with_x (p q : Vec3 ℝ) (x : ℝ) :
    p.dot { q with x } = p.dot q + p.x * (x - q.x) := by
  simp only [dot]
  ring

theorem Vec3.norm_eq (p : Vec3 ℝ) : p.norm = √(p.dot p) := rfl

theorem Vec3.dot_scale_self (k : ℝ) (p : Vec3 ℝ) :
    (scale k p).dot (scale k p) = k ^ 2 * p.dot p := by
  simp only [dot, scale]
  ring

/-- Local axes are orthonormal. -/
theorem Earth.dot_toLocal (p q : Vec3 ℝ) (latitude longitude : ℝ) :
    (toLocal p latitude longitude).dot (toLocal q latitude longitude) = p.dot q := by
  simp only [toLocal, Vec3.dot, sin_eq, cos_eq]
  linear_combination
    (p.x * q.x + p.y * q.y) * Real.sin_sq_add_cos_sq (Trig.toRadians longitude) +
      ((p.x * cos (Trig.toRadians longitude) + p.y * sin (Trig.toRadians longitude)) *
        (q.x * cos (Trig.toRadians longitude) + q.y * sin (Trig.toRadians longitude)) +
          p.z * q.z) * Real.sin_sq_add_cos_sq (Trig.toRadians latitude)

theorem Earth.norm_toLocal (p : Vec3 ℝ) (latitude longitude : ℝ) :
    (toLocal p latitude longitude).norm = p.norm := by
  rw [Vec3.norm_eq, dot_toLocal, Vec3.norm_eq]

namespace Projection

theorem foreshortening_eq (altitude : ℝ) :
    foreshortening altitude = (max (sin (Trig.toRadians altitude)) Constant.epsilon)⁻¹ := by
  rw [foreshortening, greatest_eq, one_eq, one_div]
  rfl

theorem foreshortening_pos (altitude : ℝ) : 0 < foreshortening altitude := by
  rw [foreshortening_eq]
  exact inv_pos.2 (lt_max_of_lt_right epsilon_pos)

/-! ## Looking along a direction -/

/-- Earth-fixed direction of a target at a Greenwich hour angle. -/
noncomputable def axis (hours declination : ℝ) : Vec3 ℝ :=
  let h := hourRadians hours
  let d := Trig.toRadians declination
  ⟨cos d * cos h, -(cos d * sin h), sin d⟩

theorem equatorial_z (p : Vec3 ℝ) (hours declination altitude : ℝ) :
    (equatorial p hours declination altitude).z =
      p.dot (axis hours declination) * foreshortening altitude := by
  simp only [equatorial, Vec3.scale, Vec3.dot, axis, hourRadians, sin_eq, cos_eq]
  ring

theorem horizontal_z (p : Vec3 ℝ) (q : Horizontal ℝ) :
    (horizontal p q).z = p.dot q.heading * foreshortening q.altitude := by
  simp only [horizontal, Vec3.scale, Vec3.dot, Horizontal.heading, sin_eq, cos_eq]
  ring

/-- Both projections are rotations before they are foreshortened. -/
theorem dot_equatorial (p : Vec3 ℝ) (hours declination altitude : ℝ) :
    (equatorial p hours declination altitude).dot (equatorial p hours declination altitude) =
      foreshortening altitude ^ 2 * p.dot p := by
  rw [equatorial, Vec3.dot_scale_self]
  set h := Trig.toRadians (hours * Constant.degreesPerHour)
  set d := Trig.toRadians declination
  simp only [Vec3.dot, sin_eq, cos_eq]
  linear_combination foreshortening altitude ^ 2 *
    (((cos h * p.x - sin h * p.y) ^ 2 + p.z ^ 2) * Real.sin_sq_add_cos_sq d +
      (p.x ^ 2 + p.y ^ 2) * Real.sin_sq_add_cos_sq h)

/-- Azimuths count from north through east and hour angles toward the west, so the one projection
is the other one with north and east exchanged. -/
theorem horizontal_eq (p : Vec3 ℝ) (q : Horizontal ℝ) :
    horizontal p q = equatorial ⟨p.y, p.x, p.z⟩ (-q.azimuth / 15) q.altitude q.altitude := by
  have hturn : Trig.toRadians (-q.azimuth / 15 * Constant.degreesPerHour) =
      -Trig.toRadians q.azimuth := by
    rw [degreesPerHour_eq, div_mul_cancel₀ _ (by norm_num), toRadians_eq, toRadians_eq, neg_mul]
  simp only [horizontal, equatorial, Vec3.scale, sin_eq, cos_eq, hturn, Real.sin_neg, Real.cos_neg]
  ext <;> ring

theorem dot_horizontal (p : Vec3 ℝ) (q : Horizontal ℝ) :
    (horizontal p q).dot (horizontal p q) = foreshortening q.altitude ^ 2 * p.dot p := by
  rw [horizontal_eq, dot_equatorial]
  simp only [Vec3.dot]
  ring

/-- **A projection keeps lengths,** apart from the foreshortening. -/
theorem norm_of_dot {p q : Vec3 ℝ} {altitude : ℝ}
    (h : q.dot q = foreshortening altitude ^ 2 * p.dot p) :
    q.norm * max (sin (Trig.toRadians altitude)) Constant.epsilon = p.norm := by
  have hpos : 0 < max (sin (Trig.toRadians altitude)) (Constant.epsilon : ℝ) :=
    lt_max_of_lt_right epsilon_pos
  rw [Vec3.norm_eq, h, Real.sqrt_mul (sq_nonneg _), Real.sqrt_sq (foreshortening_pos _).le,
    Vec3.norm_eq, foreshortening_eq, mul_right_comm, inv_mul_cancel₀ hpos.ne', one_mul]

end Projection

/-! ## The place of the target -/

/-- The direction of a target from Greenwich, along the local axes of a site. -/
theorem Earth.toLocal_axis {hours declination latitude longitude h : ℝ}
    (hangle : (h : Real.Angle) = (hourRadians hours + Trig.toRadians longitude : ℝ)) :
    toLocal (Projection.axis hours declination) latitude longitude =
      sky h (Trig.toRadians declination) (Trig.toRadians latitude) := by
  have hsin : sin h = sin (hourRadians hours + Trig.toRadians longitude) := by
    rw [← Real.Angle.sin_coe, hangle, Real.Angle.sin_coe]
  have hcos : cos h = cos (hourRadians hours + Trig.toRadians longitude) := by
    rw [← Real.Angle.cos_coe, hangle, Real.Angle.cos_coe]
  rw [sky, hsin, hcos, Real.sin_add, Real.cos_add]
  simp only [toLocal, Projection.axis, sin_eq, cos_eq]
  ext <;> ring

/-! ## The plane -/

/-- The same delay, and the same distance from the origin of the plane. -/
def Uv.SameSky (p q : Uv ℝ) : Prop := p.delay = q.delay ∧ p.u ^ 2 + p.v ^ 2 = q.u ^ 2 + q.v ^ 2

theorem Uv.delay_eq_iff (p q : Vec3 ℝ) (wavelength : ℝ) :
    (ofProjection p wavelength).delay = (ofProjection q wavelength).delay ↔ p.z = q.z := by
  have hlight : (Constant.speedOfLight : ℝ) ≠ 0 := by
    rw [Constant.speedOfLight, ofNat_eq]
    norm_num
  exact div_left_inj' hlight

/-- Of projections that are equally long, the delays decide. -/
theorem Uv.sameSky_iff {p q : Vec3 ℝ} (hlength : p.dot p = q.dot q) (wavelength : ℝ) :
    (ofProjection p wavelength).SameSky (ofProjection q wavelength) ↔
      (ofProjection p wavelength).delay = (ofProjection q wavelength).delay := by
  refine and_iff_left_of_imp fun hdelay => ?_
  have hacross : p.x ^ 2 + p.y ^ 2 = q.x ^ 2 + q.y ^ 2 := by
    simp only [Vec3.dot, (delay_eq_iff p q wavelength).1 hdelay] at hlength
    linarith
  simp only [ofProjection, mul_pow, ← add_mul, hacross]

namespace Baseline

variable {b : Baseline ℝ} {v : View ℝ} {s : Station ℝ}

/-! ## Projections of a baseline -/

/-- Where the first member sees the target. -/
noncomputable def seen (b : Baseline ℝ) (t : ℝ) (v : View ℝ) (s : Station ℝ) : Horizontal ℝ :=
  let place := s.latitudeLongitude v.reference
  Horizontal.ofEquatorial t b.target.rightAscension b.target.declination place.1 place.2

/-- A displacement along the local axes of the first member. -/
noncomputable def atFirst (s : Station ℝ) (v : View ℝ) (p : Vec3 ℝ) : Vec3 ℝ :=
  Earth.toLocal p (s.latitudeLongitude v.reference).1 (s.latitudeLongitude v.reference).2

theorem project_pointAt (hfirst : b.members.head?.bind v.station? = some s) (p : Vec3 ℝ) (t : ℝ) :
    (b.pointAt t v).project p t v = Projection.horizontal (atFirst s v p) (b.seen t v s) := by
  obtain ⟨slot, hslot, hs⟩ := Option.bind_eq_some_iff.1 hfirst
  obtain ⟨rest, hmembers⟩ := List.head?_eq_some_iff.1 hslot
  simp [project, pointAt, stations, hmembers, hs, atFirst, seen]

theorem project_unpoint (hfirst : b.members.head?.bind v.station? = some s) (p : Vec3 ℝ) (t : ℝ) :
    b.unpoint.project p t v = Projection.equatorial p
      (hourAngle (localSiderealTime t Scalar.zero) b.target.rightAscension) b.target.declination
      (b.seen t v s).altitude := by
  simp [project, unpoint, hfirst, seen]

/-- **Where the two pointings agree.** -/
theorem delay_pointAt_eq_iff (hfirst : b.members.head?.bind v.station? = some s) (t : ℝ)
    (hzenith : Constant.epsilon ≤ cos (Trig.toRadians (b.seen t v s).altitude) *
      cos (Trig.toRadians (s.latitudeLongitude v.reference).1)) :
    ((b.pointAt t v).observe t v).uv.delay = (b.unpoint.observe t v).uv.delay ↔
      0 ≤ cos (Trig.toRadians b.target.declination) ∨
      sin (hourRadians (hourAngle (localSiderealTime t (s.latitudeLongitude v.reference).2)
        b.target.rightAscension)) = 0 ∨
      (atFirst s v (Group.vector (b.positions v))).x = 0 := by
  set place := s.latitudeLongitude v.reference
  set p := Group.vector (b.positions v)
  set f := Projection.foreshortening (b.seen t v s).altitude
  set h := hourRadians (hourAngle (localSiderealTime t place.2) b.target.rightAscension)
  set d := Trig.toRadians b.target.declination
  have hf : f ≠ 0 := (Projection.foreshortening_pos _).ne'
  have hheading : (b.seen t v s).heading =
      { sky h d (Trig.toRadians place.1) with x := -(|cos d| * sin h) } :=
    Horizontal.heading_ofHourAngle hzenith
  have hmoving : ((b.pointAt t v).project p t v).z =
      ((atFirst s v p).dot (sky h d (Trig.toRadians place.1)) +
        (atFirst s v p).x * (-(|cos d| * sin h) - -(cos d * sin h))) * f := by
    rw [project_pointAt hfirst, Projection.horizontal_z, hheading, Vec3.dot_with_x, sky]
  have hfixed : (b.unpoint.project p t v).z =
      (atFirst s v p).dot (sky h d (Trig.toRadians place.1)) * f := by
    rw [project_unpoint hfirst, Projection.equatorial_z, atFirst,
      ← Earth.toLocal_axis (coe_hourRadians_of_greenwich t place.2 b.target.rightAscension),
      Earth.dot_toLocal]
  -- The east components are those of the absolute cosine and of the cosine itself.
  have heast : -(|cos d| * sin h) - -(cos d * sin h) = 0 ↔ 0 ≤ cos d ∨ sin h = 0 := by
    rw [← abs_eq_self, sub_eq_zero, neg_inj, mul_eq_mul_right_iff]
  refine (Uv.delay_eq_iff _ _ b.wavelength).trans ?_
  show ((b.pointAt t v).project p t v).z = (b.unpoint.project p t v).z ↔ _
  rw [hmoving, hfixed, mul_left_inj' hf, add_eq_left, mul_eq_zero, heast, or_comm, or_assoc]

/-- Fixed and moving pointing of a baseline keep the length of a displacement. -/
theorem project_length (hfirst : b.members.head?.bind v.station? = some s) (p : Vec3 ℝ) (t : ℝ) :
    ((b.pointAt t v).project p t v).dot ((b.pointAt t v).project p t v) =
        Projection.foreshortening (b.seen t v s).altitude ^ 2 * p.dot p ∧
      (b.unpoint.project p t v).dot (b.unpoint.project p t v) =
        Projection.foreshortening (b.seen t v s).altitude ^ 2 * p.dot p := by
  constructor
  · rw [project_pointAt hfirst, Projection.dot_horizontal, atFirst, Earth.dot_toLocal]
  · rw [project_unpoint hfirst, Projection.dot_equatorial]

/-- **Fixed and moving pointing share the sky.** Let the first member of a baseline be there.

* The turn to its local axes and both projections keep lengths, up to the sine of the altitude that
  the projections are divided by.
* Away from zenith and poles the baseline has the same delay, and the same distance from the origin
  of the plane, with either pointing, when the declination lies in `[-90, 90]`. In general it has
  exactly when the cosine of the declination is not negative, or the target is on the meridian, or
  the baseline does not extend east. -/
theorem pointings_share_sky (b : Baseline ℝ) (t : ℝ) (v : View ℝ) {s : Station ℝ}
    (hfirst : b.members.head?.bind v.station? = some s) :
    let place := s.latitudeLongitude v.reference
    let altitude := Trig.toRadians (b.seen t v s).altitude
    let declination := b.target.declination
    let moving := b.pointAt t v
    let fixed := b.unpoint
    (∀ p, (Earth.toLocal p place.1 place.2).norm = p.norm ∧
      (moving.project p t v).norm * max (sin altitude) Constant.epsilon = p.norm ∧
      (fixed.project p t v).norm * max (sin altitude) Constant.epsilon = p.norm) ∧
    (Constant.epsilon ≤ cos altitude * cos (Trig.toRadians place.1) →
      (declination ∈ Set.Icc (-90) 90 →
        (moving.observe t v).uv.SameSky (fixed.observe t v).uv) ∧
      ((moving.observe t v).uv.SameSky (fixed.observe t v).uv ↔
        0 ≤ cos (Trig.toRadians declination) ∨
        sin (hourRadians (hourAngle (localSiderealTime t place.2) b.target.rightAscension)) = 0 ∨
        (Earth.toLocal (Group.vector (b.positions v)) place.1 place.2).x = 0)) := by
  intro place altitude declination moving fixed
  refine ⟨fun p => ⟨Earth.norm_toLocal p place.1 place.2, ?_⟩, fun hzenith => ?_⟩
  · exact (project_length hfirst p t).imp Projection.norm_of_dot Projection.norm_of_dot
  · obtain ⟨hmoving, hfixed⟩ := project_length hfirst (Group.vector (b.positions v)) t
    have hsame := (Uv.sameSky_iff (hmoving.trans hfixed.symm) b.wavelength).trans
      (delay_pointAt_eq_iff hfirst t hzenith)
    exact ⟨fun hdeclination => hsame.2 (.inl (cos_toRadians_nonneg hdeclination)), hsame⟩

end Baseline

/-! ## A pair of stations -/

/-- The station at 60 degrees north that the other one is placed from. -/
noncomputable def Station.northern : Station ℝ where
  name := "a"
  index := 0
  recording := { Cube.ofSamples #[1] with location := .geographic 60 0 0 }

/-- The station with another one 100 meters east of it. -/
noncomputable def View.northern : View ℝ where
  stations := .ofList [.northern, { Station.northern with
    name := "b", index := 1
    recording := { Cube.ofSamples #[1] with location := .relative 0 100 0 } }]
  reference := .geographic 60 0 0
  frame := .geographic

/-- The baseline of the two. At J2000 its target has crossed the meridian for six hours. -/
noncomputable def Baseline.northern (declination : ℝ) : Baseline ℝ where
  name := "a_b"
  members := [0, 1]
  locked := none
  target := ⟨Constant.siderealOrigin - 6, declination, 0⟩
  wavelength := 1
  rate := 1
  correlator := .product
  vector := .zero
  uv := .zero
  pointing := []

namespace Baseline

theorem northern_first (declination : ℝ) :
    (northern declination).members.head?.bind View.northern.station? = some .northern := rfl

theorem northern_east (declination : ℝ) :
    (Earth.toLocal (Group.vector ((northern declination).positions .northern)) 60 0).x = 100 := by
  have hpositions : (northern declination).positions .northern =
      [Earth.position 60 0 0, Earth.position 60 0 0 + ⟨0, 100, 0⟩] := rfl
  have hzero : Trig.toRadians (0 : ℝ) = 0 := by rw [toRadians_eq, zero_mul]
  rw [hpositions, Group.vector_pair]
  simp [Earth.toLocal, hzero, Vec3.zero]

theorem northern_hourAngle (declination : ℝ) : sin (hourRadians (hourAngle (localSiderealTime 0 0)
    (northern declination).target.rightAscension)) = 1 := by
  have horigin : greenwichSiderealTime (0 : ℝ) = Constant.siderealOrigin := by
    simp [greenwichSiderealTime]
  have hquarter : hourRadians (greenwichSiderealTime 0) + Trig.toRadians 0 -
      hourRadians (northern declination).target.rightAscension = Real.pi / 2 := by
    rw [horigin, northern, hourRadians_eq, hourRadians_eq, toRadians_eq]
    ring
  rw [← Real.Angle.sin_coe, coe_hourRadians_hourAngle, hquarter, Real.Angle.sin_coe,
    Real.sin_pi_div_two]

theorem northern_zenith {declination : ℝ} (h : sin (Trig.toRadians declination) = 1 / 2) :
    Constant.epsilon ≤
      cos (Trig.toRadians ((northern declination).seen 0 .northern .northern).altitude) *
        cos (Trig.toRadians 60) := Horizontal.epsilon_le_at_sixty _ h

/-- A target 30 degrees from the equator, six hours past the meridian of an eastward baseline. -/
theorem pointings_share_sky_northern :
    let b := northern 30
    let v := View.northern
    b.members.head?.bind v.station? = some .northern ∧
    Station.northern.latitudeLongitude v.reference = (60, 0) ∧
    Constant.epsilon ≤ cos (Trig.toRadians (b.seen 0 v .northern).altitude) *
      cos (Trig.toRadians 60) ∧
    (Earth.toLocal (Group.vector (b.positions v)) 60 0).x = 100 ∧
    ((b.pointAt 0 v).observe 0 v).uv.SameSky (b.unpoint.observe 0 v).uv := by
  intro b v
  have hzenith := northern_zenith (toRadians_thirty ▸ Real.sin_pi_div_six)
  have hdeclination : b.target.declination ∈ Set.Icc (-90) 90 := by
    show (30 : ℝ) ∈ _
    norm_num
  obtain ⟨-, hsame⟩ := pointings_share_sky b 0 v (northern_first 30)
  obtain ⟨hsky, -⟩ := hsame hzenith
  exact ⟨rfl, rfl, hzenith, northern_east 30, hsky hdeclination⟩

/-- **Beyond the pole the pointings part.** With a declination of 150 degrees, six hours past the
meridian, the delays of an eastward baseline differ. -/
theorem pointings_part_beyond_pole :
    let b := northern 150
    let v := View.northern
    b.members.head?.bind v.station? = some .northern ∧
    Station.northern.latitudeLongitude v.reference = (60, 0) ∧
    Constant.epsilon ≤ cos (Trig.toRadians (b.seen 0 v .northern).altitude) *
      cos (Trig.toRadians 60) ∧
    ((b.pointAt 0 v).observe 0 v).uv.delay ≠ (b.unpoint.observe 0 v).uv.delay := by
  intro b v
  have hturn : Trig.toRadians (150 : ℝ) = Real.pi - Real.pi / 6 := by rw [toRadians_eq]; ring
  have hsin : sin (Trig.toRadians 150) = 1 / 2 := by
    rw [hturn, Real.sin_pi_sub, Real.sin_pi_div_six]
  have hzenith := northern_zenith hsin
  have hcos : cos (Trig.toRadians 150) < 0 := by
    rw [hturn, Real.cos_pi_sub, Real.cos_pi_div_six, neg_lt_zero]
    positivity
  refine ⟨rfl, rfl, hzenith, fun hdelay => ?_⟩
  obtain hdeclination | hmeridian | heast :=
    (delay_pointAt_eq_iff (northern_first 150) 0 hzenith).1 hdelay
  · exact absurd hcos hdeclination.not_gt
  · exact zero_ne_one (hmeridian.symm.trans (northern_hourAngle 150))
  · exact absurd (heast.symm.trans (northern_east 150)) (by norm_num)

end Baseline

end Aperture
