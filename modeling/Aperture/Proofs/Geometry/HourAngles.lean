import Aperture.Proofs.Binary64.Remainder
import Aperture.Proofs.Exact.Hours
import Aperture.Proofs.Plot.Frames

/-!
# Hour angles

Where a target stands in the sky of a site is said by its hour angle, and that by the rotation of
the Earth: the sidereal time at Greenwich, the longitude and the right ascension. A moving pointing
takes the hour angle at each station (`Baseline.localHourAngle`), a fixed one that at Greenwich
(`Baseline.greenwichHourAngle`).

**Theorem (`hourAngles_are_residues`).** Over a field hour angles are residues modulo 24 of the sum
of these, so the two pointings look at the same rotation. Sidereal times stay in `[0, 24)` and hour
angles in `[-12, 12)` over a field with any remainder in `[0, 24]`, and on words, where rounding
makes a remainder 24 (`Binary64.dayHours_mem`, `Binary64.signedHours_mem`).
-/

namespace Aperture

/-! ## Words -/

namespace Binary64

open Scalar (ofNat zero)

/-- Finite hours are brought into `[0, 24)`. -/
theorem dayHours_mem {hours : Binary64} (h : hours.isFinite) :
    Scalar.le zero (dayHours hours) ∧ Scalar.lt (dayHours hours) (ofNat 24) := by
  obtain ⟨hfinite, hlow, -⟩ :=
    modulo_mem (m := ofNat 24) h (by decide +kernel) (by decide +kernel)
  unfold dayHours
  dsimp only
  split_ifs with hfull
  · decide +kernel
  · exact ⟨hlow, lt_of_not_le (isNaN_of_isFinite hfinite) (by decide +kernel) hfull⟩

/-- Hours that are finite twelve hours later are brought into `[-12, 12)`. -/
theorem signedHours_mem {hours : Binary64} (h : (hours + ofNat 12).isFinite) :
    Scalar.le (-ofNat 12) (signedHours hours) ∧ Scalar.lt (signedHours hours) (ofNat 12) := by
  obtain ⟨hfinite, hlow, -⟩ :=
    modulo_mem (m := ofNat 24) h (by decide +kernel) (by decide +kernel)
  obtain ⟨hbelow, -, -⟩ := sub_mem (y := ofNat 12) hfinite (by decide +kernel) hlow
    (by decide +kernel)
  unfold signedHours
  dsimp only
  split_ifs with hfull
  · decide +kernel
  · exact ⟨hbelow, lt_of_not_le (isNaN_of_le hbelow) (by decide +kernel) hfull⟩

end Binary64

/-! ## Pointings -/

namespace Baseline

open Scalar (ofNat zero)

variable {R : Type} [Scalar R]

/-- Hour angle of the target at a station. -/
def localHourAngle (b : Baseline R) (t : R) (v : View R) (s : Station R) : R :=
  hourAngle (localSiderealTime t (s.latitudeLongitude v.reference).2) b.target.rightAscension

/-- Hour angle of the target at Greenwich. -/
def greenwichHourAngle (b : Baseline R) (t : R) : R :=
  hourAngle (localSiderealTime t zero) b.target.rightAscension

variable [Trig R] (b : Baseline R) (t : R) (v : View R)

/-- A moving pointing is made of the local hour angles of the members. -/
theorem pointing_pointAt : (b.pointAt t v).pointing = (b.stations v).map fun s =>
    .ofHourAngle (b.localHourAngle t v s) b.target.declination
      (s.latitudeLongitude v.reference).1 := rfl

/-- A fixed pointing is made of the hour angle at Greenwich, up to the altitude that the projection
is foreshortened by. -/
theorem exists_project_unpoint : ∃ altitude, ∀ p, b.unpoint.project p t v =
    Projection.equatorial p (b.greenwichHourAngle t) b.target.declination altitude :=
  ⟨_, fun _ => rfl⟩

end Baseline

/-! ## Residues -/

open Exact
open Scalar (ofNat zero)

variable {K : Type} [Field K] [LinearOrder K] [FloorRing K] [IsStrictOrderedRing K]

theorem Baseline.localHourAngle_modEq (b : Baseline K) (t : K) (v : View K) (s : Station K) :
    b.localHourAngle t v s ≡
      b.greenwichHourAngle t + (s.latitudeLongitude v.reference).2 / 15 [PMOD 24] := by
  rw [greenwichHourAngle, zero_eq]
  exact hourAngle_modEq_greenwich ..

variable [Trig K]

/-- **Hour angles are residues.** Over a field with a floor and any circle functions:

* Sidereal times lie in `[0, 24)` and hour angles in `[-12, 12)`.
* The hour angle at a site is, modulo 24, the sidereal time at Greenwich and the longitude in hours
  less the right ascension. So it is the same after whole sidereal days, whole turns around the
  Earth and whole days of right ascension.
* The hour angles that a moving pointing is made of are, modulo 24, the one at Greenwich that a
  fixed pointing is made of and the longitudes in hours.
* The comparisons behind the remainders never act. With any other remainders in `[0, 24]` the
  intervals are kept as well, because the comparisons turn one that is 24 into the left end.
* On words, whose remainders may be 24 by rounding, the intervals are kept by all finite hours. -/
theorem hourAngles_are_residues :
    (∀ t longitude : K, localSiderealTime t longitude ∈ Set.Ico 0 24) ∧
    (∀ siderealTime rightAscension : K,
      hourAngle siderealTime rightAscension ∈ Set.Ico (-12) 12) ∧
    (∀ t longitude rightAscension : K,
      hourAngle (localSiderealTime t longitude) rightAscension ≡
        Constant.siderealOrigin + 24 * t / Constant.siderealDay + longitude / 15 - rightAscension
          [PMOD 24]) ∧
    (∀ (t longitude rightAscension : K) (days turns circuits : ℤ),
      localSiderealTime (t + days * Constant.siderealDay) (longitude + turns * 360) =
        localSiderealTime t longitude ∧
      hourAngle (localSiderealTime (t + days * Constant.siderealDay) (longitude + turns * 360))
        (rightAscension + circuits * 24) =
          hourAngle (localSiderealTime t longitude) rightAscension) ∧
    (∀ (b : Baseline K) (t : K) (v : View K),
      (b.pointAt t v).pointing = (b.stations v).map (fun s =>
        .ofHourAngle (b.localHourAngle t v s) b.target.declination
          (s.latitudeLongitude v.reference).1) ∧
      (∃ altitude, ∀ p, b.unpoint.project p t v = Projection.equatorial p
        (b.greenwichHourAngle t) b.target.declination altitude) ∧
      ∀ s, b.localHourAngle t v s ≡
        b.greenwichHourAngle t + (s.latitudeLongitude v.reference).2 / 15 [PMOD 24]) ∧
    (∀ hours : K, dayHours hours = Scalar.modulo hours 24 ∧
      signedHours hours = Scalar.modulo (hours + 12) 24 - 12) ∧
    (∀ f : K → K → K, (∀ x, f x 24 ∈ Set.Icc 0 24) →
      (∀ t longitude, @localSiderealTime K (withRemainder f) t longitude ∈ Set.Ico 0 24) ∧
      (∀ siderealTime rightAscension,
        @hourAngle K (withRemainder f) siderealTime rightAscension ∈ Set.Ico (-12) 12) ∧
      ∀ hours, (f hours 24 = 24 → @dayHours K (withRemainder f) hours = 0) ∧
        (f (hours + 12) 24 = 24 → @signedHours K (withRemainder f) hours = -12)) ∧
    (∀ t longitude : Binary64,
      (greenwichSiderealTime t + longitude / Constant.degreesPerHour).isFinite →
        Scalar.le zero (localSiderealTime t longitude) ∧
        Scalar.lt (localSiderealTime t longitude) (ofNat 24)) ∧
    (∀ siderealTime rightAscension : Binary64,
      (siderealTime - rightAscension + ofNat 12).isFinite →
        Scalar.le (-ofNat 12) (hourAngle siderealTime rightAscension) ∧
        Scalar.lt (hourAngle siderealTime rightAscension) (ofNat 12)) := by
  refine ⟨fun t longitude => dayHours_mem _, fun siderealTime rightAscension => signedHours_mem _,
    fun t longitude rightAscension => ?_, fun t longitude rightAscension days turns circuits => ?_,
    fun b t v => ⟨b.pointing_pointAt t v, b.exists_project_unpoint t v, b.localHourAngle_modEq t v⟩,
    fun hours => ⟨dayHours_eq_modulo hours, signedHours_eq_modulo hours⟩, fun f hf => ⟨?_, ?_, ?_⟩,
    fun t longitude h => Binary64.dayHours_mem h,
    fun siderealTime rightAscension h => Binary64.signedHours_mem h⟩
  · have hresidue := hourAngle_modEq t longitude rightAscension
    rwa [greenwichSiderealTime, ofNat_eq, Nat.cast_ofNat] at hresidue
  · have hday := localSiderealTime_add t longitude days turns
    exact ⟨hday, by rw [hday, hourAngle_add]⟩
  · exact fun t longitude => dayHours_withRemainder_mem (hf _)
  · exact fun siderealTime rightAscension => signedHours_withRemainder_mem (hf _)
  · exact fun hours => ⟨dayHours_withRemainder_of_full, signedHours_withRemainder_of_full⟩

/-- Both wraps act at a time long before the epoch. Station "b", east of Greenwich, sees the target
past its lower culmination when Greenwich does not yet. A remainder that is 24, of a function that
rounds or of rounded words, becomes the left end of its interval. -/
theorem hourAngles_are_residues_wrapped :
    let round (x m : ℚ) : ℚ :=
      if m - Scalar.modulo x m < 1 / 10 ^ 15 then m else Scalar.modulo x m
    let moment : Binary64 := ⟨0xc0f0636c2eae9de1⟩
    let longitude : Binary64 := ⟨0xbbc79ca10c924223⟩
    let rightAscension : Binary64 := ⟨0x4028000000000001⟩
    localSiderealTime (-500000000 : ℚ) (-170) = 879728030527909499 / 86164090500000000 ∧
    hourAngle (localSiderealTime (-500000000 : ℚ) (-170)) 23 =
      965892121027909499 / 86164090500000000 ∧
    (965892121027909499 / 86164090500000000 : ℚ) ≡
      Constant.siderealOrigin + 24 * -500000000 / Constant.siderealDay + -170 / 15 - 23 [PMOD 24] ∧
    hourAngle (localSiderealTime (-500000000 + (7 : ℤ) * Constant.siderealDay : ℚ)
      (-170 + (-2 : ℤ) * 360)) (23 + (3 : ℤ) * 24) = 965892121027909499 / 86164090500000000 ∧
    (∃ b ∈ (Network.mixed.configured Plan.hourly).baselines.toList,
      ∃ s ∈ b.stations Network.mixed.view, s.name = "b" ∧
      0 < b.greenwichHourAngle 51300 ∧ b.localHourAngle 51300 Network.mixed.view s < 0 ∧
      b.localHourAngle 51300 Network.mixed.view s ≡ b.greenwichHourAngle 51300 + 1 / 15
        [PMOD 24]) ∧
    @dayHours ℚ (withRemainder round) (-1 / 10 ^ 20) = 0 ∧
    @signedHours ℚ (withRemainder round) (-12 - 1 / 10 ^ 20) = -12 ∧
    localSiderealTime moment longitude = zero ∧
    Scalar.lt (localSiderealTime moment longitude) (ofNat 24) ∧
    hourAngle zero rightAscension = -ofNat 12 ∧
    Scalar.lt (hourAngle zero rightAscension) (ofNat 12) := by
  intro round moment longitude rightAscension
  obtain ⟨-, -, hresidue, hperiodic, hpointing, -, hremainder, hday, hsigned⟩ :=
    hourAngles_are_residues (K := ℚ)
  have hangle : hourAngle (localSiderealTime (-500000000 : ℚ) (-170)) 23 =
      965892121027909499 / 86164090500000000 := by decide +kernel
  have hround : ∀ x, round x 24 ∈ Set.Icc 0 24 := fun x => by
    obtain ⟨hlow, hhigh⟩ := modulo_mem x (m := 24) (by norm_num)
    simp only [round]
    split_ifs
    · norm_num
    · exact ⟨hlow, hhigh.le⟩
  obtain ⟨-, -, hfull⟩ := hremainder round hround
  refine ⟨by decide +kernel, hangle, ?_, ?_, ?_, (hfull _).1 (by decide +kernel),
    (hfull _).2 (by decide +kernel), by decide +kernel, ?_, by decide +kernel, ?_⟩
  · exact hangle ▸ hresidue (-500000000) (-170) 23
  · exact (hperiodic (-500000000) (-170) 23 7 (-2) 3).2.trans hangle
  · obtain ⟨b, hb, s, hs, hname, hgreenwich, hlocal, hlongitude⟩ :
        ∃ b ∈ (Network.mixed.configured Plan.hourly).baselines.toList,
          ∃ s ∈ b.stations Network.mixed.view, s.name = "b" ∧
          0 < b.greenwichHourAngle 51300 ∧ b.localHourAngle 51300 Network.mixed.view s < 0 ∧
          (s.latitudeLongitude Network.mixed.view.reference).2 = 1 := by decide +kernel
    refine ⟨b, hb, s, hs, hname, hgreenwich, hlocal, ?_⟩
    exact hlongitude ▸ (hpointing b 51300 Network.mixed.view).2.2 s
  · exact (hday moment longitude (by decide +kernel)).2
  · exact (hsigned zero rightAscension (by decide +kernel)).2

end Aperture
