import Aperture.Time.Sidereal

/-!
# Horizontal coordinates

Where in the sky of a site a target stands. Hour angles are in hours, all other angles in degrees;
the azimuth is counted from north through east.

* `hourAngle` is the time since the target crossed the meridian, in `[-12, 12)`.
* `Horizontal.ofHourAngle` and `Horizontal.toHourAngle` convert between hour angle and declination
  on one side, altitude and azimuth on the other.

At the zenith and at the poles a direction is not determined; it is zero there instead of the
result of a division by zero.
-/

namespace Aperture

open Scalar Trig

/-- Altitude and azimuth in degrees. -/
structure Horizontal (R : Type) where
  altitude : R
  azimuth : R
deriving DecidableEq, Inhabited

variable {R : Type} [Scalar R] [Trig R]

/-! ## Hour angles -/

/-- The hours brought into `[-12, 12)`. -/
def signedHours (hours : R) : R :=
  let wrapped := modulo (hours + ofNat 12) (ofNat 24) - ofNat 12
  if le (ofNat 12) wrapped then -ofNat 12 else wrapped

/-- Local hour angle of a right ascension at a sidereal time. -/
def hourAngle (siderealTime rightAscension : R) : R :=
  signedHours (siderealTime - rightAscension)

/-! ## The spherical triangle -/

/-- The angle in degrees opposite to a side, from the sines of that side and the two others and
the product of two cosines; zero when the product vanishes. -/
def triangleAngle (side other third denominator : R) : R :=
  if lt (Scalar.abs denominator) Constant.epsilon then zero
  else toDegrees (arccos (clip ((side - other * third) / denominator)))

namespace Horizontal

/-- Altitude and azimuth of an hour angle and a declination at a latitude. -/
def ofHourAngle (hours declination latitude : R) : Horizontal R :=
  let ha := toRadians (hours * Constant.degreesPerHour)
  let dec := toRadians declination
  let lat := toRadians latitude
  let alt := arcsin (clip (sin dec * sin lat + cos dec * cos lat * cos ha))
  let east := triangleAngle (sin dec) (sin alt) (sin lat) (cos alt * cos lat)
  let azimuth := if lt zero (sin ha) then ofNat 360 - east else east
  ⟨toDegrees alt, modulo azimuth (ofNat 360)⟩

/-- Hour angle in hours and declination in degrees of a direction seen at a latitude. -/
def toHourAngle (h : Horizontal R) (latitude : R) : R × R :=
  let alt := toRadians h.altitude
  let az := toRadians h.azimuth
  let lat := toRadians latitude
  let dec := arcsin (clip (sin alt * sin lat + cos alt * cos lat * cos az))
  let west := triangleAngle (sin alt) (sin lat) (sin dec) (cos lat * cos dec)
  let ha := if lt zero (sin az) then -west else west
  (signedHours (ha / Constant.degreesPerHour), toDegrees dec)

/-- Altitude and azimuth of an equatorial target, `seconds` after J2000, at a site. -/
def ofEquatorial (seconds rightAscension declination latitude longitude : R) : Horizontal R :=
  ofHourAngle (hourAngle (localSiderealTime seconds longitude) rightAscension) declination latitude

end Horizontal

end Aperture
