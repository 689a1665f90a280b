import Aperture.Constant

/-!
# Sidereal time

The rotation of the Earth against the sky, in hours. Greenwich sidereal time runs linearly from
its value at the J2000 epoch, and the longitude of a site is added to it.

* `dayHours` brings an hour count into `[0, 24)`.
* `localSiderealTime` is the sidereal time of a site.
-/

namespace Aperture

open Scalar

variable {R : Type} [Scalar R]

/-- The hours past the last full turn, in `[0, 24)`. A remainder that rounding lifted to a full
turn counts as zero. -/
def dayHours (hours : R) : R :=
  let wrapped := modulo hours (ofNat 24)
  if le (ofNat 24) wrapped then zero else wrapped

/-- Sidereal time at Greenwich, not wrapped. -/
def greenwichSiderealTime (seconds : R) : R :=
  Constant.siderealOrigin + ofNat 24 * seconds / Constant.siderealDay

/-- Sidereal time in hours at a longitude in degrees east, `seconds` after J2000. -/
def localSiderealTime (seconds longitude : R) : R :=
  dayHours (greenwichSiderealTime seconds + longitude / Constant.degreesPerHour)

end Aperture
