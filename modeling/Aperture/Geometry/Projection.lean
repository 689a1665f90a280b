import Aperture.Geometry.Horizontal
import Aperture.Vec3

/-!
# Projections

A displacement on the Earth as seen from the target: two components across the line of sight and
one along it, all three divided by the sine of the elevation of the target.

* `equatorial` starts from Earth-fixed axes and the Greenwich hour angle.
* `horizontal` starts from the east, north and up of a site and the pointing there.

At or below the horizon the sine is replaced by a small positive number, which pushes the
projection far out instead of dividing by zero.
-/

namespace Aperture.Projection

open Scalar Trig

variable {R : Type} [Scalar R] [Trig R]

/-- One over the sine of an altitude in degrees, the sine being at least `Constant.epsilon`. -/
def foreshortening (altitude : R) : R :=
  one / greatest (sin (toRadians altitude)) Constant.epsilon

/-- Projection of an Earth-fixed displacement for a target at a Greenwich hour angle in hours. -/
def equatorial (v : Vec3 R) (hours declination altitude : R) : Vec3 R :=
  let h := toRadians (hours * Constant.degreesPerHour)
  let d := toRadians declination
  Vec3.scale (foreshortening altitude)
    ⟨sin h * v.x + cos h * v.y,
      -sin d * cos h * v.x + sin d * sin h * v.y + cos d * v.z,
      cos d * cos h * v.x - cos d * sin h * v.y + sin d * v.z⟩

/-- Projection of a local displacement for a pointing. -/
def horizontal (v : Vec3 R) (pointing : Horizontal R) : Vec3 R :=
  let a := toRadians pointing.altitude
  let z := toRadians pointing.azimuth
  Vec3.scale (foreshortening pointing.altitude)
    ⟨v.x * cos z - v.y * sin z,
      -v.x * sin a * sin z - v.y * sin a * cos z + v.z * cos a,
      v.x * cos a * sin z + v.y * cos a * cos z + v.z * sin a⟩

end Aperture.Projection
