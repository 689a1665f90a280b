import Aperture.Constant
import Aperture.Vec3

/-!
# The Earth

Positions on the Earth and the frames they are expressed in.

* Earth-fixed axes: `x` toward latitude 0 and longitude 0, `y` toward longitude 90 east, `z` toward
  the north pole. The radius of the Earth follows the latitude.
* Local axes of a site: east, north and up.
-/

namespace Aperture.Earth

open Scalar Trig

variable {R : Type} [Scalar R] [Trig R]

/-- Distance from the center at a latitude in radians: the polar radius, and the excess of the
equatorial one weighted with the cosine. -/
def radius (latitude elevation : R) : R :=
  let excess := Constant.equatorialRadius - Constant.polarRadius
  Constant.polarRadius + excess * Scalar.abs (cos latitude) + elevation

/-- Earth-fixed position of a latitude, a longitude and an elevation. -/
def position (latitude longitude elevation : R) : Vec3 R :=
  let lat := toRadians latitude
  let lon := toRadians longitude
  let r := radius lat elevation
  ⟨r * cos lat * cos lon, r * cos lat * sin lon, r * sin lat⟩

/-- An Earth-fixed displacement along the east, north and up of a site. -/
def toLocal (v : Vec3 R) (latitude longitude : R) : Vec3 R :=
  let lat := toRadians latitude
  let lon := toRadians longitude
  ⟨-sin lon * v.x + cos lon * v.y,
    -sin lat * cos lon * v.x - sin lat * sin lon * v.y + cos lat * v.z,
    cos lat * cos lon * v.x + cos lat * sin lon * v.y + sin lat * v.z⟩

end Aperture.Earth
