import Aperture.Failure
import Aperture.Geometry.Earth

/-!
# Locations

Where samples were recorded: a geographic position, or an offset from the reference of the array.

Only finite coordinates and latitudes in `[-90, 90]` make a location.
-/

namespace Aperture

open Scalar

/-- A place of recording. -/
inductive Location (R : Type) where
  /-- Latitude and longitude in degrees, east positive, and elevation in meters. -/
  | geographic (latitude longitude elevation : R)
  /-- Offset in meters from the reference, along Earth-fixed axes. -/
  | relative (x y z : R)
deriving DecidableEq

namespace Location

variable {R : Type}

/-- Whether the location is an offset from the reference. -/
def isRelative : Location R → Bool
  | geographic .. => false
  | relative .. => true

variable [Scalar R]

/-- Latitude and longitude zero at sea level. -/
def origin : Location R := .geographic zero zero zero

/-- Equal as numbers, coordinate by coordinate. -/
def same : Location R → Location R → Bool
  | geographic a b c, geographic d e f => eq a d && eq b e && eq c f
  | relative a b c, relative d e f => eq a d && eq b e && eq c f
  | _, _ => false

/-! ## Building a location -/

/-- Three coordinates in parentheses. -/
def triple [Legible R] (a b c : R) : String :=
  "(" ++ Legible.text a ++ ", " ++ Legible.text b ++ ", " ++ Legible.text c ++ ")"

/-- A geographic location, when the coordinates are finite and the latitude exists. -/
def ofGeographic [Legible R] (latitude longitude elevation : R) : Result (Location R) :=
  if !(isFinite latitude && isFinite longitude && isFinite elevation) then
    fail (.invalidLocation
      ("non finite coordinates " ++ triple latitude longitude elevation))
  else if !within (-ofNat 90) (ofNat 90) latitude then
    fail (.invalidLocation ("latitude " ++ Legible.text latitude ++ " outside [-90, 90]"))
  else .ok (.geographic latitude longitude elevation)

/-- An offset from the reference, when it is finite. -/
def ofOffset [Legible R] (x y z : R) : Result (Location R) :=
  if isFinite x && isFinite y && isFinite z then .ok (.relative x y z)
  else fail (.invalidLocation ("non finite offset " ++ triple x y z))

/-! ## Places on the Earth -/

variable [Trig R]

/-- Earth-fixed position of a location that stands on its own: an offset is taken as it is. -/
def anchor : Location R → Vec3 R
  | geographic latitude longitude elevation => Earth.position latitude longitude elevation
  | relative x y z => ⟨x, y, z⟩

/-- Earth-fixed position. An offset is added to the position of the reference. -/
def position (l reference : Location R) : Vec3 R :=
  match l with
  | geographic latitude longitude elevation => Earth.position latitude longitude elevation
  | relative x y z => reference.anchor + ⟨x, y, z⟩

/-- Latitude and longitude for pointing. An offset has those of the reference. -/
def latitudeLongitude : Location R → Location R → R × R
  | geographic latitude longitude _, _ => (latitude, longitude)
  | relative .., geographic latitude longitude _ => (latitude, longitude)
  | relative .., relative .. => (zero, zero)

end Location

end Aperture
