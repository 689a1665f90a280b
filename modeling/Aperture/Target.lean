import Aperture.Scalar

/-!
# Targets

What an observation points at.
-/

namespace Aperture

/-- An equatorial direction. -/
structure Target (R : Type) where
  /-- Right ascension in hours. -/
  rightAscension : R
  /-- Declination in degrees. -/
  declination : R
  /-- Distance in meters, zero for a source at infinity. -/
  distance : R
deriving DecidableEq, Inhabited

namespace Target

variable {R : Type} [Scalar R]

/-- The target that nothing was said about. -/
def origin : Target R := ⟨Scalar.zero, Scalar.zero, Scalar.zero⟩

/-- Equal as numbers, coordinate by coordinate. -/
def same (a b : Target R) : Bool :=
  Scalar.eq a.rightAscension b.rightAscension && Scalar.eq a.declination b.declination &&
    Scalar.eq a.distance b.distance

def literal [Legible R] (t : Target R) : String :=
  "Target \x7b ra: " ++ Legible.literal t.rightAscension ++ ", dec: " ++
    Legible.literal t.declination ++ ", distance: " ++ Legible.literal t.distance ++ " \x7d"

end Target

end Aperture
