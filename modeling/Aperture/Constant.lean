import Aperture.Scalar

/-!
# Constants

Physical constants and defaults. Right ascension, hour angle and sidereal time are in **hours**,
every other angle is in **degrees**, lengths are in meters and times in seconds.
-/

namespace Aperture.Constant

open Scalar

variable {R : Type} [Scalar R]

/-! ## Physics -/

/-- Speed of light in vacuum, in meters per second. -/
def speedOfLight : R := ofNat 299792458

def equatorialRadius : R := ofNat 6378137

def polarRadius : R := ofDecimal 63567523 (-1)

/-- Length of the sidereal day in seconds. -/
def siderealDay : R := ofDecimal 861640905 (-4)

/-- Greenwich mean sidereal time at the J2000 epoch, in hours. -/
def siderealOrigin : R := ofDecimal 18697374558 (-9)

/-- First zero of the Airy pattern, in units of wavelength over diameter. -/
def airy : R := ofDecimal 121966 (-5)

def degreesPerHour : R := ofNat 15

/-- Below this a trigonometric denominator counts as zero. -/
def epsilon : R := ofDecimal 1 (-12)

/-! ## Defaults -/

/-- Edge of the image of a run that asks for no other. -/
def imageEdge : Nat := 128

/-- Smallest number of stations that are correlated together. -/
def leastOrder : Nat := 2

end Aperture.Constant
