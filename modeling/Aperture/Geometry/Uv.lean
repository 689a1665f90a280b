import Aperture.Constant
import Aperture.Extent
import Aperture.Vec3

/-!
# The UV plane

A projection scaled to the grid of the image, with its delay, and the image cell it falls into.

The origin of the grid is the cell `(width / 2, height / 2)`. Coordinates are rounded down, not
toward zero, so that the cells along an axis are as wide as all others.
-/

namespace Aperture

open Scalar

/-- A point of the UV plane. -/
structure Uv (R : Type) where
  /-- Spatial frequency east to west, in cells. -/
  u : R
  /-- Spatial frequency north to south, in cells. -/
  v : R
  /-- Delay along the line of sight, in seconds. -/
  delay : R
deriving DecidableEq, Inhabited

variable {R : Type} [Scalar R]

namespace Uv

/-- The origin. -/
def zero : Uv R := ⟨Scalar.zero, Scalar.zero, Scalar.zero⟩

/-- The point of a projection at a wavelength. A wavelength that is not positive sends every
projection to the origin of the plane. -/
def ofProjection (p : Vec3 R) (wavelength : R) : Uv R :=
  let scale := if lt Constant.epsilon wavelength then Constant.airy / wavelength else Scalar.zero
  ⟨p.x * scale, p.y * scale, p.z / Constant.speedOfLight⟩

/-- Column and row of the image cell of a point, `none` outside the image. -/
def columnRow? (p : Uv R) (width height : Nat) : Option (Nat × Nat) :=
  if isFinite p.u && isFinite p.v then
    let i := floor p.u + ofNat (width / 2)
    let j := floor p.v + ofNat (height / 2)
    if lt i Scalar.zero || lt j Scalar.zero || le (ofNat width) i || le (ofNat height) j then none
    else some (toNat i, toNat j)
  else none

/-- The image cell of a point, `none` outside the image. Rows follow each other, so the cell in
column `i` and row `j` has the number `i + j · width`, which has to be a word. -/
def cell (p : Uv R) (width height : Nat) : Result (Option Nat) :=
  match p.columnRow? width height with
  | none => .ok none
  | some (i, j) => (inWord (i + j * width)).map some

/-- The image cell of a point, if there is one and its number is a word. -/
def cell? (p : Uv R) (width height : Nat) : Option Nat := (p.cell width height).toOption.join

theorem cell?_eq_some_iff {p : Uv R} {width height i : Nat} :
    p.cell? width height = some i ↔ p.cell width height = .ok (some i) := by
  rw [cell?]
  cases p.cell width height with
  | ok found => simp [Except.toOption]
  | error e => simp [Except.toOption]

end Uv

/-! ## Delays and resolution -/

/-- Time in seconds that light takes over a distance in meters. -/
def lightTime (distance : R) : R := distance / Constant.speedOfLight

/-- Angular resolution of a baseline of unit length at a frequency, in radians. -/
def unitResolution (frequency : R) : R := Constant.airy * Constant.speedOfLight / frequency

/-- Angular resolution of a baseline of a given length. -/
def resolution (unit length : R) : R := unit / length

end Aperture
