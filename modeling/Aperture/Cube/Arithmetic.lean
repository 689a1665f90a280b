import Aperture.Cube
import Aperture.Fourier.Transform
import Aperture.Grid.Convolution
import Aperture.Grid.Shift
import Aperture.Grid.Statistics

/-!
# Cube arithmetic

Operations on whole cubes. None of them changes its operands; the result has the shape and the
metadata of the first one. Operations on two cubes cell by cell need equal shapes.
-/

namespace Aperture.Cube

open Scalar

variable {R : Type} [Scalar R]

/-- Report shapes that differ. -/
def requireSameShape (a b : Cube R) : Result Unit :=
  if a.shape = b.shape then .ok () else fail (.sizeMismatch a.shape b.shape)

/-- Combine two cubes cell by cell. -/
def zipWith (f : R → R → R) (a b : Cube R) : Result (Cube R) := do
  requireSameShape a b
  a.derive (Array.zipWith f a.samples b.samples) a.shape

/-- Mean of two cubes. -/
def stack (a b : Cube R) : Result (Cube R) := zipWith (fun x y => (x + y) / ofNat 2) a b

/-- Absolute difference of two cubes, stretched to the range of the first one. -/
def difference (a b : Cube R) : Result (Cube R) := do
  let distance ← zipWith (fun x y => Scalar.abs (x - y)) a b
  .ok (distance.replace
    (Grid.stretch distance.samples (Grid.minimum a.samples) (Grid.maximum a.samples)) (by simp))

/-- Product of two cubes. -/
def mask (a b : Cube R) : Result (Cube R) := zipWith (fun x y => x * y) a b

/-- Convolution of a cube by a kernel. -/
def convolve (a kernel : Cube R) : Result (Cube R) := do
  let samples ← Grid.convolve a.samples a.shape kernel.samples kernel.shape
  a.derive samples a.shape

/-- Quadrant shift of a cube. -/
def shift (a : Cube R) : Result (Cube R) := do
  let samples ← Grid.shift a.samples a.shape
  a.derive samples a.shape

variable [Trig R] [Fourier.Spectral R]

/-- Magnitudes and phases of the Fourier transform of a cube. -/
def dft (a : Cube R) : Result (Cube R × Cube R) := do
  let (magnitudes, phases) ← Fourier.dftPolar a.samples a.shape
  let magnitudes ← a.derive magnitudes a.shape
  let phases ← a.derive phases a.shape
  .ok (magnitudes, phases)

/-- The cube whose Fourier transform has these magnitudes and phases. -/
def idft (magnitudes phases : Cube R) : Result (Cube R) := do
  requireSameShape magnitudes phases
  let samples ← Fourier.idftPolar magnitudes.samples phases.samples magnitudes.shape
  magnitudes.derive samples magnitudes.shape

/-! ## Operations on two cubes -/

/-- The operations on two cubes. -/
inductive Operation where
  | stack
  | difference
  | mask
  | convolve
  | idft
deriving DecidableEq, Repr

/-- Carry out an operation. -/
def Operation.apply : Operation → Cube R → Cube R → Result (Cube R)
  | stack => Cube.stack
  | difference => Cube.difference
  | mask => Cube.mask
  | convolve => Cube.convolve
  | idft => Cube.idft

end Aperture.Cube
