import Aperture.Fourier.Complex

/-!
# Transforms of a line

The discrete Fourier transform of one line of cells: cell `k` becomes the sum over the cells `j` of
`x j · exp (∓ 2 π i · j k / n)`, not normalized in either direction.

* `direct` writes the sum down.
* `Spectral R` is a way to compute it. Rounding depends on how the sum is arranged, so the scalars
  choose their own; over exact numbers every choice answers what `direct` does.
-/

namespace Aperture.Fourier

open Scalar Trig

/-- The two directions of the transform. -/
inductive Direction where
  | forward
  | inverse
deriving DecidableEq

/-- Scalars whose lines can be transformed. -/
class Spectral (R : Type) where
  /-- The discrete Fourier transform of a line. -/
  line : Direction → Array (Complex R) → Array (Complex R)
  size_line (direction : Direction) (a : Array (Complex R)) : (line direction a).size = a.size

variable {R : Type} [Scalar R] [Trig R]

/-- The root of unity `exp (∓ 2 π i · k / n)`. -/
def root (direction : Direction) (n k : Nat) : Complex R :=
  let angle : R := -(ofNat 2 * pi) / ofNat n * ofNat k
  match direction with
  | .forward => ⟨cos angle, sin angle⟩
  | .inverse => ⟨cos angle, -sin angle⟩

/-- One cell of a transformed line of `n` cells, by the powers of a root. -/
def lineSum (roots : Array (Complex R)) (n k : Nat) (line : Nat → Complex R) : Complex R :=
  (List.range n).foldl (fun sum j => sum + line j * roots.getD (j * k % n) Complex.zero)
    Complex.zero

/-- The transform of a line as the sum that defines it. -/
def direct (direction : Direction) (a : Array (Complex R)) : Array (Complex R) :=
  let roots : Array (Complex R) := Array.ofFn fun (k : Fin a.size) => root direction a.size k
  Array.ofFn fun (k : Fin a.size) =>
    lineSum roots a.size k fun j => a.getD j Complex.zero

@[simp] theorem size_direct (direction : Direction) (a : Array (Complex R)) :
    (direct direction a).size = a.size := by
  simp [direct]

end Aperture.Fourier
