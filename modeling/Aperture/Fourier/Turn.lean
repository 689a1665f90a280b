import Aperture.Fourier.Line

/-!
# Turns

Products with roots of unity, one part rounded at a time. A cell is turned by a root of order `n` in
one of three ways, which agree over exact numbers:

* `timesRoot` and `rootTimes` multiply; they differ in the product that is rounded first.
* `turned` multiplies by a root of the first quarter only. Eighths of a turn are made of sums, and
  later roots of those before them.
-/

namespace Aperture.Fourier

open Scalar

variable {R : Type} [Scalar R]

/-- The other direction. -/
def Direction.opposite : Direction → Direction
  | .forward => .inverse
  | .inverse => .forward

/-- A product whose sums are rounded once. The products with the imaginary part of `a` are rounded
before that. -/
def mulFused (a b : Complex R) : Complex R :=
  ⟨fused a.re b.re (-(a.im * b.im)), fused a.re b.im (a.im * b.re)⟩

/-- `a * k + b` for a scalar `k`, each part rounded once. -/
def scaleAdd (a : Complex R) (k : R) (b : Complex R) : Complex R :=
  ⟨fused a.re k b.re, fused a.im k b.im⟩

/-- A quarter of a turn: the root of unity of order four. -/
def quarter (direction : Direction) (a : Complex R) : Complex R :=
  match direction with
  | .forward => ⟨a.im, -a.re⟩
  | .inverse => a.turn

variable [Trig R]

/-- The sine and the cosine of an eighth of a turn. -/
def halfRoot : R := Trig.sqrt (one / ofNat 2)

/-- An eighth of a turn. -/
def eighth (direction : Direction) (a : Complex R) : Complex R :=
  (quarter direction a + a).scale halfRoot

/-- Three eighths of a turn. -/
def threeEighths (direction : Direction) (a : Complex R) : Complex R :=
  (quarter direction a - a).scale halfRoot

/-- A cell times the root of order `n` with exponent `k`. -/
def timesRoot (direction : Direction) (n k : Nat) (a : Complex R) : Complex R :=
  mulFused a (root direction n k)

/-- The root of order `n` with exponent `k` times a cell. -/
def rootTimes (direction : Direction) (n k : Nat) (a : Complex R) : Complex R :=
  mulFused (root direction n k) a

/-- A cell turned by the root with exponent `k < n` of an order that four divides. -/
def turned (direction : Direction) (n k : Nat) (a : Complex R) : Complex R :=
  if k = 0 then a
  else if 8 * k = n then eighth direction a
  else if 4 * k = n then quarter direction a
  else if 8 * k = 3 * n then threeEighths direction a
  else if 4 * k < n then mulFused a (root direction n k)
  else if 2 * k < n then mulFused a (quarter direction (root direction n (k - n / 4)))
  else -mulFused a (root direction n (k - n / 2))

end Aperture.Fourier
