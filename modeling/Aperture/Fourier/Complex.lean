import Aperture.Scalar

/-!
# Complex numbers

Pairs of scalars, as far as Fourier transforms need them.
-/

namespace Aperture

/-- A complex number. -/
structure Complex (R : Type) where
  re : R
  im : R
deriving DecidableEq, Inhabited

namespace Complex

variable {R : Type} [Scalar R]

/-- The number zero. -/
def zero : Complex R := ⟨Scalar.zero, Scalar.zero⟩

/-- A real number. -/
def ofReal (x : R) : Complex R := ⟨x, Scalar.zero⟩

instance : Add (Complex R) where
  add a b := ⟨a.re + b.re, a.im + b.im⟩

instance : Sub (Complex R) where
  sub a b := ⟨a.re - b.re, a.im - b.im⟩

instance : Neg (Complex R) where
  neg a := ⟨-a.re, -a.im⟩

instance : Mul (Complex R) where
  mul a b := ⟨a.re * b.re - a.im * b.im, a.re * b.im + a.im * b.re⟩

/-- Both parts multiplied by `k`. -/
def scale (k : R) (a : Complex R) : Complex R := ⟨a.re * k, a.im * k⟩

/-- A quarter of a turn to the left. -/
def turn (a : Complex R) : Complex R := ⟨-a.im, a.re⟩

/-- The conjugate. -/
def conj (a : Complex R) : Complex R := ⟨a.re, -a.im⟩

@[simp] theorem add_re (a b : Complex R) : (a + b).re = a.re + b.re := rfl
@[simp] theorem add_im (a b : Complex R) : (a + b).im = a.im + b.im := rfl
@[simp] theorem sub_re (a b : Complex R) : (a - b).re = a.re - b.re := rfl
@[simp] theorem sub_im (a b : Complex R) : (a - b).im = a.im - b.im := rfl
@[simp] theorem mul_re (a b : Complex R) : (a * b).re = a.re * b.re - a.im * b.im := rfl
@[simp] theorem mul_im (a b : Complex R) : (a * b).im = a.re * b.im + a.im * b.re := rfl

variable [Trig R]

/-- The number with a magnitude and a phase in radians. -/
def ofPolar (magnitude phase : R) : Complex R :=
  ⟨magnitude * Trig.cos phase, magnitude * Trig.sin phase⟩

/-- The absolute value. -/
def magnitude (a : Complex R) : R := Trig.hypot a.re a.im

/-- The angle in radians. -/
def phase (a : Complex R) : R := Trig.arctan2 a.im a.re

end Complex

end Aperture
