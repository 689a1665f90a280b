/-!
# Scalars

Everything this library computes is written once, over a type `R` of **scalars**, and runs on
binary64 words. The same definitions can be read over the rationals or the reals, where sums
and products are exact.

* `Scalar R`: the four operations, a product and a sum rounded once, IEEE-style comparisons with
  answers in `Bool`, rounding to a whole number, and the conversions from naturals and decimal
  literals.
* `Trig R`: the circle functions. They are a class of their own, so that a statement may leave
  them arbitrary.
* `Word R`: the 64-bit word a scalar is stored as.
* `Legible R`: the decimal text of a scalar.

The order-theoretic helpers `least`, `greatest` and `clip` skip an operand that is not a
number.
-/

namespace Aperture

/-- Numbers with the operations of the sampling and geometry code. -/
class Scalar (R : Type) extends Add R, Sub R, Mul R, Div R, Neg R where
  /-- The natural number itself. -/
  ofNat : Nat → R
  /-- `digits · 10 ^ exponent`. -/
  ofDecimal (digits : Nat) (exponent : Int) : R
  /-- `x * y + z` with a single rounding. -/
  fused : R → R → R → R
  abs : R → R
  /-- Largest whole number not above. -/
  floor : R → R
  /-- Smallest whole number not below. -/
  ceil : R → R
  /-- Euclidean remainder, at least zero; rounding may lift it to the modulus itself. -/
  modulo : R → R → R
  /-- Neither infinite nor a failed operation. -/
  isFinite : R → Bool
  /-- Strictly below; false when an operand is not a number. -/
  lt : R → R → Bool
  /-- Below or equal; false when an operand is not a number. -/
  le : R → R → Bool
  /-- Equal as numbers; false when an operand is not a number. -/
  eq : R → R → Bool
  /-- Bound of an empty set of numbers. -/
  infinity : R
  /-- Whole part, `none` for a scalar that is not finite. -/
  truncate : R → Option Int
  /-- Whole part of a positive scalar and zero for any other, within one machine word. -/
  toNat : R → Nat

/-- The functions of the circle, in radians. -/
class Trig (R : Type) where
  /-- Half a turn. -/
  pi : R
  sin : R → R
  cos : R → R
  arcsin : R → R
  arccos : R → R
  /-- `arctan2 y x`, the angle of the point `(x, y)`. -/
  arctan2 : R → R → R
  /-- Length of the hypotenuse over two sides. -/
  hypot : R → R → R
  sqrt : R → R

/-- Scalars stored as 64-bit words. -/
class Word (R : Type) where
  ofWord : UInt64 → R
  toWord : R → UInt64
  /-- The scalar a 32-bit word stands for. -/
  ofHalfWord : UInt32 → R

/-- Scalars with a decimal text. -/
class Legible (R : Type) where
  /-- Shortest digits that read back, never with an exponent: the text inside messages. -/
  text : R → String
  /-- Shortest digits that read back, as a literal: whole numbers keep `.0`. -/
  literal : R → String

namespace Scalar

variable {R : Type} [Scalar R]

/-! ## Small constants -/

def zero : R := ofNat 0

def one : R := ofNat 1

/-! ## Order -/

/-- Whether `x` is a number at all. -/
def isNumber (x : R) : Bool := eq x x

/-- The smaller operand, the second one on a tie; an operand that is not a number loses. -/
def least (x y : R) : R := if lt x y || !isNumber y then x else y

/-- The greater operand, the second one on a tie; an operand that is not a number loses. -/
def greatest (x y : R) : R := if lt y x || !isNumber y then x else y

/-- Cut a number to `[-1, 1]`, the domain of the inverse sine and cosine. -/
def clip (x : R) : R :=
  if lt x (-one) then -one else if lt one x then one else x

/-- Finite and above zero. -/
def isPositive (x : R) : Bool := isFinite x && lt zero x

/-- `low ≤ x ≤ high`. -/
def within (low high x : R) : Bool := le low x && le x high

end Scalar

/-! ## Degrees -/

namespace Trig

variable {R : Type} [Scalar R] [Trig R]

/-- One degree in radians. -/
def degree : R := pi / Scalar.ofNat 180

/-- One radian in degrees. -/
def radian : R := Scalar.ofNat 180 / pi

def toRadians (x : R) : R := x * degree

def toDegrees (x : R) : R := x * radian

end Trig

end Aperture
