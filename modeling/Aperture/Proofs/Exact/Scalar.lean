import Aperture.Scalar
import Mathlib.Algebra.Order.Floor.Ring
import Mathlib.Algebra.Order.Floor.Semiring
import Mathlib.Data.Rat.Floor
import Mathlib.Tactic.FieldSimp
import Mathlib.Tactic.Linarith
import Mathlib.Tactic.Ring

/-!
# Exact scalars

The numbers of an ordered field with floors as scalars, such as the rationals or the reals. Nothing
is rounded, every number is finite, and whole numbers are not bounded by a machine word.

The instance is scoped: `open scoped Exact` reads the definitions of this library over a field. The
circle functions are not part of it, so that what is proved holds for any of them.
-/

namespace Aperture.Exact

-- The operations of a field are found before those of the scalars it is read as.
attribute [instance (low)] Scalar.toAdd Scalar.toSub Scalar.toMul Scalar.toDiv Scalar.toNeg

variable {K : Type} [Field K] [LinearOrder K] [FloorRing K]

/-- The numbers of a field as scalars. There is no infinite one; `infinity` bounds no set here. -/
scoped instance (priority := low) scalar : Scalar K where
  ofNat n := n
  ofDecimal digits exponent := digits * 10 ^ exponent
  fused x y z := x * y + z
  abs x := |x|
  floor x := ⌊x⌋
  ceil x := ⌈x⌉
  modulo x m := x - |m| * ⌊x / |m|⌋
  isFinite _ := true
  lt x y := decide (x < y)
  le x y := decide (x ≤ y)
  eq x y := decide (x = y)
  infinity := 0
  truncate x := some (if 0 ≤ x then ⌊x⌋ else ⌈x⌉)
  toNat x := ⌊x⌋₊

@[simp] theorem ofNat_eq (n : Nat) : (Scalar.ofNat n : K) = n := rfl

@[simp] theorem zero_eq : (Scalar.zero : K) = 0 := Nat.cast_zero

@[simp] theorem one_eq : (Scalar.one : K) = 1 := Nat.cast_one

theorem ofDecimal_eq (digits : Nat) (exponent : Int) :
    (Scalar.ofDecimal digits exponent : K) = digits * 10 ^ exponent := rfl

@[simp] theorem isFinite_eq (x : K) : Scalar.isFinite x = true := rfl

@[simp] theorem lt_eq (x y : K) : Scalar.lt x y = decide (x < y) := rfl

@[simp] theorem le_eq (x y : K) : Scalar.le x y = decide (x ≤ y) := rfl

@[simp] theorem eq_eq (x y : K) : Scalar.eq x y = decide (x = y) := rfl

@[simp] theorem floor_eq (x : K) : Scalar.floor x = (⌊x⌋ : K) := rfl

@[simp] theorem ceil_eq (x : K) : Scalar.ceil x = (⌈x⌉ : K) := rfl

@[simp] theorem toNat_eq (x : K) : Scalar.toNat x = ⌊x⌋₊ := rfl

@[simp] theorem least_eq (x y : K) : Scalar.least x y = min x y := by
  rcases lt_or_ge x y with h | h
  · simp [Scalar.least, h, h.le]
  · simp [Scalar.least, Scalar.isNumber, h, not_lt.2 h]

@[simp] theorem greatest_eq (x y : K) : Scalar.greatest x y = max x y := by
  rcases lt_or_ge y x with h | h
  · simp [Scalar.greatest, h, h.le]
  · simp [Scalar.greatest, Scalar.isNumber, h, not_lt.2 h]

/-- The whole part of a whole number. -/
theorem toNat_intCast [IsStrictOrderedRing K] (z : ℤ) : Scalar.toNat (z : K) = z.toNat := by
  rw [toNat_eq, ← Int.floor_toNat, Int.floor_intCast]

/-- Rational functions that follow those of the circle near the angle zero. What is proved here
holds for any functions; with these it can be evaluated. -/
scoped instance (priority := low) nearZero : Trig ℚ where
  pi := 355 / 113
  sin x := x - x ^ 3 / 6
  cos x := 1 - x ^ 2 / 2
  arcsin x := x + x ^ 3 / 6
  arccos x := 355 / 226 - x - x ^ 3 / 6
  arctan2 y x := y / x
  hypot x y := max |x| |y|
  sqrt x := (1 + x) / 2

/-! ## Combinations of buffers -/

section

variable {F : Type} [Field F]

/-- Cells of two buffers, scaled and added. -/
def combine (a b : F) (x y : Array F) : Array F := Array.zipWith (fun p q => a * p + b * q) x y

theorem size_combine (a b : F) {x y : Array F} (h : x.size = y.size) :
    (combine a b x y).size = x.size := by
  rw [combine, Array.size_zipWith, h, Nat.min_self]

theorem getD_combine (a b : F) {x y : Array F} (h : x.size = y.size) (i : Nat) :
    (combine a b x y).getD i 0 = a * x.getD i 0 + b * y.getD i 0 := by
  have hsize := size_combine a b h
  rcases Nat.lt_or_ge i x.size with hi | hi
  · rw [← Array.getElem_eq_getD 0 (h := hsize ▸ hi), ← Array.getElem_eq_getD 0 (h := hi),
      ← Array.getElem_eq_getD 0 (h := h ▸ hi)]
    exact Array.getElem_zipWith ..
  · simp [Array.getD_eq_getD_getElem?, hsize, hi, ← h]

end

end Aperture.Exact
