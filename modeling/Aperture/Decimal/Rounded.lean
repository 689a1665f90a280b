import Aperture.Binary64
import Aperture.Decimal.Power

/-!
# Rounded decimals

A binary64 number rounded to a fixed number of digits, from its exact value and with ties to the
even neighbour.

* `significant n x` has `n` significant digits and a power of ten: `1.5e-3`.
* `places n x` has `n` decimals and no power: `0.0015`.

Zeros at the end of a fraction are left out.
-/

namespace Aperture.Decimal

/-- The nearest whole number to `n / d`, the even one of two equally near. -/
def roundDiv (n d : Nat) : Nat :=
  let q := n / d
  let r := n % d
  if 2 * r < d then q else if d < 2 * r then q + 1 else q + q % 2

/-- The result is at most half a unit away. -/
theorem roundDiv_near (n d : Nat) (h : 0 < d) :
    2 * n ≤ (2 * roundDiv n d + 1) * d ∧ 2 * roundDiv n d * d ≤ 2 * n + d := by
  have split := Nat.div_add_mod n d
  have rest := Nat.mod_lt n h
  rw [Nat.mul_comm] at split
  simp only [roundDiv]
  split
  · constructor <;> grind
  · split
    · constructor <;> grind
    · rcases Nat.mod_two_eq_zero_or_one (n / d) with e | e <;> rw [e] <;> constructor <;> grind

/-- A positive fraction. -/
structure Ratio where
  above : Nat
  below : Nat

/-- The absolute value of a finite number. -/
def Ratio.ofBinary64 (x : Binary64) : Ratio :=
  if 0 ≤ x.scale then ⟨x.significand <<< x.scale.toNat, 1⟩
  else ⟨x.significand, 1 <<< (-x.scale).toNat⟩

/-- How many times `10 ^ e` it is, rounded. -/
def Ratio.units (r : Ratio) (e : Int) : Nat :=
  if 0 ≤ e then roundDiv r.above (r.below * power e.toNat)
  else roundDiv (r.above * power (-e).toNat) r.below

/-- The exponent of its first digit. -/
def Ratio.magnitude (r : Ratio) : Int :=
  if r.below ≤ r.above then ((Nat.toDigits 10 (r.above / r.below)).length : Int) - 1
  else
    let zeros := (Nat.toDigits 10 (r.below / r.above)).length - 1
    if r.below ≤ r.above * power zeros then -zeros else -zeros - 1

/-- A text without the zeros at its end. -/
def trimZeros (cs : List Char) : List Char := (cs.reverse.dropWhile (· == '0')).reverse

/-- A fraction with its point, or nothing. -/
def fractionText (cs : List Char) : List Char :=
  match trimZeros cs with
  | [] => []
  | digits => '.' :: digits

/-- The sign, the words for what is not finite, and `body` for the rest. -/
def signed (body : List Char) (x : Binary64) : String :=
  if x.isNaN then "NaN"
  else
    let cs := if x.isFinite then body else ['i', 'n', 'f']
    String.ofList (if x.isNegative then '-' :: cs else cs)

/-- Scientific notation with `n` significant digits. Zero keeps its sign. -/
def significant (n : Nat) (x : Binary64) : String :=
  let body :=
    if x.significand = 0 then ['0', 'e', '0']
    else
      let r := Ratio.ofBinary64 x
      let e := r.magnitude
      let units := r.units (e - (n - 1 : Nat))
      let (units, e) := if power n ≤ units then (units / 10, e + 1) else (units, e)
      let cs := Nat.toDigits 10 units
      cs.take 1 ++ fractionText (cs.drop 1) ++ 'e' :: (toString e).toList
  signed body x

/-- Fixed notation with `n` decimals. Zero has no sign. -/
def places (n : Nat) (x : Binary64) : String :=
  let units := (Ratio.ofBinary64 x).units (-n)
  if x.isFinite && units == 0 then "0"
  else
    let cs := Nat.toDigits 10 (units % power n)
    let fraction := List.replicate (n - cs.length) '0' ++ cs
    signed (Nat.toDigits 10 (units / power n) ++ fractionText fraction) x

end Aperture.Decimal
