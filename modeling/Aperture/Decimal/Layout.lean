import Aperture.Decimal.Shortest

/-!
# Decimal layouts

How the digits of a number are laid out as text. Both layouts use the shortest digits.

* `positional` never uses an exponent: `0.00001`, `299792458`.
* `literal` shows that a number is not whole or not an integer type: whole numbers keep `.0`, and
  numbers from `10 ^ 16` on or below `10 ^ -4` are written with an exponent.
-/

namespace Aperture.Decimal

/-- Digits with a point and no exponent. With `whole` a number without fraction ends in `.0`. -/
def Digits.positional (whole : Bool) (d : Digits) : List Char :=
  let cs := Nat.toDigits 10 d.coefficient
  if 0 ≤ d.exponent then
    cs ++ List.replicate d.exponent.toNat '0' ++ (if whole then ['.', '0'] else [])
  else
    let places := (-d.exponent).toNat
    let padded := List.replicate (places + 1 - cs.length) '0' ++ cs
    padded.take (padded.length - places) ++ '.' :: padded.drop (padded.length - places)

/-- One digit before the point and a power of ten. -/
def Digits.scientific (d : Digits) : List Char :=
  let cs := Nat.toDigits 10 d.coefficient
  let power := d.exponent + (cs.length - 1 : Int)
  let fraction := if cs.length ≤ 1 then [] else '.' :: cs.drop 1
  cs.take 1 ++ fraction ++ 'e' :: (toString power).toList

/-- Whether a literal of these digits needs an exponent. -/
def Digits.isExtreme (d : Digits) : Bool :=
  let length : Int := (Nat.toDigits 10 d.coefficient).length
  d.coefficient != 0 && (16 < d.exponent + length || d.exponent + length < -3)

/-- The sign, the words for what is not finite, and `layout` for the digits of the rest. -/
def render (layout : Digits → List Char) (x : Binary64) : String :=
  if x.isNaN then "NaN"
  else
    let body := if x.isFinite then layout (shortest x) else "inf".toList
    String.ofList (if x.isNegative then '-' :: body else body)

/-- The text of a number inside a message. -/
def text (x : Binary64) : String := render (Digits.positional false) x

/-- The text of a number as a literal. -/
def literal (x : Binary64) : String :=
  render (fun d => if d.isExtreme then d.scientific else d.positional true) x

instance : Legible Binary64 where
  text := text
  literal := literal

end Aperture.Decimal
