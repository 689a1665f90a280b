import Aperture.Decimal.Reader
import Aperture.Text.Blank

/-!
# Sexagesimal angles

Angles written as three fields, a whole part, minutes and seconds: `HH MM SS.S` for a right
ascension in hours and `±DD MM SS.S` for a declination in degrees. Each field is a decimal numeral;
the signs in front of the first field stand for the whole angle, and the first of them decides.

Only the sum is checked against a range: right ascensions lie in `[0, 24)` and declinations in
`[-90, 90]`.
-/

namespace Aperture.Sexagesimal

open Scalar

/-- The three fields of an angle and its sign. -/
structure Angle (R : Type) where
  negative : Bool
  whole : R
  minutes : R
  seconds : R

variable {R : Type} [Scalar R]

/-- The scalar that a field denotes. -/
def field (cs : List Char) : Option R :=
  (Decimal.Numeral.read cs).map Decimal.Numeral.value

/-- Split a text into the fields of an angle. -/
def Angle.read (text : List Char) : Option (Angle R) :=
  match Text.fields text with
  | [first, second, third] => do
    let whole ← field (first.dropWhile fun c => c == '-' || c == '+')
    let minutes ← field second
    let seconds ← field third
    some ⟨first.head? == some '-', whole, minutes, seconds⟩
  | _ => none

/-- The absolute size: the whole part, sixtieths and sixtieths of sixtieths. -/
def Angle.size (a : Angle R) : R :=
  a.whole + a.minutes / ofNat 60 + a.seconds / ofNat 3600

/-- A right ascension in hours. No sign but `+` is accepted. -/
def rightAscension? (text : List Char) : Option R := do
  let a ← Angle.read text
  if !a.negative && le zero a.size && lt a.size (ofNat 24) then some a.size else none

/-- A declination in degrees. -/
def declination? (text : List Char) : Option R := do
  let a ← Angle.read text
  let degrees := (if a.negative then -one else one) * a.size
  if within (-ofNat 90) (ofNat 90) degrees then some degrees else none

end Aperture.Sexagesimal
