import Aperture.Decimal.Power
import Aperture.Scalar

/-!
# Decimal numerals

The texts that are read as a number: an optional sign, digits with an optional point among them
and at least one digit, and an optional exponent.

`readWord` is for whole numbers of 32 bits.

* `Numeral` is what such a text says, exactly.
* `Numeral.read` accepts a text or refuses it as a whole.
* `Numeral.value` is the scalar.
-/

namespace Aperture.Decimal

/-- `± coefficient · 10 ^ exponent`. -/
structure Numeral where
  negative : Bool
  coefficient : Nat
  exponent : Int
deriving DecidableEq, Repr

/-- The number that decimal digits write, the first digit being the highest. -/
def ofDigits (cs : List Char) : Nat :=
  cs.foldl (fun n c => 10 * n + (c.toNat - '0'.toNat)) 0

@[simp] theorem ofDigits_nil : ofDigits [] = 0 := rfl

theorem ofDigits_append_singleton (cs : List Char) (c : Char) :
    ofDigits (cs ++ [c]) = 10 * ofDigits cs + (c.toNat - '0'.toNat) := by
  simp [ofDigits]

/-- What follows a plus sign at the front, if there is one. -/
def dropPlus : List Char → List Char
  | '+' :: cs => cs
  | cs => cs

/-- Read a whole text as a number of 32 bits: digits, behind a plus sign or none. -/
def readWord (text : List Char) : Option UInt32 :=
  let digits := dropPlus text
  if digits ≠ [] ∧ digits.all Char.isDigit ∧ ofDigits digits < UInt32.size then
    some (UInt32.ofNat (ofDigits digits))
  else none

/-- A sign at the front, and what follows it. -/
def takeSign : List Char → Bool × List Char
  | '-' :: cs => (true, cs)
  | '+' :: cs => (false, cs)
  | cs => (false, cs)

/-- The exponent behind the digits: nothing at all, or a letter, an optional sign and at least one
digit. -/
def readExponent : List Char → Option Int
  | [] => some 0
  | c :: cs =>
    let (negative, digits) := takeSign cs
    if (c = 'e' ∨ c = 'E') ∧ digits ≠ [] ∧ digits.all Char.isDigit then
      some (if negative then -(ofDigits digits : Int) else ofDigits digits)
    else none

/-- Read a whole text as a numeral. -/
def Numeral.read (text : List Char) : Option Numeral :=
  let (negative, body) := takeSign text
  let whole := body.takeWhile Char.isDigit
  let (places, rest) :=
    match body.dropWhile Char.isDigit with
    | '.' :: cs => (cs.takeWhile Char.isDigit, cs.dropWhile Char.isDigit)
    | cs => ([], cs)
  if whole = [] ∧ places = [] then none
  else (readExponent rest).map fun e =>
    ⟨negative, ofDigits (whole ++ places), e - places.length⟩

/-- The scalar a numeral denotes. -/
def Numeral.value {R : Type} [Scalar R] (n : Numeral) : R :=
  let magnitude : R := Scalar.ofDecimal n.coefficient n.exponent
  if n.negative then -magnitude else magnitude

example : Numeral.read "-1.50e+3".toList = some ⟨true, 150, 1⟩ := by decide +kernel
example : Numeral.read ".5".toList = some ⟨false, 5, -1⟩ := by decide +kernel
example : Numeral.read "5.".toList = some ⟨false, 5, 0⟩ := by decide +kernel
example : readWord "007".toList = some 7 ∧ readWord "4294967296".toList = none := by decide +kernel
example : Numeral.read ".".toList = none ∧ Numeral.read "1e".toList = none := by decide +kernel

end Aperture.Decimal
