import Aperture.Codec.Bytes

/-!
# Hexadecimal text

A byte string as text, two lower-case digits for each byte.
-/

namespace Aperture.Bytes

/-- The value of a lower-case hexadecimal digit. -/
def hexValue? (c : Char) : Option Nat :=
  if '0' ≤ c ∧ c ≤ '9' then some (c.toNat - '0'.toNat)
  else if 'a' ≤ c ∧ c ≤ 'f' then some (c.toNat - 'a'.toNat + 10)
  else none

/-- The digit of a value below sixteen. -/
def hexDigit (n : Nat) : Char :=
  if n < 10 then Char.ofNat ('0'.toNat + n) else Char.ofNat ('a'.toNat + n - 10)

/-- The text of a byte string. -/
def toHex (bytes : Bytes) : List Char :=
  bytes.flatMap fun b => [hexDigit (b.toNat / 16), hexDigit (b.toNat % 16)]

/-- Pair up digits, the bytes so far being in front in reverse order. -/
def pairHex : Bytes → List Char → Option Bytes
  | acc, [] => some acc.reverse
  | acc, high :: low :: cs => do
    let h ← hexValue? high
    let l ← hexValue? low
    pairHex (UInt8.ofNat (16 * h + l) :: acc) cs
  | _, _ => none

/-- The byte string of a text, `none` for a text that is not one. -/
def ofHex? (text : List Char) : Option Bytes := pairHex [] text

example : toHex [0, 255, 16] = "00ff10".toList := by decide +kernel
example : ofHex? "00ff10".toList = some [0, 255, 16] := by decide +kernel

end Aperture.Bytes
