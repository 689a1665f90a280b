import Aperture.Decimal.Reader
import Aperture.Text.Digit
import Aperture.Time.Calendar

/-!
# Timestamps as text

Dates and times of the form `YYYY/MM/DD HH:MM:SS.fff`. A dash may stand for a slash, a `T` for the
blank in the middle, months to seconds may have one digit, and the fraction of up to nine digits
may be missing. Blanks around the text do not matter.

* `Timestamp.capture` finds the fields in a text. The digits of any script do for that.
* `Timestamp.Fields.numbers` reads the fields, which takes the digits of core, and puts the numbers
  into the words that the calendar works with.
* `Epoch.parse` adds the calendar.
-/

namespace Aperture

namespace Timestamp

/-- The fields of a text, digit by digit. -/
structure Fields where
  year : List Char
  month : List Char
  day : List Char
  hour : List Char
  minute : List Char
  second : List Char
  fraction : Option (List Char)
deriving DecidableEq

/-! ## Finding the fields -/

/-- Between `least` and `most` digits, as many as there are, and the rest. -/
def takeDigits (least most : Nat) (cs : List Char) : Option (List Char × List Char) :=
  let digits := cs.takeWhile Text.isDecimal
  if least ≤ digits.length ∧ digits.length ≤ most then
    some (digits, cs.dropWhile Text.isDecimal)
  else none

/-- One of the characters `marks`, and the rest. -/
def takeMark (marks : List Char) : List Char → Option (List Char)
  | c :: cs => if marks.contains c then some cs else none
  | [] => none

/-- The digits behind a point, if there is one. -/
def takeFraction : List Char → Option (Option (List Char) × List Char)
  | '.' :: cs => do
    let (digits, rest) ← takeDigits 1 9 cs
    some (some digits, rest)
  | cs => some (none, cs)

/-- The fields of a text of the right form. -/
def capture (text : List Char) : Option Fields := do
  let (year, cs) ← takeDigits 4 4 (text.dropWhile Text.isBlank)
  let cs ← takeMark ['/', '-'] cs
  let (month, cs) ← takeDigits 1 2 cs
  let cs ← takeMark ['/', '-'] cs
  let (day, cs) ← takeDigits 1 2 cs
  let cs ← takeMark [' ', 'T'] cs
  let (hour, cs) ← takeDigits 1 2 cs
  let cs ← takeMark [':'] cs
  let (minute, cs) ← takeDigits 1 2 cs
  let cs ← takeMark [':'] cs
  let (second, cs) ← takeDigits 1 2 cs
  let (fraction, cs) ← takeFraction cs
  if cs.all Text.isBlank then some ⟨year, month, day, hour, minute, second, fraction⟩ else none

/-! ## Reading the fields -/

/-- The digits filled up with zeros to nine, which counts them in nanoseconds. -/
def padded (digits : List Char) : List Char := digits ++ List.replicate (9 - digits.length) '0'

/-- The nanoseconds of a fraction, none of them without one. -/
def readFraction : Option (List Char) → Option UInt32
  | some digits => Decimal.readWord (padded digits)
  | none => some 0

/-- The words as the calendar takes them: a signed year, and bytes up to the seconds. -/
def ofWords (year month day hour minute second nanosecond : UInt32) : Timestamp where
  year := year.toInt32.toInt.toNat
  month := month.toUInt8.toNat
  day := day.toUInt8.toNat
  hour := hour.toUInt8.toNat
  minute := minute.toUInt8.toNat
  second := second.toUInt8.toNat
  nanosecond := nanosecond.toNat

/-- The seven numbers in the fields. -/
def Fields.numbers (fields : Fields) : Option Timestamp := do
  let year ← Decimal.readWord fields.year
  let month ← Decimal.readWord fields.month
  let day ← Decimal.readWord fields.day
  let hour ← Decimal.readWord fields.hour
  let minute ← Decimal.readWord fields.minute
  let second ← Decimal.readWord fields.second
  let nanosecond ← readFraction fields.fraction
  some (ofWords year month day hour minute second nanosecond)

/-- The seven numbers of a text. -/
def read (text : List Char) : Option Timestamp := do
  let fields ← capture text
  fields.numbers

example : read " 2024-6-1T1:02:3.5\n".toList = some ⟨2024, 6, 1, 1, 2, 3, 500000000⟩ := by
  decide +kernel

/-- The digits of another script make a field, but no number. -/
example : (capture "2024/06/01 01:02:0٣".toList).map Fields.second = some ['0', '٣'] ∧
    read "2024/06/01 01:02:0٣".toList = none := by decide +kernel

end Timestamp

/-- The epoch that a text names. A text that has no numbers is reported as it is, an impossible date
with a note behind it. -/
def Epoch.parse (text : String) : Result Epoch :=
  match Timestamp.read text.toList with
  | none => fail (.invalidDate text)
  | some t =>
    match t.toEpoch? with
    | none => fail (.invalidDate (text ++ ": InvalidGregorianDate"))
    | some e => .ok e

end Aperture
