import Aperture.Time.Epoch

/-!
# Calendar

The Gregorian calendar, extended to the years before it was introduced.

`Timestamp` holds the seven numbers of a date and time. `Timestamp.toEpoch?` is defined on the
possible ones:

* months have their usual lengths, February 29 days in leap years;
* the hour 24 is accepted and runs into the next day;
* the second 60 is accepted in the last minute before a leap second was inserted, and names the
  same second as 59.
-/

namespace Aperture

/-- The numbers of a date and time. -/
structure Timestamp where
  year : Nat
  month : Nat
  day : Nat
  hour : Nat
  minute : Nat
  second : Nat
  nanosecond : Nat
deriving DecidableEq, Repr

namespace Calendar

/-- Every fourth year, except full centuries that 400 does not divide. -/
def isLeapYear (year : Nat) : Bool :=
  year % 4 == 0 && (year % 100 != 0 || year % 400 == 0)

/-- Number of days of a month; no month has number 0 or a number above 12. -/
def daysInMonth (year month : Nat) : Nat :=
  match month with
  | 1 | 3 | 5 | 7 | 8 | 10 | 12 => 31
  | 4 | 6 | 9 | 11 => 30
  | 2 => if isLeapYear year then 29 else 28
  | _ => 0

/-- Days from the first day of the year 0 to the first day of a year. -/
def daysBeforeYear (year : Nat) : Nat :=
  365 * year + (year + 3) / 4 - (year + 99) / 100 + (year + 399) / 400

/-- Days from the first day of a year to the first day of a month. -/
def daysBeforeMonth (year month : Nat) : Nat :=
  (List.range' 1 (month - 1)).foldl (fun days m => days + daysInMonth year m) 0

/-- Days from 1900-01-01. -/
def dayNumber (year month day : Nat) : Int :=
  (daysBeforeYear year + daysBeforeMonth year month + (day - 1) : Nat) - (daysBeforeYear 1900 : Nat)

/-- Years with a leap second at the end of June. -/
def juneLeapYears : List Nat :=
  [1972, 1981, 1982, 1983, 1985, 1992, 1993, 1994, 1997, 2012, 2015]

/-- Years with a leap second at the end of December. -/
def decemberLeapYears : List Nat :=
  [1971, 1972, 1973, 1974, 1975, 1976, 1977, 1978, 1979, 1987, 1989, 1990, 1995, 1998, 2005, 2008,
    2016]

/-- Whether a leap second was inserted at the end of a day. -/
def endsWithLeapSecond (year month day : Nat) : Bool :=
  (month == 6 && day == 30 && juneLeapYears.contains year) ||
    (month == 12 && day == 31 && decemberLeapYears.contains year)

example : daysBeforeYear 2001 - daysBeforeYear 2000 = 366 := by decide
example : dayNumber 2000 1 1 = 36524 := by decide

end Calendar

namespace Timestamp

open Calendar

/-- Whether the second exists in its minute. -/
def hasSecond (t : Timestamp) : Bool :=
  t.second < 60 ||
    (t.second == 60 && t.hour == 23 && t.minute == 59 && endsWithLeapSecond t.year t.month t.day)

/-- Whether the numbers name a date and time. -/
def isPossible (t : Timestamp) : Bool :=
  1 ≤ t.day && t.day ≤ daysInMonth t.year t.month && t.hour ≤ 24 && t.minute < 60 && t.hasSecond

/-- The epoch of a possible date and time. -/
def toEpoch? (t : Timestamp) : Option Epoch :=
  if t.isPossible then
    let seconds : Int := dayNumber t.year t.month t.day * 86400 +
      (t.hour * 3600 + t.minute * 60 + min t.second 59 : Nat)
    some ⟨seconds * Epoch.perSecond + t.nanosecond⟩
  else none

example : toEpoch? ⟨2000, 1, 1, 12, 0, 0, 0⟩ = some Epoch.j2000 := by decide

end Timestamp

end Aperture
