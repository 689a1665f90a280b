import Aperture.Constant
import Aperture.Failure

/-!
# Epochs

Points in time with a resolution of one nanosecond. No leap second is ever counted, so a day
always has 86400 seconds.

* `Epoch.ofSeconds` and `Epoch.seconds` convert to and from the seconds since the reference
  `Epoch.j2000`, 2000-01-01T12:00:00.
* Epochs and the spans between them are limited to 32768 centuries on either side; what would lie
  outside stays at the limit.
-/

namespace Aperture

/-- A point in time. -/
structure Epoch where
  /-- Nanoseconds since 1900-01-01T00:00:00. -/
  nanoseconds : Int
deriving DecidableEq, Inhabited, Repr

namespace Epoch

/-- Nanoseconds in one second. -/
def perSecond : Int := 1000000000

/-- Nanoseconds in a century of 36525 days. -/
def perCentury : Int := 3155760000 * perSecond

/-- The nearest span within the limits. -/
def clamp (span : Int) : Int := max (-32768 * perCentury) (min span (32768 * perCentury))

theorem clamp_of_mem {span : Int} (low : -32768 * perCentury ≤ span)
    (high : span ≤ 32768 * perCentury) : clamp span = span := by
  simp only [clamp]
  omega

/-- The reference epoch, 2000-01-01T12:00:00. -/
def j2000 : Epoch := ⟨3155716800 * perSecond⟩

/-- The epoch after a span of nanoseconds. -/
def add (e : Epoch) (span : Int) : Epoch := ⟨clamp (e.nanoseconds + span)⟩

/-- Nanoseconds from the reference epoch. -/
def span (e : Epoch) : Int := clamp (e.nanoseconds - j2000.nanoseconds)

variable {R : Type} [Scalar R]

/-- The epoch a number of seconds after the reference, cut to whole nanoseconds. There is no such
epoch when the number is not finite. -/
def ofSeconds (seconds : R) : Result Epoch :=
  if Scalar.isFinite seconds then
    let limit := if Scalar.lt seconds Scalar.zero then -32768 * perCentury else 32768 * perCentury
    let nanoseconds := seconds * Scalar.ofDecimal 1 9
    .ok (j2000.add (clamp ((Scalar.truncate nanoseconds).getD limit)))
  else abort .nonFiniteTime

/-- Seconds since the reference epoch. The centuries, the whole seconds and the nanoseconds are
added in this order; the last nanosecond of the range belongs to the last century. -/
def seconds (e : Epoch) : R :=
  let centuries := min (e.span / perCentury) 32767
  let rest := (e.span - centuries * perCentury).toNat
  let whole : R := Scalar.ofNat (rest / perSecond.toNat)
  let fraction : R := Scalar.ofNat (rest % perSecond.toNat) * Scalar.ofDecimal 1 (-9)
  if centuries = 0 then whole + fraction
  else
    let count : R := Scalar.ofNat centuries.natAbs
    let signed := if centuries < 0 then -count else count
    signed * Scalar.ofNat 3155760000 + whole + fraction

end Epoch

end Aperture
