import Aperture.Binary64
import Aperture.Decimal.Power

/-!
# Shortest decimals

The fewest digits that read back as a given binary64 number.

A finite number is `m · 2 ^ q`, and the reals that round to it form an interval around it, ends
included when `m` is even. The search walks over the grids `10 ^ k · ℤ` from coarse to fine. On
each grid only the two neighbours of the number matter: when a point of the grid lies in the
interval, so does one of them. The first grid with a hit wins; of two hits the nearer one, and the
upper one of two equally near.

All comparisons are between natural numbers: both sides are multiplied by the powers of two and
ten that clear the denominators.
-/

namespace Aperture.Decimal

/-- The number `coefficient · 10 ^ exponent`. -/
structure Digits where
  coefficient : Nat
  exponent : Int
deriving DecidableEq, Repr

/-- A positive number `m · 2 ^ q` with the ends of its rounding interval, in quarters of
`2 ^ q`. -/
structure Interval where
  low : Nat
  value : Nat
  high : Nat
  /-- Power of two of one quarter. -/
  scale : Int
  /-- Whether the ends round to the number too. -/
  closed : Bool
deriving DecidableEq, Repr

/-- The rounding interval of a positive finite number. Below a power of two the gap is half as
wide, unless the exponent is already the smallest. -/
def Interval.ofBinary64 (x : Binary64) : Interval :=
  let m := x.significand
  { low := if m = Binary64.hiddenBit ∧ 1 < x.exponentField then 4 * m - 1 else 4 * m - 2
    value := 4 * m
    high := 4 * m + 2
    scale := x.scale - 2
    closed := m % 2 == 0 }

namespace Interval

/-- The factor that `n` quarters are multiplied with before they are compared with a multiple of
`10 ^ k`. -/
def quarters (i : Interval) (k : Int) (n : Nat) : Nat :=
  n <<< i.scale.toNat * power (-k).toNat

/-- The factor that `c` grid steps are multiplied with before they are compared. -/
def steps (i : Interval) (k : Int) (c : Nat) : Nat :=
  (c * power k.toNat) <<< (-i.scale).toNat

/-- Whether `c · 10 ^ k` rounds to the number. -/
def hits (i : Interval) (k : Int) (c : Nat) : Bool :=
  let point := i.steps k c
  if i.closed then i.quarters k i.low ≤ point && point ≤ i.quarters k i.high
  else i.quarters k i.low < point && point < i.quarters k i.high

/-- The grid point of `10 ^ k` that is chosen, when one rounds to the number. -/
def choose (i : Interval) (k : Int) : Option Nat :=
  let value := i.quarters k i.value
  let below := value / i.steps k 1
  match i.hits k below, i.hits k (below + 1) with
  | true, true => some (if 2 * value < i.steps k (2 * below + 1) then below else below + 1)
  | true, false => some below
  | false, true => some (below + 1)
  | false, false => none

/-- The first grid with a hit among `10 ^ k`, `10 ^ (k - 1)`, …, at most `fuel` of them. -/
def search (i : Interval) : Nat → Int → Digits
  | 0, k => ⟨i.quarters k i.value / i.steps k 1, k⟩
  | fuel + 1, k =>
    match i.choose k with
    | some c => ⟨c, k⟩
    | none => i.search fuel (k - 1)

/-- An exponent `k` with the number below `10 ^ (k + 1)`. -/
def magnitude (i : Interval) : Int :=
  let above := i.quarters 0 i.value
  let one := i.steps 0 1
  if one ≤ above then ((Nat.toDigits 10 (above / one)).length : Int) - 1
  else 1 - ((Nat.toDigits 10 (one / above)).length : Int)

end Interval

/-- Drop the zeros at the end of a coefficient. -/
def Digits.trim (d : Digits) : Digits :=
  if h : d.coefficient ≠ 0 ∧ d.coefficient % 10 = 0 then
    Digits.trim ⟨d.coefficient / 10, d.exponent + 1⟩
  else d
termination_by d.coefficient
decreasing_by omega

/-- The fewest digits that read back as the finite number `x`, without its sign. Seventeen digits
always do. -/
def shortest (x : Binary64) : Digits :=
  if x.significand = 0 then ⟨0, 0⟩
  else
    let i := Interval.ofBinary64 x
    (i.search 20 i.magnitude).trim

end Aperture.Decimal
