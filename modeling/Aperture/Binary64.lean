import Aperture.Scalar

/-!
# Binary64 words

The scalars that are computed with: 64-bit words read as IEEE 754 binary64 numbers.

A word is kept bit for bit, also when it is not a number. A `Float` would forget the payload and
the sign of such a word, and a payload decoded from bytes has to come back unchanged. An
operation on a word that is not a number answers that word made quiet, the first such operand
winning; an operation that fails on numbers answers `indefinite`.

A finite word is `± significand · 2 ^ scale` exactly; `compose` is the way back.
-/

namespace Aperture

/-- A 64-bit word read as a binary64 number. -/
structure Binary64 where
  word : UInt64
deriving DecidableEq, Inhabited

namespace Binary64

/-! ## Fields of a word -/

def exponentField (x : Binary64) : Nat := ((x.word >>> 52) &&& 0x7ff).toNat

def fractionField (x : Binary64) : Nat := (x.word &&& 0x000fffffffffffff).toNat

def isNegative (x : Binary64) : Bool := x.word >>> 63 == 1

/-- Neither an infinity nor something that is not a number. -/
def isFinite (x : Binary64) : Bool := x.exponentField != 2047

def isNaN (x : Binary64) : Bool := x.exponentField == 2047 && x.fractionField != 0

/-- One of the two zeros. -/
def isZero (x : Binary64) : Bool := x.exponentField == 0 && x.fractionField == 0

/-- The lowest coefficient of a word that is not subnormal; its one bit is not stored. -/
def hiddenBit : Nat := 0x0010000000000000

/-- Coefficient of a finite word. -/
def significand (x : Binary64) : Nat :=
  if x.exponentField = 0 then x.fractionField else hiddenBit + x.fractionField

/-- Power of two that the coefficient of a finite word counts. -/
def scale (x : Binary64) : Int :=
  if x.exponentField = 0 then -1074 else (x.exponentField : Int) - 1075

/-! ## Special words -/

/-- Above every number. -/
def infinity : Binary64 := ⟨0x7ff0000000000000⟩

/-- The answer of an operation that has none. -/
def indefinite : Binary64 := ⟨0xfff8000000000000⟩

/-- A word that is not a number, with the bit that keeps it from signalling. -/
def quiet (x : Binary64) : Binary64 := ⟨x.word ||| 0x0008000000000000⟩

/-! ## Operations by way of the machine -/

/-- The machine number of a word. -/
def toFloat (x : Binary64) : Float := Float.ofBits x.word

/-- The word of a machine number that is a number. -/
def ofFloat (x : Float) : Binary64 := if x.isNaN then indefinite else ⟨x.toBits⟩

/-- An operation on one machine number. -/
@[inline] def lift (f : Float → Float) (x : Binary64) : Binary64 :=
  if x.isNaN then x.quiet else ofFloat (f x.toFloat)

/-- An operation on two machine numbers. -/
@[inline] def lift₂ (f : Float → Float → Float) (x y : Binary64) : Binary64 :=
  if x.isNaN then x.quiet else if y.isNaN then y.quiet else ofFloat (f x.toFloat y.toFloat)

/-- Flip the sign bit. -/
def neg (x : Binary64) : Binary64 := ⟨x.word ^^^ 0x8000000000000000⟩

/-- Clear the sign bit. -/
def abs (x : Binary64) : Binary64 := ⟨x.word &&& 0x7fffffffffffffff⟩

/-! ## Exact conversions -/

/-- `± m · 2 ^ e` for `m < 2 ^ 53` and a result that is a binary64 number. -/
def compose (negative : Bool) (m : Nat) (e : Int) : Binary64 :=
  let room := min (52 - m.log2 : Int) (e + 1074)
  let shift := room.toNat
  let fraction := m <<< shift
  let biased := if fraction < hiddenBit then 0 else (e - shift + 1075).toNat
  let magnitude := biased <<< 52 + fraction % hiddenBit
  let sign := if negative then (0x8000000000000000 : UInt64) else 0
  ⟨sign ||| UInt64.ofNat magnitude⟩

/-- The nearest word to a natural number. -/
def ofNat (n : Nat) : Binary64 :=
  if n < UInt64.size then ⟨n.toUInt64.toFloat.toBits⟩ else ofFloat (Float.ofScientific n false 0)

/-- The nearest word to `digits · 10 ^ exponent`. Numbers above `10 ^ 310` are infinite and those
below `10 ^ -400` are zero, so the powers stay small. -/
def ofDecimal (digits : Nat) (exponent : Int) : Binary64 :=
  let length := (Nat.toDigits 10 digits).length
  if digits = 0 ∨ exponent + length < -400 then ⟨0⟩
  else if 310 < exponent + length then infinity
  else if exponent < 0 then ofFloat (Float.ofScientific digits true exponent.natAbs)
  else ofFloat (Float.ofScientific digits false exponent.natAbs)

/-- The number of a 32-bit word. One that is not a number keeps its sign and its payload, which
becomes the high end of the longer one, and is made quiet. -/
def ofBinary32 (w : UInt32) : Binary64 :=
  let fraction := w &&& 0x007fffff
  if w &&& 0x7f800000 = 0x7f800000 ∧ fraction ≠ 0 then
    let sign : UInt64 := (w >>> 31).toUInt64 <<< 63
    quiet ⟨sign ||| (0x7ff0000000000000 : UInt64) ||| fraction.toUInt64 <<< 29⟩
  else ofFloat (Float32.ofBits w).toFloat

/-- The whole part, toward zero, of a finite word. -/
def truncate (x : Binary64) : Option Int :=
  if x.isFinite then
    let magnitude :=
      if 0 ≤ x.scale then x.significand <<< x.scale.toNat
      else x.significand >>> (-x.scale).toNat
    some (if x.isNegative then -(magnitude : Int) else magnitude)
  else none

/-- The whole part within one machine word: zero for a word that is not a number, and the
nearest bound for one that is out of range. -/
def toNat (x : Binary64) : Nat :=
  match x.truncate with
  | some n => min n.toNat (UInt64.size - 1)
  | none => if x.isNaN || x.isNegative then 0 else UInt64.size - 1

/-- Remainder of the division toward zero, with the sign of the dividend. It is exact: over the
smaller of the two scales both operands are whole. -/
def remainder (x m : Binary64) : Binary64 :=
  if x.isNaN then x.quiet
  else if m.isNaN then m.quiet
  else if !x.isFinite || m.isZero then indefinite
  else if !m.isFinite then x
  else
    let e := min x.scale m.scale
    let r := x.significand <<< (x.scale - e).toNat % m.significand <<< (m.scale - e).toNat
    compose x.isNegative r e

/-- The nearest word to `± m · 2 ^ e`, the even coefficient on a tie. Coefficients have 53 bits, and
fewer where the scale would go below that of the subnormal words. -/
def round (negative : Bool) (m : Nat) (e : Int) : Binary64 :=
  let drop := (max (m.log2 - 52 : Int) (-1074 - e)).toNat
  let kept := m >>> drop
  let twice := 2 * (m - kept <<< drop)
  let unit := 1 <<< drop
  let coefficient := if unit < twice ∨ (unit = twice ∧ kept % 2 = 1) then kept + 1 else kept
  let scale := e + drop
  if 1023 < coefficient.log2 + scale then if negative then infinity.neg else infinity
  else if coefficient.log2 = 53 then compose negative (coefficient / 2) (scale + 1)
  else compose negative coefficient scale

/-- `x * y + z` with a single rounding, for finite words. Over the smaller of the two scales the
product and the third operand are whole, so their sum is exact. A zero that comes from cancelling
is positive. -/
def fusedExact (x y z : Binary64) : Binary64 :=
  let negative := x.isNegative != y.isNegative
  let scale := x.scale + y.scale
  let low := min scale z.scale
  let signed (negative : Bool) (m : Nat) : Int := if negative then -(m : Int) else m
  let sum := signed negative ((x.significand * y.significand) <<< (scale - low).toNat) +
    signed z.isNegative (z.significand <<< (z.scale - low).toNat)
  if sum = 0 then ⟨if negative && z.isNegative then 0x8000000000000000 else 0⟩
  else round (decide (sum < 0)) sum.natAbs low

/-- A sum and what rounding took from it. -/
@[inline] def exactSum (x y : Float) : Float × Float :=
  let sum := x + y
  let part := sum - x
  (sum, (x - (sum - part)) + (y - part))

/-- The upper half of the digits of a number. -/
@[inline] def upperHalf (x : Float) : Float :=
  let scaled := 134217729 * x
  scaled - (scaled - x)

/-- A product and what rounding took from it. -/
@[inline] def exactProduct (x y : Float) : Float × Float :=
  let product := x * y
  let a := upperHalf x
  let b := x - a
  let c := upperHalf y
  let d := y - c
  (product, ((a * c - product) + a * d + b * c) + b * d)

/-- A sum rounded to one of its two neighbours: to the one with an odd coefficient. -/
@[inline] def oddSum (x y : Float) : Float :=
  let (sum, missed) := exactSum x y
  if missed == 0 || sum.toBits &&& 1 == 1 then sum
  else if (missed > 0) == (sum > 0) then Float.ofBits (sum.toBits + 1)
  else Float.ofBits (sum.toBits - 1)

/-- `x * y + z` with a single rounding, for numbers whose products are far from both ends of the
range. The sum is exact as a number and a rest, and the rest keeps in its last digit whether it was
cut, so that adding it rounds as if all digits were there. -/
def fusedModerate (x y z : Float) : Float :=
  let (product, rest) := exactProduct x y
  let (a, b) := exactSum z rest
  let (c, d) := exactSum product a
  c + oddSum b d

/-- Whether the square of a number is far from both ends of the range. -/
@[inline] def isModerate (x : Binary64) : Bool :=
  let exponent := (x.word >>> 52) &&& 0x7ff
  623 ≤ exponent && exponent ≤ 1423

/-- `x * y + z` with a single rounding. -/
def fused (x y z : Binary64) : Binary64 :=
  if x.isModerate && y.isModerate && (z.isModerate || z.isZero) then
    ⟨(fusedModerate x.toFloat y.toFloat z.toFloat).toBits⟩
  else if x.isFinite && y.isFinite && z.abs = infinity then z
  else if x.isFinite && y.isFinite && z.isFinite && !x.isZero && !y.isZero then fusedExact x y z
  else lift₂ (· + ·) (lift₂ (· * ·) x y) z

/-- Length of the hypotenuse over sides whose squares neither overflow nor vanish, the longer one
first: the root of the sum of the squares, corrected once by what its square misses. The square is
compared with the sum by way of the excess over one of the sides, where little cancels. -/
def hypotenuse (long short : Float) : Float :=
  let root := (long * long + short * short).sqrt
  let missed :=
    if root ≤ 2 * short then
      let excess := root - short
      long * (2 * excess - long) + (excess - 2 * (long - short)) * excess
    else
      let excess := root - long
      2 * excess * (long - 2 * short) + ((4 * excess - short) * short + excess * excess)
  root - missed / (2 * root)

/-- Length of the hypotenuse over two numbers. A side that is too short to count is added, and huge
and tiny sides are scaled by a power of two first. -/
def hypotFinite (x y : Float) : Float :=
  let long := if x.abs < y.abs then y.abs else x.abs
  let short := if x.abs < y.abs then x.abs else y.abs
  if short.scaleB 54 ≤ long then long + short
  else if long > (1 : Float).scaleB 511 then
    (hypotenuse (long.scaleB (-600)) (short.scaleB (-600))).scaleB 600
  else if short < (1 : Float).scaleB (-459) then
    (hypotenuse (long.scaleB 600) (short.scaleB 600)).scaleB (-600)
  else hypotenuse long short

/-- Length of the hypotenuse. It is infinite when a side is, whatever the other one. -/
def hypot (x y : Binary64) : Binary64 :=
  if x.abs = infinity ∨ y.abs = infinity then infinity else lift₂ hypotFinite x y

/-! ## Instances -/

/-- Whether two words are numbers that a comparison accepts. -/
@[inline] def compare (f : Float → Float → Bool) (x y : Binary64) : Bool :=
  f x.toFloat y.toFloat

instance : Scalar Binary64 where
  add := lift₂ (· + ·)
  sub := lift₂ (· - ·)
  mul := lift₂ (· * ·)
  div := lift₂ (· / ·)
  fused := fused
  neg := neg
  ofNat := ofNat
  ofDecimal := ofDecimal
  abs := abs
  floor := lift Float.floor
  ceil := lift Float.ceil
  modulo x m :=
    let r := remainder x m
    if compare (· < ·) r ⟨0⟩ then lift₂ (· + ·) r m.abs else r
  isFinite := isFinite
  lt := compare (· < ·)
  le := compare (· ≤ ·)
  eq := compare (· == ·)
  infinity := infinity
  truncate := truncate
  toNat := toNat

instance : Trig Binary64 where
  pi := ⟨0x400921fb54442d18⟩
  sin := lift Float.sin
  cos := lift Float.cos
  arcsin := lift Float.asin
  arccos := lift Float.acos
  arctan2 := lift₂ Float.atan2
  hypot := hypot
  sqrt := lift Float.sqrt

instance : Word Binary64 where
  ofWord w := ⟨w⟩
  toWord x := x.word
  ofHalfWord := ofBinary32

end Binary64

end Aperture
