import Aperture.Binary64
import Aperture.Fourier.Cyclic
import Aperture.Fourier.Short

/-!
# Arrangements

How the transform of a line is put together from shorter ones. `Arrangement.ofLength` chooses one
for every length and `Arrangement.transform` carries it out; over exact numbers they all answer the
sum that defines the transform.

A block is extended row by row. The block takes the factors two and three of the length where it
can. What is left after the factors up to eleven is a block, a prime transformed along the powers of
a generator, or a number transformed by a chirp.
-/

namespace Aperture.Fourier

/-- Ways to transform a line. -/
inductive Arrangement where
  /-- A block of `n` cells. -/
  | block (n : Nat)
  /-- So many rows, each with an arrangement of its own. -/
  | rows (count : Nat) (inner : Arrangement)
  /-- A prime number of cells, along the powers of a generator. -/
  | powers (p : Nat) (inner : Arrangement)
  /-- Any number `n` of cells, by a chirp. -/
  | chirp (n : Nat) (inner : Arrangement)
deriving DecidableEq

/-! ## Factors -/

/-- The exponents of small primes in a length, and the factor that is left. -/
structure Factors where
  twos : Nat
  threes : Nat
  fives : Nat
  sevens : Nat
  elevens : Nat
  rest : Nat
deriving DecidableEq

namespace Factors

/-- Exponent of `p` in `n`, and the cofactor, for at most `fuel` divisions. -/
def divideOut (p : Nat) : Nat → Nat → Nat × Nat
  | 0, n => (0, n)
  | fuel + 1, n =>
    if n % p = 0 then
      let (e, rest) := divideOut p fuel (n / p)
      (e + 1, rest)
    else (0, n)

/-- The factors of a positive length. -/
def ofNat (n : Nat) : Factors :=
  let fuel := n.log2
  let (twos, n) := divideOut 2 fuel n
  let (threes, n) := divideOut 3 fuel n
  let (fives, n) := divideOut 5 fuel n
  let (sevens, n) := divideOut 7 fuel n
  let (elevens, rest) := divideOut 11 fuel n
  { twos, threes, fives, sevens, elevens, rest }

/-- The product of the twos and the threes. -/
def smooth (f : Factors) : Nat := Nat.pow 2 f.twos * Nat.pow 3 f.threes

end Factors

namespace Arrangement

/-- Number of cells. -/
def length : Arrangement → Nat
  | block n => n
  | rows count inner => count * inner.length
  | powers p _ => p
  | chirp n _ => n

variable {R : Type} [Scalar R] [Trig R]

/-- The transform of a line. -/
def transform (direction : Direction) :
    Arrangement → Array (Complex R) → Array (Complex R)
  | block n => Fourier.block direction n
  | rows count inner =>
    layered count inner.length (column direction count) (inner.transform direction) fun c k =>
      rootTimes direction (count * inner.length) (c * k)
  | powers p inner => alongPowers direction p (inner.transform direction)
  | chirp n inner => chirped direction n inner.length (inner.transform direction)

/-! ## Choice -/

/-- A base extended row by row. -/
def extend (base : Arrangement) (counts : List Nat) : Arrangement :=
  counts.foldl (fun inner count => rows count inner) base

/-- The row counts that a length without other factors is cut into, longer rows first. -/
def rowCounts (n : Nat) : List Nat :=
  if [2, 3, 4, 5, 6, 7, 8, 9, 12, 16].contains n then [n]
  else
    let f := Factors.ofNat n
    let dozens := min (f.twos / 2) f.threes
    let twos := f.twos - 2 * dozens
    let threes := f.threes - dozens
    let six := twos % 3 = 1 ∧ threes % 2 = 1
    List.replicate dozens 12 ++ List.replicate f.elevens 11 ++ List.replicate (threes / 2) 9 ++
      List.replicate (twos / 3) 8 ++ List.replicate f.sevens 7 ++ (if six then [6] else []) ++
      List.replicate f.fives 5 ++ (if twos % 3 = 2 then [4] else []) ++
      (if threes % 2 = 1 ∧ ¬six then [3] else []) ++ (if twos % 3 = 1 ∧ ¬six then [2] else [])

/-- The arrangement that a length with no factor beyond eleven starts from. The counts go with
lengths that would be cut badly otherwise. -/
def base (n : Nat) (f : Factors) : Arrangement :=
  if isBlock n then block n
  else if 4 < f.smooth && isBlock f.smooth then block f.smooth
  else
    match f.smooth with
    | 48 => extend (block 12) [4]
    | 72 => extend (block 24) [3]
    | 96 => extend (block 12) [8]
    | 108 => extend (block 18) [6]
    | 288 => extend (block 32) [9]
    | 768 => extend (block 12) [8, 8]
    | _ =>
      if 4 ≤ f.twos then
        match f.threes, f.twos % 3 with
        | 0, 0 => block 512
        | 0, 1 => block 128
        | 0, _ => block 256
        | 1, 0 => block 24
        | 1, 1 => extend (block 32) [12]
        | 1, _ => extend (block 32) [12, 16]
        | 2, 0 => extend (block 36) [16]
        | 2, 1 => block 36
        | 2, _ => block 18
        | _, _ => block 36
      else if 3 ≤ f.threes then
        match f.twos with
        | 0 => block 27
        | 2 => block 36
        | _ => block 18
      else if 0 < f.elevens then block 11
      else if 0 < f.sevens then block 7
      else block 5

/-- A base, extended to `n` cells. -/
def complete (n : Nat) (base : Arrangement) : Arrangement :=
  if base.length = n then base else base.extend (rowCounts (n / base.length))

/-- The arrangement of a length that needs no convolution. -/
def ofSmooth (n : Nat) : Arrangement :=
  let f := Factors.ofNat n
  complete n (if f.rest = 1 then base n f else block f.rest)

/-- The length for a chirp of `n` cells: the fewest cells that are enough, among the lengths with
threes and at least two twos, and not too many twos for the threes. -/
def chirpLength (n : Nat) : Nat :=
  let candidates := (List.range 40).filterMap fun threes =>
    let odd := Nat.pow 3 threes
    let twos := max 2 (((2 * n - 2) / odd).log2 + 1)
    if (threes = 0 ∧ 13 < twos) ∨ (threes < 4 ∧ 14 < twos) then none
    else some (Nat.pow 2 twos * odd)
  candidates.foldl min (candidates.headD 0)

/-- The arrangement of a length. -/
def ofLength (n : Nat) : Arrangement :=
  if n < 10 then block n
  else
    let rest := (Factors.ofNat n).rest
    if rest = 1 ∨ isBlock rest then ofSmooth n
    else if isPrime rest ∧ isBlock (Factors.ofNat (rest - 1)).rest then
      complete n (powers rest (ofSmooth (rest - 1)))
    else complete n (chirp rest (ofSmooth (chirpLength rest)))

end Arrangement

variable {R : Type} [Scalar R] [Trig R]

/-- The transform of a line in the arrangement for its length. -/
def arranged (direction : Direction) (line : Array (Complex R)) : Array (Complex R) :=
  let cells := (Arrangement.ofLength line.size).transform direction line
  Array.ofFn fun (k : Fin line.size) => cells.getD k Complex.zero

@[simp] theorem size_arranged (direction : Direction) (line : Array (Complex R)) :
    (arranged direction line).size = line.size := by
  simp [arranged]

instance : Spectral Binary64 where
  line := arranged
  size_line := size_arranged

end Aperture.Fourier
