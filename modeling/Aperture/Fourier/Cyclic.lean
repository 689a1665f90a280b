import Aperture.Fourier.Turn

/-!
# Transforms as cyclic convolutions

Two ways to transform a line of any length by transforms of another length.

* `alongPowers`: the powers of a generator run through all cells but the first of a line of prime
  length `p`. Read in that order the transform is a cyclic convolution of `p - 1` cells.
* `chirped`: since `2 j k = j² + k² - (k - j)²`, the transform is a convolution by the chirp with
  exponents `j²`. It is cyclic in `m` cells for any `m` of at least `2 n - 1`.

Both turn a convolution into products by a transform, and back by the same transform between
conjugates.
-/

namespace Aperture.Fourier

open Scalar

/-! ## Primes -/

/-- Whether nothing from `d` up to the root of `n` divides `n`, for `fuel` such candidates. -/
def isUndivided (n : Nat) : Nat → Nat → Bool
  | 0, _ => true
  | fuel + 1, d => n < d * d || (n % d != 0 && isUndivided n fuel (d + 1))

/-- Whether a number is prime. -/
def isPrime (n : Nat) : Bool := 2 ≤ n && isUndivided n n 2

/-- The powers of `g` modulo `p`, from exponent zero to `p - 2`. -/
def residuePowers (g p : Nat) : Array Nat :=
  (List.range (p - 2)).foldl (fun powers _ => powers.push (powers.back?.getD 1 * g % p)) #[1]

/-- The smallest number whose powers are all residues of a prime `p` but zero. -/
def generator (p : Nat) : Nat :=
  ((List.range p).find? fun g => 2 ≤ g && !(residuePowers g p).toList.tail.contains 1).getD 1

variable {R : Type} [Scalar R] [Trig R]

/-! ## Along the powers of a generator -/

/-- Transform of a line of prime length `p` by the transform `inner` of `p - 1` cells. -/
def alongPowers (direction : Direction) (p : Nat)
    (inner : Array (Complex R) → Array (Complex R)) (line : Array (Complex R)) :
    Array (Complex R) :=
  let n := p - 1
  let powers := residuePowers (generator p) p
  let first := line.getD 0 Complex.zero
  let weights := inner (Array.ofFn fun (i : Fin n) =>
    (root direction p (powers.getD ((n - i) % n) 1)).scale (one / ofNat n))
  let spectrum := inner (Array.ofFn fun (i : Fin n) =>
    line.getD (powers.getD ((i + 1) % n) 0) Complex.zero)
  let products := spectrum.mapIdx fun i a =>
    let product := mulFused a.conj (weights.getD i Complex.zero).conj
    if i = 0 then product + first.conj else product
  let cells := inner products
  (List.range n).foldl
    (fun out i => out.setIfInBounds (powers.getD (n - 1 - i) 0) (cells.getD i Complex.zero).conj)
    (Array.replicate p (first + spectrum.getD 0 Complex.zero))

/-! ## By a chirp -/

/-- The chirp of a line of `n` cells. -/
def chirp (direction : Direction) (n j : Nat) : Complex R :=
  root direction (2 * n) (j * j % (2 * n))

/-- Transform of a line of `n` cells by the transform `inner` of `m` cells. -/
def chirped (direction : Direction) (n m : Nat)
    (inner : Array (Complex R) → Array (Complex R)) (line : Array (Complex R)) :
    Array (Complex R) :=
  let against (j : Nat) : Complex R := (chirp direction.opposite n j).scale (one / ofNat m)
  let weights := inner (Array.ofFn fun (i : Fin m) =>
    if i < n then against i else if m < i + n then against (m - i) else Complex.zero)
  let spectrum := inner (Array.ofFn fun (i : Fin m) =>
    if i < n then mulFused (line.getD i Complex.zero) (chirp direction n i) else Complex.zero)
  let cells := inner (spectrum.mapIdx fun i a =>
    mulFused a.conj (weights.getD i Complex.zero).conj)
  Array.ofFn fun (i : Fin n) =>
    mulFused (cells.getD i Complex.zero).conj (chirp direction n i)

end Aperture.Fourier
