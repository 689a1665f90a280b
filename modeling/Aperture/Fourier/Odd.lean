import Aperture.Fourier.Turn

/-!
# Lines of odd length

The cells `j` and `n - j` of a line of odd length meet the same cosine and opposite sines. So their
sums are weighted by cosines to **levels** and their differences, a quarter of a turn on, by sines
to **swings**; the cells `k` and `n - k` of the transform are the first cell with the level and with
the swing added or taken away.

The functions below differ in where the first cell enters and in which products are rounded.
-/

namespace Aperture.Fourier

open Scalar

variable {R : Type} [Scalar R]

/-- Sums of the cells `j` and `n - j`, for `j` from one on. -/
def mirrorSums (line : Array (Complex R)) : List (Complex R) :=
  (List.range (line.size / 2)).map fun j =>
    line.getD (j + 1) Complex.zero + line.getD (line.size - 1 - j) Complex.zero

/-- Differences of the cells `j` and `n - j`, for `j` from one on. -/
def mirrorDifferences (line : Array (Complex R)) : List (Complex R) :=
  (List.range (line.size / 2)).map fun j =>
    line.getD (j + 1) Complex.zero - line.getD (line.size - 1 - j) Complex.zero

/-- The line with these first cell, cells in the first half, and cells in the second half, the last
one first. -/
def mirrored (first : Complex R) (halves : List (Complex R × Complex R)) : Array (Complex R) :=
  (first :: halves.map Prod.fst ++ (halves.map Prod.snd).reverse).toArray

/-- Neighbours added up. -/
def addNeighbours : List (Complex R) → List (Complex R)
  | a :: b :: rest => (a + b) :: addNeighbours rest
  | rest => rest

/-- The sum of at most eight numbers, neighbours first. -/
def sumByPairs (cells : List (Complex R)) : Complex R :=
  (addNeighbours (addNeighbours (addNeighbours cells))).headD Complex.zero

/-- Numbers weighted and added to a start, each rounded once. -/
def weighOnto (start : Complex R) (cells : List (Complex R × R)) : Complex R :=
  cells.foldl (fun sum (a, w) => scaleAdd a w sum) start

/-- Numbers weighted and added up, each rounded once from the second on. -/
def weigh : List (Complex R × R) → Complex R
  | [] => Complex.zero
  | (a, w) :: rest => weighOnto (a.scale w) rest

variable [Trig R]

/-- A root of odd order, by way of the root in the first half with the same cosine. -/
def foldedRoot (direction : Direction) (n k : Nat) : Complex R :=
  if n / 2 < k % n then (root direction n (n - k % n)).conj else root direction n (k % n)

/-- The roots that cell `k` of the transform weighs the pairs of cells with. -/
def pairRoots (direction : Direction) (n k : Nat) : List (Complex R) :=
  (List.range (n / 2)).map fun j => foldedRoot direction n ((j + 1) * k)

/-- The levels and swings of the cells in the first half of the transform. -/
def levels (direction : Direction) (line : Array (Complex R))
    (level swing : List (Complex R × R) → Complex R) : List (Complex R × Complex R) :=
  let sums := mirrorSums line
  let turns := (mirrorDifferences line).map Complex.turn
  (List.range (line.size / 2)).map fun k =>
    let roots : List (Complex R) := pairRoots direction line.size (k + 1)
    (level (sums.zip (roots.map Complex.re)), swing (turns.zip (roots.map Complex.im)))

/-- Transform of an odd number of cells, with rounded products. -/
def oddPlain (direction : Direction) (line : Array (Complex R)) : Array (Complex R) :=
  let first := line.getD 0 Complex.zero
  let sums := mirrorSums line
  let differences := mirrorDifferences line
  mirrored (sums.foldl (· + ·) first) ((List.range (line.size / 2)).map fun k =>
    let roots : List (Complex R) := pairRoots direction line.size (k + 1)
    let level := ((sums.zip roots).map fun (a, w) => a.scale w.re).foldl (· + ·) first
    let swing : Complex R :=
      match (differences.zip roots).map fun (a, w) => a.scale w.im with
      | [] => Complex.zero
      | a :: rest => rest.foldl (· + ·) a
    (level + swing.turn, level - swing.turn))

/-- Transform of three cells. -/
def three (direction : Direction) (line : Array (Complex R)) : Array (Complex R) :=
  let first := line.getD 0 Complex.zero
  let w : Complex R := root direction 3 1
  let sum := line.getD 1 Complex.zero + line.getD 2 Complex.zero
  let swing := (line.getD 1 Complex.zero - line.getD 2 Complex.zero).turn
  let level := scaleAdd sum w.re first
  #[first + sum, scaleAdd swing w.im level, scaleAdd swing (-w.im) level]

/-- Transform of five, seven or eleven cells, the levels counted from the first cell on. -/
def odd (direction : Direction) (swing : List (Complex R × R) → Complex R)
    (line : Array (Complex R)) : Array (Complex R) :=
  let first := line.getD 0 Complex.zero
  mirrored (sumByPairs (mirrorSums line ++ [first]))
    ((levels direction line (weighOnto first) swing).map fun (level, swing) =>
      (level + swing, level - swing))

/-- Transform of five or seven cells, the first cell coming last. The third level of seven cells has
it added before its swing. -/
def oddLate (direction : Direction) (line : Array (Complex R)) : Array (Complex R) :=
  let first := line.getD 0 Complex.zero
  mirrored (sumByPairs (mirrorSums line ++ [first]))
    ((levels direction line weigh weigh).mapIdx fun k (level, swing) =>
      if k = 2 then (level + first + swing, level + first - swing)
      else (first + (level + swing), first + (level - swing)))

end Aperture.Fourier
