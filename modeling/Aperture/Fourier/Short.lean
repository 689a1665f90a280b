import Aperture.Fourier.Odd
import Aperture.Fourier.Split

/-!
# Short lines

Transforms of short lines with few operations, of two kinds.

* A **column** is one of many lines that are transformed side by side: `column` has a function for
  every length that a longer line is cut into.
* A **block** is a line transformed by itself. Small ones are written out; the others are grids
  whose columns and rows are columns of the first kind.
-/

namespace Aperture.Fourier

open Scalar

variable {R : Type} [Scalar R]

/-- Transform of two cells. -/
def pair (line : Array (Complex R)) : Array (Complex R) :=
  let a := line.getD 0 Complex.zero
  let b := line.getD 1 Complex.zero
  #[a + b, a - b]

/-- Transform of four cells. -/
def four (direction : Direction) (line : Array (Complex R)) : Array (Complex R) :=
  let cell (i : Nat) := line.getD i Complex.zero
  let even := cell 0 + cell 2
  let odd := cell 1 + cell 3
  let difference := cell 0 - cell 2
  let swing := quarter direction (cell 1 - cell 3)
  #[even + odd, difference + swing, even - odd, difference - swing]

variable [Trig R]

/-! ## Columns -/

/-- Transform of eight cells. -/
def eight (direction : Direction) : Array (Complex R) → Array (Complex R) :=
  layered 4 2 (four direction) pair fun c k => turned direction 8 (c * k)

/-- Transform of nine cells. -/
def nine (direction : Direction) : Array (Complex R) → Array (Complex R) :=
  layered 3 3 (three direction) (three direction) fun c k a =>
    if c = 0 then a else timesRoot direction 9 (c * k) a

/-- Transform of sixteen cells. -/
def sixteen (direction : Direction) : Array (Complex R) → Array (Complex R) :=
  layered 4 4 (four direction) (four direction) fun c k => turned direction 16 (c * k)

/-- Transform of thirty-two cells. -/
def thirtyTwo (direction : Direction) : Array (Complex R) → Array (Complex R) :=
  layered 4 8 (four direction) (eight direction) fun c k => turned direction 32 (c * k)

/-- Transform of a column. Lengths that nothing is cut into have the plain sum. -/
def column (direction : Direction) (n : Nat) (line : Array (Complex R)) : Array (Complex R) :=
  match n with
  | 2 => pair line
  | 3 => three direction line
  | 4 => four direction line
  | 5 | 7 | 11 => odd direction weigh line
  | 6 => crossed 3 2 (three direction) pair line
  | 8 => eight direction line
  | 9 => nine direction line
  | 12 => crossed 4 3 (four direction) (three direction) line
  | 16 => sixteen direction line
  | 32 => thirtyTwo direction line
  | _ => direct direction line

/-! ## Blocks -/

/-- Rows and columns of the blocks that are grids. -/
def gridSides : Nat → Option (Nat × Nat)
  | 8 => some (2, 4)
  | 9 => some (3, 3)
  | 12 => some (4, 3)
  | 16 => some (4, 4)
  | 18 => some (6, 3)
  | 24 => some (4, 6)
  | 27 => some (3, 9)
  | 32 => some (4, 8)
  | 36 => some (6, 6)
  | 64 => some (8, 8)
  | 128 => some (8, 16)
  | 256 => some (8, 32)
  | 512 => some (16, 32)
  | _ => none

/-- Whether lines of this length are blocks. -/
def isBlock (n : Nat) : Bool :=
  (gridSides n).isSome || [1, 2, 3, 4, 5, 6, 7, 11, 13, 17, 19, 23, 29, 31].contains n

/-- Transform of a grid. Columns are taken two at a time, and the first one, which needs no turn, is
left out of that only when their number is odd. -/
def grid (direction : Direction) (rows columns : Nat) (line : Array (Complex R)) :
    Array (Complex R) :=
  layered rows columns (column direction rows) (column direction columns) (fun c k a =>
    if c = 0 ∧ columns % 2 = 1 then a else timesRoot direction (rows * columns) (c * k) a) line

/-- Transform of a block. -/
def block (direction : Direction) (n : Nat) (line : Array (Complex R)) : Array (Complex R) :=
  match n with
  | 1 => line
  | 2 => pair line
  | 4 => four direction line
  | 5 | 7 => oddLate direction line
  | 6 => crossed 3 2 (oddPlain direction) pair line
  | 11 => odd direction (weighOnto Complex.zero) line
  | 3 | 13 | 17 | 19 | 23 | 29 | 31 => oddPlain direction line
  | _ =>
    match gridSides n with
    | some (rows, columns) => grid direction rows columns line
    | none => direct direction line

end Aperture.Fourier
