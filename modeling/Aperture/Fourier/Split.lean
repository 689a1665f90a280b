import Aperture.Fourier.Complex

/-!
# Split lines

A line of `rows * columns` cells laid out as a grid, whose columns are transformed first and whose
rows after that. If the column and the row functions are transforms of their lengths, so is the
whole:

* in a `layered` grid the rows follow each other, and cell `k` of column `c` is turned by the root
  with exponent `c * k` in between;
* in a `crossed` grid with coprime sides nothing is turned. Cell `t` of the line sits where its
  remainders say.
-/

namespace Aperture.Fourier

variable {R : Type} [Scalar R]

/-- The rows of a grid after its columns and then its rows are transformed, where `turn c k` is
applied to cell `k` of column `c` in between. -/
def sweep (rows columns : Nat) (column row : Array (Complex R) → Array (Complex R))
    (turn : Nat → Nat → Complex R → Complex R) (cell : Nat → Nat → Complex R) :
    Array (Array (Complex R)) :=
  let done : Array (Array (Complex R)) := Array.ofFn fun (c : Fin columns) =>
    (column (Array.ofFn fun (r : Fin rows) => cell r c)).mapIdx fun k a => turn c k a
  Array.ofFn fun (k : Fin rows) =>
    row (Array.ofFn fun (c : Fin columns) => (done.getD c #[]).getD k Complex.zero)

/-- The transform of a line cut into rows. The first cell of a column is never turned. -/
def layered (rows columns : Nat) (column row : Array (Complex R) → Array (Complex R))
    (turn : Nat → Nat → Complex R → Complex R) (line : Array (Complex R)) : Array (Complex R) :=
  let grid := sweep rows columns column row (fun c k a => if k = 0 then a else turn c k a)
    fun r c => line.getD (r * columns + c) Complex.zero
  Array.ofFn fun (t : Fin (rows * columns)) =>
    (grid.getD (t % rows) #[]).getD (t / rows) Complex.zero

/-- The transform of a line wound around a grid with coprime sides. -/
def crossed (rows columns : Nat) (column row : Array (Complex R) → Array (Complex R))
    (line : Array (Complex R)) : Array (Complex R) :=
  let grid := sweep rows columns column row (fun _ _ a => a)
    fun r c => line.getD ((r * columns + c * rows) % (rows * columns)) Complex.zero
  Array.ofFn fun (t : Fin (rows * columns)) =>
    (grid.getD (t % rows) #[]).getD (t % columns) Complex.zero

@[simp] theorem size_layered (rows columns : Nat)
    (column row : Array (Complex R) → Array (Complex R))
    (turn : Nat → Nat → Complex R → Complex R) (line : Array (Complex R)) :
    (layered rows columns column row turn line).size = rows * columns := by
  simp [layered]

@[simp] theorem size_crossed (rows columns : Nat)
    (column row : Array (Complex R) → Array (Complex R)) (line : Array (Complex R)) :
    (crossed rows columns column row line).size = rows * columns := by
  simp [crossed]

end Aperture.Fourier
