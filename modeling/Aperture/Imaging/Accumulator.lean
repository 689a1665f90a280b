import Aperture.Extent

/-!
# Accumulators

How the values written by the workers become an image.

* A `SharedImage` is written by all workers. A value is folded into its cell with the number of
  active workers as the weight of what is there: `cell ← (cell · active + value) / (active + 1)`.
* A `MeanImage` is written by one worker. Each cell is the mean of its values.
* `MeanImage.average` averages such images cell by cell, over those that wrote the cell.

A write outside the image changes nothing. The values of a mean are counted in a word of 32 bits; to
count one more than it holds is a fault.
-/

namespace Aperture

open Scalar

variable {R : Type} [Scalar R]

/-! ## The shared image -/

/-- An image written by several workers. -/
structure SharedImage (R : Type) where
  cells : Array R
  /-- Number of workers that have begun and not ended. -/
  active : Nat

/-- What a worker does to the shared image. -/
inductive Event (R : Type) where
  | start
  | write (cell : Nat) (value : R)
  | finish

namespace SharedImage

/-- An image of zeros without workers. -/
def blank (size : Nat) : SharedImage R := ⟨Array.replicate size zero, 0⟩

/-- A blank image, if it fits into the memory. -/
def new (width height : Nat) : Result (SharedImage R) :=
  (Extent.zeros width height).map fun cells => ⟨cells, 0⟩

theorem new_of_fits {width height : Nat} (h : Extent.Fits width height) :
    (new width height : Result (SharedImage R)) = .ok (blank (width * height)) := by
  rw [new, Extent.zeros_of_fits h]
  rfl

/-- A worker begins. -/
def start (s : SharedImage R) : SharedImage R := { s with active := s.active + 1 }

/-- A worker ends. -/
def finish (s : SharedImage R) : SharedImage R := { s with active := s.active - 1 }

/-- Fold a value into a cell. -/
def write (s : SharedImage R) (cell : Nat) (value : R) : SharedImage R :=
  let weight : R := ofNat s.active
  { s with cells := s.cells.modify cell fun x => (x * weight + value) / (weight + one) }

/-- The image after an event. -/
def apply (s : SharedImage R) : Event R → SharedImage R
  | .start => s.start
  | .write cell value => s.write cell value
  | .finish => s.finish

@[simp] theorem size_apply (s : SharedImage R) (e : Event R) :
    (s.apply e).cells.size = s.cells.size := by
  cases e <;> simp [apply, start, finish, write]

end SharedImage

/-! ## Images of means -/

/-- A mean and the number of values it was taken over. -/
structure Mean (R : Type) where
  value : R
  count : UInt32

namespace Mean

/-- How many values can be counted. -/
def room : Nat := UInt32.size - 1

/-- The mean of nothing. -/
def empty : Mean R := ⟨zero, 0⟩

/-- The mean with one value more. -/
def fold (m : Mean R) (x : R) : Mean R :=
  let n : R := ofNat m.count.toNat
  ⟨(m.value * n + x) / (n + one), m.count + 1⟩

/-- Fold a value in, if it can be counted. -/
def add (m : Mean R) (x : R) : Result (Mean R) :=
  if m.count.toNat < room then .ok (m.fold x) else abort .overflow

/-- Fold in the mean of a cell, if values were taken there. -/
def join (m : Mean R) (cell : Option (Mean R)) : Result (Mean R) :=
  match cell with
  | some c => if c.count = 0 then .ok m else m.add c.value
  | none => .ok m

end Mean

/-- An image whose cells are means. -/
structure MeanImage (R : Type) where
  cells : Array (Mean R)

namespace MeanImage

/-- An image without values. -/
def blank (size : Nat) : MeanImage R := ⟨Array.replicate size Mean.empty⟩

/-- Take a value into a cell. -/
def write (p : MeanImage R) (cell : Nat) (value : R) : Result (MeanImage R) :=
  match p.cells[cell]? with
  | none => .ok p
  | some m => do
    let m ← m.add value
    .ok ⟨p.cells.setIfInBounds cell m⟩

/-- Take the cells of an image that were written into means of the same cells. -/
def merge (means p : MeanImage R) : Result (MeanImage R) := do
  let cells ← (means.cells.toList.mapIdx fun cell m => m.join p.cells[cell]?).mapM id
  .ok ⟨cells.toArray⟩

/-- The average of images, an image of `size` cells. -/
def average (images : List (MeanImage R)) (size : Nat) : Result (Array R) := do
  let means ← images.foldlM merge (.blank size)
  .ok (means.cells.map Mean.value)

end MeanImage

end Aperture
