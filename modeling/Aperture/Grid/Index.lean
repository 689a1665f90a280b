import Aperture.Failure

/-!
# Grid indices

A grid is laid out flat with its first axis varying fastest. `flatten?` gives the flat index of a
position and `unflatten` the position of a flat index; within the grid they are inverse to each
other. `cellAt` and `setCell` read and write a cell by its flat index, which has to be in bounds.
-/

namespace Aperture.Grid

/-- Number of cells of a grid with the given axis sizes. -/
def volume (shape : List Nat) : Nat := shape.foldr (· * ·) 1

@[simp] theorem volume_nil : volume [] = 1 := rfl

@[simp] theorem volume_cons (n : Nat) (shape : List Nat) :
    volume (n :: shape) = n * volume shape := rfl

/-- Flat index of a position, `none` when the number of coordinates differs from the number of
axes or a coordinate is out of bounds. -/
def flatten? : List Nat → List Nat → Option Nat
  | [], [] => some 0
  | p :: position, n :: shape =>
    if p < n then (flatten? position shape).map fun index => p + n * index else none
  | _, _ => none

/-- Position of a flat index. An axis without cells gets the coordinate zero. -/
def unflatten (index : Nat) : List Nat → List Nat
  | [] => []
  | n :: shape =>
    if n = 0 then 0 :: unflatten index shape else index % n :: unflatten (index / n) shape

@[simp] theorem length_unflatten (index : Nat) (shape : List Nat) :
    (unflatten index shape).length = shape.length := by
  induction shape generalizing index with
  | nil => rfl
  | cons n shape ih => by_cases h : n = 0 <;> simp [unflatten, h, ih]

/-! ## Cells -/

variable {α : Type}

/-- A cell that has to be there. -/
def cellAt (data : Array α) (i : Nat) : Result α :=
  if h : i < data.size then .ok data[i] else abort .indexOutOfBounds

/-- Put a value in a cell that has to be there. -/
def setCell (data : Array α) (i : Nat) (value : α) : Result (Array α) :=
  if h : i < data.size then .ok (data.set i value h) else abort .indexOutOfBounds

theorem cellAt_of_lt {data : Array α} {i : Nat} (h : i < data.size) :
    cellAt data i = .ok data[i] := dif_pos h

theorem setCell_of_lt {data : Array α} {i : Nat} (h : i < data.size) (value : α) :
    setCell data i value = .ok (data.set i value h) := dif_pos h

end Aperture.Grid
