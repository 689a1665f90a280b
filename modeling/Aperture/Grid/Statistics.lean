import Aperture.Scalar

/-!
# Statistics

Range and mean of a buffer, and the affine map that gives it another range. Cells that are not
numbers do not count for the range.
-/

namespace Aperture.Grid

open Scalar

variable {R : Type} [Scalar R]

/-- The cell that stays after comparing all of them in order with `better`, `none` for a buffer
without numbers. The fold starts at the first number, so no bound of the empty set enters it. -/
def extreme (better : R → R → R) (data : Array R) : Option R :=
  data.foldl (fun best x => if isNumber x then some (best.elim x (better · x)) else best) none

/-- Smallest cell, infinity for a buffer without numbers. -/
def minimum (data : Array R) : R := (extreme least data).getD infinity

/-- Largest cell, minus infinity for a buffer without numbers. -/
def maximum (data : Array R) : R := (extreme greatest data).getD (-infinity)

/-- Arithmetic mean, zero for an empty buffer. The sum starts from the negative zero, the neutral
element of addition. -/
def mean (data : Array R) : R :=
  if data.isEmpty then zero else data.foldl (· + ·) (-zero) / ofNat data.size

/-- Map the range of a buffer to `[low, high]`. A buffer whose range is a single number, or not
finite, is filled with `low`. -/
def stretch (data : Array R) (low high : R) : Array R :=
  let least := minimum data
  let range := maximum data - least
  if isPositive range then
    let scale := (high - low) / range
    data.map fun x => (x - least) * scale + low
  else data.map fun _ => low

@[simp] theorem size_stretch (data : Array R) (low high : R) :
    (stretch data low high).size = data.size := by
  simp only [stretch]
  split <;> simp

end Aperture.Grid
