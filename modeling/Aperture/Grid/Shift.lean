import Aperture.Grid.Index
import Aperture.Scalar

/-!
# Quadrant shift

Every axis is rotated by half its size, which moves the zero frequency of a spectrum to the
center.
-/

namespace Aperture.Grid

/-- The position half a turn further on every axis. There is none on an axis without cells. -/
def opposite : List Nat → List Nat → Result (List Nat)
  | p :: position, n :: shape =>
    if n = 0 then abort .divisionByZero
    else (opposite position shape).map ((p + n / 2) % n :: ·)
  | _, _ => .ok []

variable {R : Type} [Scalar R]

/-- Every cell moved to the opposite position. Cells that nothing is moved to are zero. -/
def shift (data : Array R) (shape : List Nat) : Result (Array R) :=
  (List.range data.size).foldlM (fun out i => do
    let position ← opposite (unflatten i shape) shape
    match flatten? position shape with
    | none => .ok out
    | some j => do
      let value ← cellAt data i
      setCell out j value)
    (Array.replicate data.size Scalar.zero)

end Aperture.Grid
