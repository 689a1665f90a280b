import Aperture.Vec3

/-!
# Groups of positions

A correlation group of any number of stations is reduced to one vector: every position is taken
relative to the first one and the differences are added up. For two stations this is the plain
difference.
-/

namespace Aperture.Group

variable {R : Type} [Scalar R]

/-- The reduced vector of a group, zero for fewer than two positions. -/
def vector : List (Vec3 R) → Vec3 R
  | [] => Vec3.zero
  | first :: rest => rest.foldl (fun sum p => sum + (p - first)) Vec3.zero

/-- The mean position of a group, zero for an empty one. -/
def center (positions : List (Vec3 R)) : Vec3 R :=
  if positions.isEmpty then Vec3.zero
  else (positions.foldl (· + ·) Vec3.zero).divide (Scalar.ofNat positions.length)

/-- Length of the reduced vector. -/
def length [Trig R] (positions : List (Vec3 R)) : R := (vector positions).norm

@[simp] theorem vector_nil : vector ([] : List (Vec3 R)) = Vec3.zero := rfl

@[simp] theorem vector_singleton (p : Vec3 R) : vector [p] = Vec3.zero := rfl

theorem vector_pair (p q : Vec3 R) : vector [p, q] = Vec3.zero + (q - p) := rfl

end Aperture.Group
