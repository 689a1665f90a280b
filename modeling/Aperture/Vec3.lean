import Aperture.Scalar

/-!
# Vectors

Points and displacements in three dimensions. Every operation works component by component, in
the order in which the formula is written.
-/

namespace Aperture

structure Vec3 (R : Type) where
  x : R
  y : R
  z : R
deriving DecidableEq, Inhabited

namespace Vec3

variable {R : Type} [Scalar R]

def zero : Vec3 R := ⟨Scalar.zero, Scalar.zero, Scalar.zero⟩

instance : Add (Vec3 R) where
  add a b := ⟨a.x + b.x, a.y + b.y, a.z + b.z⟩

instance : Sub (Vec3 R) where
  sub a b := ⟨a.x - b.x, a.y - b.y, a.z - b.z⟩

/-- Every component multiplied by `k`. -/
def scale (k : R) (a : Vec3 R) : Vec3 R := ⟨a.x * k, a.y * k, a.z * k⟩

/-- Every component divided by `k`. -/
def divide (a : Vec3 R) (k : R) : Vec3 R := ⟨a.x / k, a.y / k, a.z / k⟩

/-- Euclidean length. -/
def norm [Trig R] (a : Vec3 R) : R := Trig.sqrt (a.x * a.x + a.y * a.y + a.z * a.z)

@[simp] theorem add_x (a b : Vec3 R) : (a + b).x = a.x + b.x := rfl
@[simp] theorem add_y (a b : Vec3 R) : (a + b).y = a.y + b.y := rfl
@[simp] theorem add_z (a b : Vec3 R) : (a + b).z = a.z + b.z := rfl
@[simp] theorem sub_x (a b : Vec3 R) : (a - b).x = a.x - b.x := rfl
@[simp] theorem sub_y (a b : Vec3 R) : (a - b).y = a.y - b.y := rfl
@[simp] theorem sub_z (a b : Vec3 R) : (a - b).z = a.z - b.z := rfl

end Vec3

end Aperture
