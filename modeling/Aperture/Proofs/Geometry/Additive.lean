import Aperture.Baseline
import Aperture.Proofs.Exact.Scalar

/-!
# Projections are additive

Over exact scalars and with any circle functions, a projection takes sums of displacements to sums,
whatever it looks at and however it is pointed: `Baseline.project_add`, and from it what becomes of
differences and of the reduced vector of a group (`Baseline.project_vector_z`).
-/

namespace Aperture

open Exact

variable {K : Type} [Field K] [LinearOrder K] [FloorRing K]

/-! ## Vectors -/

attribute [ext] Vec3

theorem Vec3.sub_sub_sub_right (p q c : Vec3 K) : (p - c) - (q - c) = p - q := by
  ext <;> simp

/-- A group that is moved as a whole has the same vector. -/
theorem Group.vector_map_sub (c : Vec3 K) (positions : List (Vec3 K)) :
    vector (positions.map fun p => p - c) = vector positions := by
  cases positions with
  | nil => rfl
  | cons first rest =>
    simp only [vector, List.map_cons, List.foldl_map, Vec3.sub_sub_sub_right]

variable [Trig K]

/-! ## Projections -/

theorem Earth.toLocal_add (p q : Vec3 K) (latitude longitude : K) :
    toLocal (p + q) latitude longitude =
      toLocal p latitude longitude + toLocal q latitude longitude := by
  ext <;> simp only [toLocal, Vec3.add_x, Vec3.add_y, Vec3.add_z] <;> ring

theorem Projection.horizontal_add (p q : Vec3 K) (pointing : Horizontal K) :
    horizontal (p + q) pointing = horizontal p pointing + horizontal q pointing := by
  ext <;> simp only [horizontal, Vec3.scale, Vec3.add_x, Vec3.add_y, Vec3.add_z] <;> ring

theorem Projection.equatorial_add (p q : Vec3 K) (hours declination altitude : K) :
    equatorial (p + q) hours declination altitude =
      equatorial p hours declination altitude + equatorial q hours declination altitude := by
  ext <;> simp only [equatorial, Vec3.scale, Vec3.add_x, Vec3.add_y, Vec3.add_z] <;> ring

/-- **A projection is additive,** pointed or not. -/
theorem Baseline.project_add (b : Baseline K) (p q : Vec3 K) (t : K) (v : View K) :
    b.project (p + q) t v = b.project p t v + b.project q t v := by
  unfold project
  dsimp only
  split
  · rw [Earth.toLocal_add, Projection.horizontal_add]
  · rw [Projection.equatorial_add]

theorem Baseline.project_zero_z (b : Baseline K) (t : K) (v : View K) :
    (b.project .zero t v).z = 0 := by
  have hzero : (.zero + .zero : Vec3 K) = .zero := by ext <;> simp [Vec3.zero]
  have hz := congrArg Vec3.z (b.project_add .zero .zero t v)
  rwa [hzero, Vec3.add_z, left_eq_add] at hz

theorem Baseline.project_sub_z (b : Baseline K) (p q : Vec3 K) (t : K) (v : View K) :
    (b.project (p - q) t v).z = (b.project p t v).z - (b.project q t v).z := by
  have hcancel : p - q + q = p := by ext <;> simp
  rw [eq_sub_iff_add_eq, ← Vec3.add_z, ← project_add, hcancel]

/-- Along the line of sight, the vector of a group is as long as the differences to its first
position together. -/
theorem Baseline.project_vector_z (b : Baseline K) (first : Vec3 K) (rest : List (Vec3 K)) (t : K)
    (v : View K) : (b.project (Group.vector (first :: rest)) t v).z =
      (rest.map fun p => (b.project (p - first) t v).z).sum := by
  -- The sum starts at zero, so the induction is over one that has been added to.
  have hfrom (sum : Vec3 K) :
      (b.project (rest.foldl (fun sum p => sum + (p - first)) sum) t v).z =
        (b.project sum t v).z + (rest.map fun p => (b.project (p - first) t v).z).sum := by
    induction rest generalizing sum with
    | nil => simp
    | cons p rest ih =>
      rw [List.foldl_cons, ih, project_add, Vec3.add_z, List.map_cons, List.sum_cons, add_assoc]
  rw [Group.vector, hfrom, project_zero_z, zero_add]

end Aperture
