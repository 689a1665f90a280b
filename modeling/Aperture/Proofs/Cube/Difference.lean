import Aperture.Proofs.Cube.Faults
import Aperture.Proofs.Grid.Range

/-!
# Differences fill the range of the first cube

The difference of two cubes is the buffer of their absolute differences, stretched to the range of
the first cube. So over exact scalars no cell leaves this range, and unless all cells differ by the
same amount the range is filled, in the order of the absolute differences.

Main result: `difference_fills_range`.
-/

namespace Aperture.Cube

open Grid
open scoped Exact

/-- A difference of cubes of one shape is the first cube with other samples. -/
theorem difference_eq_ok {R : Type} [Scalar R] {a b : Cube R} (h : a.shape = b.shape) :
    ∃ hsize, a.difference b = .ok (a.replace
      (stretch (Array.zipWith (fun x y => Scalar.abs (x - y)) a.samples b.samples)
        (minimum a.samples) (maximum a.samples)) hsize) := by
  have hsize : (Array.zipWith (fun x y => Scalar.abs (x - y)) a.samples b.samples).size =
      volume a.shape := by
    rw [Array.size_zipWith, a.size_eq, b.size_eq, h, Nat.min_self]
  have hzip : zipWith (fun x y => Scalar.abs (x - y)) a b = .ok { a with
      samples := Array.zipWith (fun x y => Scalar.abs (x - y)) a.samples b.samples
      size_eq := hsize } :=
    bind_eq_ok_iff.2 ⟨(), requireSameShape_of_eq h, dif_pos hsize⟩
  refine ⟨?_, bind_eq_ok_iff.2 ⟨_, hzip, rfl⟩⟩
  rw [size_stretch, hsize, a.size_eq]

variable {K : Type} [Field K] [LinearOrder K] [FloorRing K]

/-- The absolute differences of two cubes, cell by cell. -/
def distances (a b : Cube K) : Array K := Array.zipWith (fun x y => |x - y|) a.samples b.samples

/-- **A difference stays in the range of its first cube and fills it.** Cubes of different shapes
are reported. For cubes of one shape with at least one cell the difference is the first cube with
other samples, and these are the absolute differences stretched to the range of the first cube:

* no sample leaves the range;
* unless the absolute differences are all the same, the samples are their image under an affine
  function, which increases unless the range is a single number, and both ends of the range are
  reached;
* samples come in the order of the absolute differences;
* if the absolute differences are all the same, every sample is the lower end. -/
theorem difference_fills_range [IsStrictOrderedRing K] (a b : Cube K) :
    (a.shape ≠ b.shape → a.difference b = fail (.sizeMismatch a.shape b.shape)) ∧
    (a.shape = b.shape → 0 < a.samples.size → ∃ samples hsize low high,
      a.difference b = .ok (a.replace samples hsize) ∧
      IsLeast {x | x ∈ a.samples} low ∧ IsGreatest {x | x ∈ a.samples} high ∧
      Stretched (distances a b) samples low high) := by
  refine ⟨(answers_difference a b).2, fun h hcells => ?_⟩
  obtain ⟨hsize, hdifference⟩ := difference_eq_ok h
  have hleast := isLeast_minimum hcells
  have hgreatest := isGreatest_maximum hcells
  have hdistances : 0 < (distances a b).size := by
    rwa [distances, Array.size_zipWith, b.size_eq, ← h, ← a.size_eq, Nat.min_self]
  exact ⟨_, hsize, _, _, hdifference, hleast, hgreatest,
    stretched_stretch hdistances (hleast.2 hgreatest.1)⟩

/-- The distances 0, 1 and 4 are stretched to the range from 1 to 3; equal distances go to 1. -/
theorem difference_fills_range_uneven :
    let a : Cube ℚ := ofSamples #[1, 3, 2]
    let b : Cube ℚ := ofSamples #[1, 2, 6]
    let c : Cube ℚ := ofSamples #[2, 4, 3]
    (a.difference b).toOption.map Cube.samples = some #[1, 3 / 2, 3] ∧
    a.shape = b.shape ∧ 0 < a.samples.size ∧ distances a b = #[0, 1, 4] ∧
    ¬Constant (distances a b) ∧ (∃ samples hsize, a.difference b = .ok (a.replace samples hsize) ∧
      IsLeast {x | x ∈ samples} 1 ∧ IsGreatest {x | x ∈ samples} 3) ∧
    Constant (distances a c) ∧ (∃ samples hsize, a.difference c = .ok (a.replace samples hsize) ∧
      ∀ x ∈ samples, x = 1) ∧
    a.difference (zeros [3, 1]) = fail (.sizeMismatch [3] [3, 1]) := by
  intro a b c
  have hminimum : minimum a.samples = 1 := by decide +kernel
  have hmaximum : maximum a.samples = 3 := by decide +kernel
  have hleast : IsLeast {x | x ∈ a.samples} 1 := hminimum ▸ isLeast_minimum (by decide)
  have hgreatest : IsGreatest {x | x ∈ a.samples} 3 := hmaximum ▸ isGreatest_maximum (by decide)
  have hdiffer : ¬Constant (distances a b) := by decide +kernel
  have hsame : Constant (distances a c) := by decide +kernel
  obtain ⟨-, hstretch⟩ := difference_fills_range a b
  obtain ⟨samples, hsize, low, high, hok, hlow, hhigh, hstretched⟩ := hstretch rfl (by decide)
  obtain ⟨-, hstretch'⟩ := difference_fills_range a c
  obtain ⟨samples', hsize', low', high', hok', hlow', -, hstretched'⟩ := hstretch' rfl (by decide)
  obtain rfl := hlow.unique hleast
  obtain rfl := hhigh.unique hgreatest
  obtain rfl := hlow'.unique hleast
  exact ⟨by decide +kernel, rfl, by decide, by decide +kernel, hdiffer,
    ⟨samples, hsize, hok, hstretched.fills hdiffer⟩, hsame,
    ⟨samples', hsize', hok', hstretched'.flat hsame⟩,
    (difference_fills_range a (zeros [3, 1])).1 (by decide)⟩

end Aperture.Cube
