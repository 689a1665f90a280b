import Aperture.Proofs.Grid.Positions
import Mathlib.Algebra.BigOperators.Ring.Finset

/-!
# Strides

The stride of an axis is the number of cells between neighbours along it: the product of the sizes
of the axes before it. The flat index of a position adds up its coordinates, each times the stride
of its axis (`offset_eq_sum`), and the coordinate on an axis is the flat index divided by the
stride, up to multiples of the size (`getElem?_unflatten`).

`strided?` computes a flat index as a walk along the axes does, with the index so far and the stride
of the next axis. It is `flatten?` (`strided?_eq`).

**Theorem (`indices_are_positions`).** In a grid of any number of axes, of any sizes, the flat
indices below the volume and the positions correspond one to one.
-/

namespace Aperture.Grid

/-! ## Positions axis by axis -/

/-- A coordinate is not below the size of its axis. -/
def Outside (position shape : List Nat) : Prop :=
  ∃ k p n : Nat, position[k]? = some p ∧ shape[k]? = some n ∧ n ≤ p

theorem outside_nil_right {position : List Nat} : ¬Outside position [] := by
  simp [Outside]

theorem outside_cons {p n : Nat} {position shape : List Nat} :
    Outside (p :: position) (n :: shape) ↔ n ≤ p ∨ Outside position shape := by
  constructor
  · rintro ⟨k, q, m, hq, hm, hle⟩
    cases k with
    | zero =>
      obtain rfl := Option.some.inj hq
      obtain rfl := Option.some.inj hm
      exact .inl hle
    | succ k => exact .inr ⟨k, q, m, hq, hm, hle⟩
  · rintro (hle | ⟨k, q, m, hq, hm, hle⟩)
    · exact ⟨0, p, n, rfl, rfl, hle⟩
    · exact ⟨k + 1, q, m, hq, hm, hle⟩

/-- What is no position has another number of coordinates, or one of them is out of bounds. -/
theorem not_inside_iff {position shape : List Nat} :
    ¬Inside position shape ↔ position.length ≠ shape.length ∨ Outside position shape := by
  induction shape generalizing position with
  | nil => simp [outside_nil_right]
  | cons n shape ih =>
    cases position with
    | nil => simp [not_inside_nil_cons]
    | cons p position =>
      rw [inside_cons, outside_cons, not_and_or, ih, not_lt, List.length_cons, List.length_cons,
        Nat.succ_ne_succ_iff]
      exact or_left_comm

theorem flatten?_eq_none_iff {position shape : List Nat} :
    flatten? position shape = none ↔ ¬Inside position shape := by
  rw [Option.eq_none_iff_forall_ne_some]
  constructor
  · intro h hinside
    exact h _ (flatten?_of_inside hinside)
  · intro h i hi
    exact h (flatten?_eq_some_iff.1 hi).1

/-! ## Strides -/

/-- Cells between neighbours along an axis. -/
def stride (shape : List Nat) (k : Nat) : Nat := volume (shape.take k)

@[simp] theorem stride_zero (shape : List Nat) : stride shape 0 = 1 := rfl

@[simp] theorem stride_succ (n : Nat) (shape : List Nat) (k : Nat) :
    stride (n :: shape) (k + 1) = n * stride shape k := rfl

/-- The first axis varies fastest. -/
theorem offset_eq_sum {position shape : List Nat} (h : Inside position shape) :
    offset position shape =
      ∑ k ∈ Finset.range shape.length, position.getD k 0 * stride shape k := by
  induction h with
  | nil => rfl
  | @cons p n position shape _ _ ih =>
    rw [offset_cons, ih, List.length_cons, Finset.sum_range_succ', Finset.mul_sum, Nat.add_comm]
    refine congrArg₂ (· + ·) (Finset.sum_congr rfl fun k _ => ?_) (Nat.mul_one p).symm
    rw [List.getD_cons_succ, stride_succ, Nat.mul_left_comm]

/-- The coordinates of a flat index are its quotients by the strides, reduced by the sizes. -/
theorem getElem?_unflatten {i : Nat} {shape : List Nat} (h : i < volume shape) (k : Nat) :
    (unflatten i shape)[k]? = shape[k]?.map fun n => i / stride shape k % n := by
  induction shape generalizing i k with
  | nil => simp [unflatten]
  | cons n shape ih =>
    have hn : 0 < n := Nat.pos_of_lt_mul_right h
    rw [unflatten, if_neg hn.ne']
    cases k with
    | zero => simp
    | succ k =>
      rw [List.getElem?_cons_succ, List.getElem?_cons_succ, ih (Nat.div_lt_of_lt_mul h),
        stride_succ]
      simp only [Nat.div_div_eq_div_mul]

/-! ## Walks along the axes -/

/-- The flat index of a position, where the axes walked so far give `index` and the next one has the
stride `step`. Axes or coordinates without a counterpart do not count. -/
def walk? (index step : Nat) : List Nat → List Nat → Option Nat
  | p :: position, n :: shape =>
    if n ≤ p then none else walk? (index + p * step) (step * n) position shape
  | _, _ => some index

/-- The flat index of a position by a walk from the first axis. -/
def strided? (position shape : List Nat) : Option Nat :=
  if position.length ≠ shape.length then none else walk? 0 1 position shape

/-- What the rest of a walk adds is the flat index on the rest of the axes, `step` times. -/
theorem walk?_eq (index step : Nat) {position shape : List Nat}
    (h : position.length = shape.length) :
    walk? index step position shape = (flatten? position shape).map fun i => index + step * i := by
  induction shape generalizing index step position with
  | nil =>
    obtain rfl := List.length_eq_zero_iff.1 h
    rfl
  | cons n shape ih =>
    cases position with
    | nil => cases h
    | cons p position =>
      rw [walk?, flatten?]
      by_cases hp : p < n
      · rw [if_neg (Nat.not_le.2 hp), if_pos hp, ih _ _ (Nat.succ.inj h), Option.map_map]
        congr 1
        funext i
        rw [Function.comp_apply, Nat.mul_add, ← Nat.mul_assoc, Nat.mul_comm p, Nat.add_assoc]
      · rw [if_pos (Nat.not_lt.1 hp), if_neg hp]
        rfl

theorem strided?_eq (position shape : List Nat) :
    strided? position shape = flatten? position shape := by
  rw [strided?]
  split
  · next h => exact (flatten?_eq_none_iff.2 (not_inside_iff.2 (.inl h))).symm
  · next h =>
    rw [walk?_eq 0 1 (not_not.1 h)]
    simp only [Nat.zero_add, Nat.one_mul]
    exact Option.map_id'

/-- **Flat indices and positions correspond one to one,** for any number of axes of any sizes.

* A flat index below the volume is that of its position, whose coordinates are its quotients by the
  strides.
* A position has a flat index below the volume, the sum of its coordinates times the strides, and is
  the position of it.
* Nothing else has a flat index: the number of coordinates is not that of the axes, or a coordinate
  is out of bounds.
* A walk along the axes that keeps the index so far and the stride comes to the same. -/
theorem indices_are_positions (shape : List Nat) :
    (∀ i < volume shape, flatten? (unflatten i shape) shape = some i ∧
      ∀ k, (unflatten i shape)[k]? = shape[k]?.map fun n => i / stride shape k % n) ∧
    (∀ position, Inside position shape → ∃ i < volume shape, flatten? position shape = some i ∧
      unflatten i shape = position ∧
      i = ∑ k ∈ Finset.range shape.length, position.getD k 0 * stride shape k) ∧
    (∀ position, flatten? position shape = none ↔
      position.length ≠ shape.length ∨
        ∃ k p n : Nat, position[k]? = some p ∧ shape[k]? = some n ∧ n ≤ p) ∧
    ∀ position, strided? position shape = flatten? position shape := by
  refine ⟨fun i hi => ⟨?_, getElem?_unflatten hi⟩, fun position h => ?_, fun position => ?_, ?_⟩
  · exact flatten?_eq_some_iff.2 ⟨inside_unflatten hi, offset_unflatten hi⟩
  · exact ⟨_, offset_lt h, flatten?_of_inside h, unflatten_offset h, offset_eq_sum h⟩
  · exact flatten?_eq_none_iff.trans not_inside_iff
  · exact fun position => strided?_eq position shape

/-- Four cells, an axis of one and an axis of three. -/
theorem indices_are_positions_thin :
    9 < volume [4, 1, 3] ∧ flatten? (unflatten 9 [4, 1, 3]) [4, 1, 3] = some 9 ∧
    Inside [1, 0, 2] [4, 1, 3] ∧
    (∃ i < volume [4, 1, 3], flatten? [1, 0, 2] [4, 1, 3] = some i ∧
      unflatten i [4, 1, 3] = [1, 0, 2]) ∧
    flatten? [1, 1, 2] [4, 1, 3] = none := by
  obtain ⟨hindex, hposition, hnone, -⟩ := indices_are_positions [4, 1, 3]
  have hlt : 9 < volume [4, 1, 3] := by decide
  have hinside : Inside [1, 0, 2] [4, 1, 3] := by simp
  obtain ⟨i, hi, hflat, hback, -⟩ := hposition _ hinside
  refine ⟨hlt, (hindex 9 hlt).1, hinside, ⟨i, hi, hflat, hback⟩, ?_⟩
  exact (hnone _).2 (.inr ⟨1, 1, 1, rfl, rfl, Nat.le_refl 1⟩)

end Aperture.Grid
