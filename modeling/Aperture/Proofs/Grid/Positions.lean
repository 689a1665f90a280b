import Aperture.Grid.Index
import Mathlib.Algebra.BigOperators.Group.Finset.Sigma

/-!
# Positions

A position of a grid has one coordinate for every axis, below its size. `offset` is its flat index.
The flat indices below the volume and the positions correspond one to one: `flatten?` finds the
offset of a position and of nothing else, and `unflatten` is the way back.

`cell?` looks a cell up by its position. Buffers with the same cells are equal (`eq_of_cell?`), and
sums over the positions are taken one axis after the other (`sum_positions_cons`).
-/

namespace Aperture.Grid

/-- One coordinate for every axis, below its size. -/
def Inside (position shape : List Nat) : Prop := List.Forall₂ (· < ·) position shape

@[simp] theorem inside_nil_iff {position : List Nat} : Inside position [] ↔ position = [] :=
  List.forall₂_nil_right_iff

@[simp] theorem inside_cons {p n : Nat} {position shape : List Nat} :
    Inside (p :: position) (n :: shape) ↔ p < n ∧ Inside position shape :=
  List.forall₂_cons

theorem not_inside_nil_cons {n : Nat} {shape : List Nat} : ¬Inside [] (n :: shape) := nofun

/-- Flat index of a position. -/
def offset : List Nat → List Nat → Nat
  | p :: position, n :: shape => p + n * offset position shape
  | _, _ => 0

@[simp] theorem offset_nil (position : List Nat) : offset position [] = 0 := by
  cases position <;> rfl

@[simp] theorem offset_cons (p n : Nat) (position shape : List Nat) :
    offset (p :: position) (n :: shape) = p + n * offset position shape := rfl

theorem volume_ne_zero_iff {shape : List Nat} : volume shape ≠ 0 ↔ ∀ n ∈ shape, n ≠ 0 := by
  induction shape with
  | nil => simp
  | cons n shape ih => rw [volume_cons, List.forall_mem_cons, ← ih, Nat.mul_ne_zero_iff]

theorem offset_lt {position shape : List Nat} (h : Inside position shape) :
    offset position shape < volume shape := by
  induction h with
  | nil => exact Nat.zero_lt_one
  | @cons p n position shape hp _ ih =>
    calc p + n * offset position shape < n + n * offset position shape := Nat.add_lt_add_right hp _
      _ = n * (offset position shape + 1) := by rw [Nat.mul_succ, Nat.add_comm]
      _ ≤ n * volume shape := Nat.mul_le_mul_left n ih

/-! ## Flat indices -/

/-- The flat index that is looked up is the offset, and only positions have one. -/
theorem flatten?_eq_some_iff {position shape : List Nat} {i : Nat} :
    flatten? position shape = some i ↔ Inside position shape ∧ offset position shape = i := by
  induction shape generalizing position i with
  | nil => cases position <;> simp [flatten?]
  | cons n shape ih =>
    cases position with
    | nil => simp [flatten?, not_inside_nil_cons]
    | cons p position =>
      simp only [flatten?, Option.ite_none_right_eq_some, Option.map_eq_some_iff, ih, inside_cons,
        offset_cons]
      grind

theorem flatten?_of_inside {position shape : List Nat} (h : Inside position shape) :
    flatten? position shape = some (offset position shape) :=
  flatten?_eq_some_iff.2 ⟨h, rfl⟩

theorem inside_unflatten {i : Nat} {shape : List Nat} (h : i < volume shape) :
    Inside (unflatten i shape) shape := by
  induction shape generalizing i with
  | nil => exact .nil
  | cons n shape ih =>
    have hn : 0 < n := Nat.pos_of_lt_mul_right h
    rw [unflatten, if_neg hn.ne']
    exact .cons (Nat.mod_lt i hn) (ih (Nat.div_lt_of_lt_mul h))

theorem offset_unflatten {i : Nat} {shape : List Nat} (h : i < volume shape) :
    offset (unflatten i shape) shape = i := by
  induction shape generalizing i with
  | nil => exact (Nat.lt_one_iff.1 h).symm
  | cons n shape ih =>
    have hn : 0 < n := Nat.pos_of_lt_mul_right h
    rw [unflatten, if_neg hn.ne', offset_cons, ih (Nat.div_lt_of_lt_mul h), Nat.mod_add_div]

theorem unflatten_offset {position shape : List Nat} (h : Inside position shape) :
    unflatten (offset position shape) shape = position := by
  induction h with
  | nil => rfl
  | @cons p n position shape hp _ ih =>
    have hn : 0 < n := Nat.zero_lt_of_lt hp
    rw [unflatten, if_neg hn.ne', offset_cons, Nat.add_mul_mod_self_left, Nat.mod_eq_of_lt hp,
      Nat.add_mul_div_left _ _ hn, Nat.div_eq_of_lt hp, Nat.zero_add, ih]

theorem offset_injective {p q shape : List Nat} (hp : Inside p shape) (hq : Inside q shape)
    (h : offset p shape = offset q shape) : p = q := by
  rw [← unflatten_offset hp, h, unflatten_offset hq]

/-! ## Cells -/

section

variable {α : Type}

/-- The cell at a position, `none` outside the grid. -/
def cell? (data : Array α) (shape position : List Nat) : Option α :=
  (flatten? position shape).bind fun i => data[i]?

theorem cell?_of_inside {position shape : List Nat} (h : Inside position shape)
    (data : Array α) : cell? data shape position = data[offset position shape]? := by
  rw [cell?, flatten?_of_inside h, Option.bind_some]

theorem cell?_unflatten {i : Nat} {shape : List Nat} (h : i < volume shape) (data : Array α) :
    cell? data shape (unflatten i shape) = data[i]? := by
  rw [cell?_of_inside (inside_unflatten h), offset_unflatten h]

theorem cell?_map {β : Type} (f : α → β) (data : Array α) (shape position : List Nat) :
    cell? (data.map f) shape position = (cell? data shape position).map f := by
  simp only [cell?, Array.getElem?_map, Option.map_bind, Function.comp_def]

theorem exists_cell? {position shape : List Nat} (h : Inside position shape) {data : Array α}
    (hsize : data.size = volume shape) : ∃ value, cell? data shape position = some value := by
  have hlt : offset position shape < data.size := hsize ▸ offset_lt h
  exact ⟨data[offset position shape], by rw [cell?_of_inside h, Array.getElem?_eq_getElem hlt]⟩

/-- Buffers of a grid with the same cells are equal. -/
theorem eq_of_cell? {a b : Array α} {shape : List Nat} (ha : a.size = volume shape)
    (hb : b.size = volume shape)
    (h : ∀ position, Inside position shape → cell? a shape position = cell? b shape position) :
    a = b := by
  refine Array.ext_getElem? fun i => ?_
  rcases Nat.lt_or_ge i (volume shape) with hi | hi
  · rw [← cell?_unflatten hi, h _ (inside_unflatten hi), cell?_unflatten hi]
  · rw [Array.getElem?_eq_none (ha ▸ hi), Array.getElem?_eq_none (hb ▸ hi)]

end

/-! ## Sums -/

/-- The positions of a grid. -/
def positions : List Nat → Finset (List Nat)
  | [] => {[]}
  | n :: shape => (Finset.range n ×ˢ positions shape).image fun p => p.1 :: p.2

@[simp] theorem mem_positions {position shape : List Nat} :
    position ∈ positions shape ↔ Inside position shape := by
  induction shape generalizing position with
  | nil => simp [positions]
  | cons n shape ih =>
    cases position with
    | nil => simp [positions, not_inside_nil_cons]
    | cons p position => simp [positions, ih]

theorem sum_positions_nil {M : Type} [AddCommMonoid M] (f : List Nat → M) :
    ∑ position ∈ positions [], f position = f [] := Finset.sum_singleton f []

theorem sum_positions_cons {M : Type} [AddCommMonoid M] (n : Nat) (shape : List Nat)
    (f : List Nat → M) :
    ∑ position ∈ positions (n :: shape), f position =
      ∑ p ∈ Finset.range n, ∑ position ∈ positions shape, f (p :: position) := by
  rw [positions, Finset.sum_image, Finset.sum_product]
  rintro ⟨p, position⟩ - ⟨q, position'⟩ - h
  obtain ⟨rfl, rfl⟩ := List.cons.inj h
  rfl

end Aperture.Grid
