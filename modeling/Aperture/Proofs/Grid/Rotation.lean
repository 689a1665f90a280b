import Aperture.Binary64
import Aperture.Grid.Shift
import Aperture.Proofs.Cube.Loops
import Aperture.Proofs.Grid.Positions
import Mathlib.Algebra.Ring.Parity
import Mathlib.Data.Fintype.EquivFin
import Mathlib.Data.Nat.ModEq

/-!
# Quadrant shifts are permutations

A shift takes every position half a turn further on each axis. Turned positions are positions, and
different ones stay different (`rotate_injective`), so no two cells are moved to one place and every
cell is written once; the zeros that the result starts from are all gone.

**Theorem (`shift_permutes`).** Shifting always succeeds and permutes the cells. Shifting `m` times
turns axis `a` by `m * (n a / 2)`, and shifting twice changes nothing exactly for grids whose axes
are even or of one cell, and for empty ones.
-/

namespace Aperture.Grid

/-! ## Turned positions -/

/-- A position `m` half turns further on every axis. -/
def rotate (m : Nat) (shape position : List Nat) : List Nat :=
  List.zipWith (fun p n => (p + m * (n / 2)) % n) position shape

@[simp] theorem rotate_nil (m : Nat) (position : List Nat) : rotate m [] position = [] :=
  List.zipWith_nil_right

@[simp] theorem rotate_cons (m n : Nat) (shape : List Nat) (p : Nat) (position : List Nat) :
    rotate m (n :: shape) (p :: position) =
      (p + m * (n / 2)) % n :: rotate m shape position := rfl

theorem inside_rotate {shape position : List Nat} (m : Nat) (h : Inside position shape) :
    Inside (rotate m shape position) shape := by
  induction h with
  | nil => exact .nil
  | cons hp _ ih => exact .cons (Nat.mod_lt _ (Nat.zero_lt_of_lt hp)) ih

theorem rotate_zero {shape position : List Nat} (h : Inside position shape) :
    rotate 0 shape position = position := by
  induction h with
  | nil => rfl
  | cons hp _ ih => rw [rotate_cons, ih, Nat.zero_mul, Nat.add_zero, Nat.mod_eq_of_lt hp]

theorem rotate_rotate {shape position : List Nat} (m k : Nat) (h : Inside position shape) :
    rotate m shape (rotate k shape position) = rotate (m + k) shape position := by
  induction h with
  | nil => rfl
  | cons _ _ ih =>
    rw [rotate_cons, rotate_cons, rotate_cons, ih, Nat.mod_add_mod, Nat.add_mul, Nat.add_assoc,
      Nat.add_comm (k * _)]

theorem rotate_injective {shape p q : List Nat} (m : Nat) (hp : Inside p shape)
    (hq : Inside q shape) (h : rotate m shape p = rotate m shape q) : p = q := by
  induction hp generalizing q with
  | nil => exact (inside_nil_iff.1 hq).symm
  | @cons p n ps shape hp _ ih =>
    obtain ⟨q, qs, hlt, hqs, rfl⟩ := List.forall₂_cons_right_iff.1 hq
    obtain ⟨hhead, htail⟩ := List.cons.inj h
    have hcongr : p ≡ q [MOD n] := Nat.ModEq.add_right_cancel' _ hhead
    rw [hcongr.eq_of_lt_of_lt hp hlt, ih hqs htail]

theorem rotate_two_of_even {shape position : List Nat} (heven : ∀ n ∈ shape, Even n ∨ n = 1)
    (h : Inside position shape) : rotate 2 shape position = position := by
  induction h with
  | nil => rfl
  | @cons p n position shape hp _ ih =>
    rw [List.forall_mem_cons] at heven
    rw [rotate_cons, ih heven.2]
    rcases heven.1 with heven | rfl
    · rw [Nat.two_mul_div_two_of_even heven, Nat.add_mod_right, Nat.mod_eq_of_lt hp]
    · rw [Nat.lt_one_iff.1 hp]

/-- On an odd axis of more than one cell two shifts fall one cell short of a turn. -/
theorem even_of_rotate_two {shape position : List Nat} (h : Inside position shape)
    (hfixed : rotate 2 shape position = position) : ∀ n ∈ shape, Even n ∨ n = 1 := by
  induction h with
  | nil => nofun
  | @cons p n position shape hp _ ih =>
    obtain ⟨hhead, htail⟩ := List.cons.inj hfixed
    refine List.forall_mem_cons.2 ⟨?_, ih htail⟩
    rcases Nat.even_or_odd n with heven | hodd
    · exact .inl heven
    · have hcongr : p + 2 * (n / 2) ≡ p + 0 [MOD n] := hhead.trans (Nat.mod_eq_of_lt hp).symm
      have hzero : 2 * (n / 2) = 0 := by
        have hbelow : 2 * (n / 2) < n := by
          have := Nat.two_mul_div_two_add_one_of_odd hodd
          omega
        exact (hcongr.add_left_cancel' p).eq_of_lt_of_lt hbelow (Nat.zero_lt_of_lt hp)
      have hone := Nat.two_mul_div_two_add_one_of_odd hodd
      exact .inr (by omega)

/-! ## Cells that are moved -/

/-- The position that a cell is shifted to is looked up, and its flat index is `j`. -/
def Moves (shape : List Nat) (i j : Nat) : Prop :=
  ∃ position, opposite (unflatten i shape) shape = .ok position ∧ flatten? position shape = some j

theorem opposite_eq_rotate {shape : List Nat} (h : ∀ n ∈ shape, n ≠ 0) (position : List Nat) :
    opposite position shape = .ok (rotate 1 shape position) := by
  induction shape generalizing position with
  | nil => cases position <;> rfl
  | cons n shape ih =>
    cases position with
    | nil => rfl
    | cons p position =>
      obtain ⟨hn, hrest⟩ := List.forall_mem_cons.1 h
      rw [opposite, if_neg hn, ih hrest, rotate_cons, Nat.one_mul]
      rfl

/-- The cell that cell `i` is shifted to. -/
def target (shape : List Nat) (i : Nat) : Nat := offset (rotate 1 shape (unflatten i shape)) shape

theorem target_lt {shape : List Nat} {i : Nat} (h : i < volume shape) :
    target shape i < volume shape := offset_lt (inside_rotate 1 (inside_unflatten h))

theorem target_offset {shape position : List Nat} (h : Inside position shape) :
    target shape (offset position shape) = offset (rotate 1 shape position) shape := by
  rw [target, unflatten_offset h]

theorem target_injective {shape : List Nat} {i j : Nat} (hi : i < volume shape)
    (hj : j < volume shape) (h : target shape i = target shape j) : i = j := by
  have hsame := offset_injective (inside_rotate 1 (inside_unflatten hi))
    (inside_rotate 1 (inside_unflatten hj)) h
  rw [← offset_unflatten hi,
    rotate_injective 1 (inside_unflatten hi) (inside_unflatten hj) hsame, offset_unflatten hj]

theorem axes_ne_zero_of_lt {shape : List Nat} {i : Nat} (h : i < volume shape) :
    ∀ n ∈ shape, n ≠ 0 := volume_ne_zero_iff.1 (Nat.ne_of_gt (Nat.zero_lt_of_lt h))

theorem moves_iff {shape : List Nat} {i j : Nat} (h : i < volume shape) :
    Moves shape i j ↔ target shape i = j := by
  have hinside := inside_rotate 1 (inside_unflatten h)
  rw [Moves, opposite_eq_rotate (axes_ne_zero_of_lt h)]
  constructor
  · rintro ⟨position, hposition, hflat⟩
    obtain rfl := Except.ok.inj hposition
    exact (flatten?_eq_some_iff.1 hflat).2
  · rintro rfl
    exact ⟨_, rfl, flatten?_of_inside hinside⟩

/-- The cells of a grid as they are moved. -/
noncomputable def targetPerm (shape : List Nat) : Equiv.Perm (Fin (volume shape)) :=
  Equiv.ofBijective (fun i => ⟨target shape i, target_lt i.isLt⟩)
    (Finite.injective_iff_bijective.1 fun i j h =>
      Fin.ext (target_injective i.isLt j.isLt (Fin.mk.inj h)))

/-- Every cell is the target of one cell. -/
theorem existsUnique_moves {shape : List Nat} {j : Nat} (h : j < volume shape) :
    ∃! i, i < volume shape ∧ Moves shape i j := by
  have hback : targetPerm shape ((targetPerm shape).symm ⟨j, h⟩) = ⟨j, h⟩ :=
    Equiv.apply_symm_apply _ _
  let i := (targetPerm shape).symm ⟨j, h⟩
  refine ⟨i, ⟨i.isLt, (moves_iff i.isLt).2 (Fin.mk.inj hback)⟩, ?_⟩
  rintro i' ⟨hi', hmoves⟩
  have htarget : target shape i' = target shape i :=
    ((moves_iff hi').1 hmoves).trans (Fin.mk.inj hback).symm
  exact target_injective hi' i.isLt htarget

/-! ## Shifts -/

variable {R : Type}

/-- The cells of `out` are those of `data`, turned by `m` half turns on every axis. -/
def Rotated (m : Nat) (shape : List Nat) (data out : Array R) : Prop :=
  out.size = data.size ∧ ∀ position, Inside position shape →
    ∃ value, cell? data shape position = some value ∧
      cell? out shape (rotate m shape position) = some value

theorem Rotated.cell?_eq {m : Nat} {shape : List Nat} {data out : Array R}
    (h : Rotated m shape data out) {position : List Nat} (hinside : Inside position shape) :
    cell? out shape (rotate m shape position) = cell? data shape position := by
  obtain ⟨value, hvalue, hmoved⟩ := h.2 position hinside
  rw [hvalue, hmoved]

theorem Rotated.refl {shape : List Nat} {data : Array R} (h : data.size = volume shape) :
    Rotated 0 shape data data := by
  refine ⟨rfl, fun position hinside => ?_⟩
  obtain ⟨value, hvalue⟩ := exists_cell? hinside h
  exact ⟨value, hvalue, by rwa [rotate_zero hinside]⟩

theorem Rotated.trans {m k : Nat} {shape : List Nat} {a b c : Array R} (hab : Rotated m shape a b)
    (hbc : Rotated k shape b c) : Rotated (k + m) shape a c := by
  refine ⟨hbc.1.trans hab.1, fun position hinside => ?_⟩
  obtain ⟨value, hvalue, hmoved⟩ := hab.2 position hinside
  refine ⟨value, hvalue, ?_⟩
  rw [← rotate_rotate k m hinside, hbc.cell?_eq (inside_rotate m hinside), hmoved]

theorem perm_of_target {data out : Array R} {shape : List Nat} (h : data.size = volume shape)
    (hsize : out.size = data.size) (hmoved : ∀ i < data.size, out[target shape i]? = data[i]?) :
    out.toList.Perm data.toList := by
  have hvolume : out.size = volume shape := hsize.trans h
  let cell (i : Fin (volume shape)) : R := out[i.cast hvolume.symm]
  have hout : out.toList = List.ofFn cell :=
    List.ext_getElem (by simp [hvolume]) fun i _ _ => by simp [cell]
  have hdata : data.toList = List.ofFn (cell ∘ targetPerm shape) := by
    refine List.ext_getElem (by simp [h]) fun i hi hi' => ?_
    rw [Array.length_toList] at hi
    have hlt : target shape i < out.size := by rw [hvolume]; exact target_lt (h ▸ hi)
    have hcell := hmoved i hi
    rw [Array.getElem?_eq_getElem hlt, Array.getElem?_eq_getElem hi] at hcell
    simpa [cell, targetPerm] using (Option.some.inj hcell).symm
  rw [hout, hdata]
  exact ((targetPerm shape).ofFn_comp_perm cell).symm

theorem rotated_of_target {data out : Array R} {shape : List Nat} (h : data.size = volume shape)
    (hsize : out.size = data.size) (hmoved : ∀ i < data.size, out[target shape i]? = data[i]?) :
    Rotated 1 shape data out := by
  refine ⟨hsize, fun position hinside => ?_⟩
  obtain ⟨value, hvalue⟩ := exists_cell? hinside h
  refine ⟨value, hvalue, ?_⟩
  have hlt : offset position shape < data.size := h ▸ offset_lt hinside
  rw [cell?_of_inside (inside_rotate 1 hinside), ← target_offset hinside, hmoved _ hlt,
    ← cell?_of_inside hinside, hvalue]

variable [Scalar R]

/-- Every cell is moved to its target. -/
theorem exists_shift {data : Array R} {shape : List Nat} (h : data.size = volume shape) :
    ∃ out, shift data shape = .ok out ∧ out.size = data.size ∧
      ∀ i < data.size, out[target shape i]? = data[i]? := by
  let blank : Array R := Array.replicate data.size Scalar.zero
  have hblank : blank.size = data.size := Array.size_replicate
  have hbelow {i : Nat} (hi : i ∈ List.range data.size) : i < volume shape :=
    h ▸ List.mem_range.1 hi
  have hapart : (List.range data.size).Pairwise fun i j => target shape i ≠ target shape j :=
    List.nodup_range.pairwise_of_forall_ne fun i hi j hj hne heq =>
      hne (target_injective (hbelow hi) (hbelow hj) heq)
  obtain ⟨out, hout, hsize, hwritten, -⟩ : ∃ out, shift data shape = .ok out ∧
      out.size = blank.size ∧
      (∀ i ∈ List.range data.size, out[target shape i]? = some (data[i]?.getD Scalar.zero)) ∧
      ∀ j, (∀ i ∈ List.range data.size, target shape i ≠ j) → out[j]? = blank[j]? := by
    refine exists_scatter (fun i hi out => ?_) hapart fun i hi => ?_
    · have hcell := List.mem_range.1 hi
      obtain ⟨position, hposition, hflat⟩ := (moves_iff (hbelow hi)).2 rfl
      simp [hposition, hflat, hcell, cellAt_of_lt, bind, Except.bind]
    · rw [hblank, h]
      exact target_lt (hbelow hi)
  refine ⟨out, hout, hsize.trans hblank, fun i hi => ?_⟩
  rw [hwritten i (List.mem_range.2 hi), Array.getElem?_eq_getElem hi, Option.getD_some]

/-- Shift a number of times. -/
def shiftTimes (shape : List Nat) : Nat → Array R → Result (Array R)
  | 0, data => .ok data
  | m + 1, data => do
    let data ← shift data shape
    shiftTimes shape m data

theorem exists_shiftTimes {shape : List Nat} (m : Nat) {data : Array R}
    (h : data.size = volume shape) :
    ∃ out, shiftTimes shape m data = .ok out ∧ Rotated m shape data out := by
  induction m generalizing data with
  | zero => exact ⟨data, rfl, .refl h⟩
  | succ m ih =>
    obtain ⟨next, hnext, hsize, hmoved⟩ := exists_shift h
    obtain ⟨out, hout, hrest⟩ := ih (hsize.trans h)
    exact ⟨out, bind_eq_ok_iff.2 ⟨next, hnext, hout⟩,
      (rotated_of_target h hsize hmoved).trans hrest⟩

/-- A rotation that fixes every position changes no buffer. -/
theorem shiftTimes_eq_self {shape : List Nat} {m : Nat}
    (hfixed : ∀ position, Inside position shape → rotate m shape position = position)
    {data : Array R} (h : data.size = volume shape) : shiftTimes shape m data = .ok data := by
  obtain ⟨out, hout, hrotated⟩ := exists_shiftTimes m h
  have hsame : out = data := eq_of_cell? (hrotated.1.trans h) h fun position hinside => by
    rw [← hrotated.cell?_eq hinside, hfixed position hinside]
  rw [hout, hsame]

/-- A rotation that changes no buffer fixes every position. -/
theorem rotate_eq_self [Nontrivial R] {shape : List Nat} {m : Nat}
    (hfixed : ∀ data : Array R, data.size = volume shape → shiftTimes shape m data = .ok data)
    {position : List Nat} (h : Inside position shape) : rotate m shape position = position := by
  obtain ⟨marked, plain, hne⟩ := exists_pair_ne R
  -- Only the cell at the position is marked, so it is found where the position is turned to.
  let data : Array R := Array.ofFn fun i : Fin (volume shape) =>
    if i.val = offset position shape then marked else plain
  have hsize : data.size = volume shape := Array.size_ofFn
  have hcell {p : List Nat} (hp : Inside p shape) : cell? data shape p =
      some (if offset p shape = offset position shape then marked else plain) := by
    rw [cell?_of_inside hp, Array.getElem?_ofFn, dif_pos (offset_lt hp)]
  obtain ⟨out, hout, hrotated⟩ := exists_shiftTimes m hsize
  obtain rfl : data = out := Except.ok.inj ((hfixed data hsize).symm.trans hout)
  have hturned := inside_rotate m h
  have hmark := hrotated.cell?_eq h
  rw [hcell hturned, hcell h, if_pos rfl, Option.some.injEq] at hmark
  by_contra hmoved
  rw [if_neg fun heq => hmoved (offset_injective hturned h heq)] at hmark
  exact hne hmark.symm

/-- **Quadrant shifts are permutations.** On a grid with axes of any sizes:

* the position that a cell is shifted to is always looked up, and every cell is the target of
  exactly one cell;
* a buffer of the grid is shifted without a fault to the same samples in another order, each at the
  position half a turn further on every axis, and shifting `m` times makes it `m` half turns;
* shifting twice changes no buffer exactly when every axis is even or has one cell, or the grid is
  empty. -/
theorem shift_permutes [Nontrivial R] (shape : List Nat) :
    (∀ i < volume shape, ∃ j < volume shape, Moves shape i j) ∧
    (∀ j < volume shape, ∃! i, i < volume shape ∧ Moves shape i j) ∧
    (∀ data : Array R, data.size = volume shape →
      (∃ out, shift data shape = .ok out ∧ out.toList.Perm data.toList ∧
        Rotated 1 shape data out) ∧
      ∀ m, ∃ out, shiftTimes shape m data = .ok out ∧ Rotated m shape data out) ∧
    ((∀ data : Array R, data.size = volume shape → shiftTimes shape 2 data = .ok data) ↔
      (∀ n ∈ shape, Even n ∨ n = 1) ∨ volume shape = 0) := by
  refine ⟨fun i hi => ⟨target shape i, target_lt hi, (moves_iff hi).2 rfl⟩,
    fun j hj => existsUnique_moves hj, fun data hsize => ⟨?_, fun m => exists_shiftTimes m hsize⟩,
    ⟨fun hfixed => ?_, ?_⟩⟩
  · obtain ⟨out, hout, hsame, hmoved⟩ := exists_shift hsize
    exact ⟨out, hout, perm_of_target hsize hsame hmoved, rotated_of_target hsize hsame hmoved⟩
  · rcases Nat.eq_zero_or_pos (volume shape) with hempty | hcells
    · exact .inr hempty
    · have hinside := inside_unflatten hcells
      exact .inl (even_of_rotate_two hinside (rotate_eq_self hfixed hinside))
  · rintro (heven | hempty) data hsize
    · exact shiftTimes_eq_self (fun _ hinside => rotate_two_of_even heven hinside) hsize
    · refine shiftTimes_eq_self (fun position hinside => ?_) hsize
      exact absurd (hempty ▸ offset_lt hinside) (Nat.not_lt_zero _)

/-- Three columns and two rows take six shifts to come back; four columns take two. -/
theorem shift_permutes_uneven :
    let data : Array Binary64 := #[⟨1⟩, ⟨2⟩, ⟨3⟩, ⟨4⟩, ⟨5⟩, ⟨6⟩]
    shift data [3, 2] = .ok #[⟨6⟩, ⟨4⟩, ⟨5⟩, ⟨3⟩, ⟨1⟩, ⟨2⟩] ∧
    (∃ j < 6, Moves [3, 2] 0 j) ∧ (∃! i, i < 6 ∧ Moves [3, 2] i 4) ∧
    (∃ out, shift data [3, 2] = .ok out ∧ out.toList.Perm data.toList ∧
      Rotated 1 [3, 2] data out) ∧
    (∃ out, shiftTimes [3, 2] 6 data = .ok out ∧ Rotated 6 [3, 2] data out) ∧
    (¬∀ data : Array Binary64, data.size = volume [3, 2] →
      shiftTimes [3, 2] 2 data = .ok data) ∧
    shiftTimes [4, 1] 2 (#[⟨1⟩, ⟨2⟩, ⟨3⟩, ⟨4⟩] : Array Binary64) =
      .ok #[⟨1⟩, ⟨2⟩, ⟨3⟩, ⟨4⟩] := by
  intro data
  have hwords : Nontrivial Binary64 := ⟨⟨0⟩, ⟨1⟩, by decide⟩
  obtain ⟨hmoves, hone, hshift, htwice⟩ := shift_permutes (R := Binary64) [3, 2]
  obtain ⟨hpermuted, htimes⟩ := hshift data rfl
  obtain ⟨-, -, -, htwice'⟩ := shift_permutes (R := Binary64) [4, 1]
  exact ⟨rfl, hmoves 0 (by decide), hone 4 (by decide), hpermuted, htimes 6,
    mt htwice.1 (by decide), htwice'.2 (by decide) _ rfl⟩

end Aperture.Grid
