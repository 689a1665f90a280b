import Aperture.Grid.Statistics
import Aperture.Proofs.Exact.Scalar
import Mathlib.Order.Bounds.Basic

/-!
# Ranges over exact scalars

The folds that look for the smallest and the largest cell start at the first cell, so over exact
scalars they find the minimum and the maximum of the buffer (`isLeast_minimum`,
`isGreatest_maximum`).

`Stretched` says what becomes of a buffer that is stretched to another range, and
`stretched_stretch` that `stretch` does this. A buffer that is not constant is mapped by an affine
function that takes its ends to the ends of the range; a constant buffer goes to the lower end.
-/

namespace Aperture.Grid

open Exact

variable {K : Type} [Field K] [LinearOrder K] [FloorRing K]

/-! ## The smallest and the largest cell -/

/-- The fold starts at the first cell. -/
theorem extreme_eq (better : K → K → K) (data : Array K) :
    extreme better data = match data.toList with
      | [] => none
      | x :: rest => some (rest.foldl better x) := by
  have hrest (rest : List K) (best : K) :
      rest.foldl (fun best x => if Scalar.isNumber x then some (best.elim x (better · x)) else best)
        (some best) = some (rest.foldl better best) := by
    induction rest generalizing best with
    | nil => rfl
    | cons x rest ih => simpa [Scalar.isNumber] using ih (better best x)
  rw [extreme, ← Array.foldl_toList]
  cases data.toList with
  | nil => rfl
  | cons x rest => simpa [Scalar.isNumber] using hrest rest x

theorem extreme_least (data : Array K) : extreme Scalar.least data = data.toList.min? := by
  have hleast : (Scalar.least : K → K → K) = min := funext₂ least_eq
  rw [extreme_eq, hleast]
  cases data.toList <;> rfl

theorem extreme_greatest (data : Array K) : extreme Scalar.greatest data = data.toList.max? := by
  have hgreatest : (Scalar.greatest : K → K → K) = max := funext₂ greatest_eq
  rw [extreme_eq, hgreatest]
  cases data.toList <;> rfl

theorem isLeast_minimum {data : Array K} (h : 0 < data.size) :
    IsLeast {x | x ∈ data} (minimum data) := by
  obtain ⟨least, hleast⟩ := Option.isSome_iff_exists.1
    (List.isSome_min?_of_mem (Array.getElem_mem_toList h))
  obtain ⟨hmem, hbound⟩ := List.min?_eq_some_iff.1 hleast
  rw [minimum, extreme_least, hleast]
  exact ⟨Array.mem_toList_iff.1 hmem, fun x hx => hbound x (Array.mem_toList_iff.2 hx)⟩

theorem isGreatest_maximum {data : Array K} (h : 0 < data.size) :
    IsGreatest {x | x ∈ data} (maximum data) := by
  obtain ⟨greatest, hgreatest⟩ := Option.isSome_iff_exists.1
    (List.isSome_max?_of_mem (Array.getElem_mem_toList h))
  obtain ⟨hmem, hbound⟩ := List.max?_eq_some_iff.1 hgreatest
  rw [maximum, extreme_greatest, hgreatest]
  exact ⟨Array.mem_toList_iff.1 hmem, fun x hx => hbound x (Array.mem_toList_iff.2 hx)⟩

/-- All cells are the same. -/
def Constant (data : Array K) : Prop := ∀ x ∈ data, ∀ y ∈ data, x = y

instance (data : Array K) : Decidable (Constant data) :=
  inferInstanceAs (Decidable (∀ x ∈ data, ∀ y ∈ data, x = y))

theorem constant_iff {data : Array K} (h : 0 < data.size) :
    Constant data ↔ ¬minimum data < maximum data := by
  obtain ⟨hleast, hlower⟩ := isLeast_minimum h
  obtain ⟨hgreatest, hupper⟩ := isGreatest_maximum h
  constructor
  · intro hsame
    exact not_lt.2 (hsame _ hgreatest _ hleast).le
  · intro hrange x hx y hy
    have hends := not_lt.1 hrange
    exact le_antisymm ((hupper hx).trans (hends.trans (hlower hy)))
      ((hupper hy).trans (hends.trans (hlower hx)))

/-! ## Stretching -/

/-- The buffer `out` is `data`, stretched to the range from `low` to `high`. -/
structure Stretched (data out : Array K) (low high : K) : Prop where
  size : out.size = data.size
  within : ∀ x ∈ out, low ≤ x ∧ x ≤ high
  /-- Cells that differ are mapped by one affine function, which increases unless the range is a
  single number. -/
  affine (h : ¬Constant data) : ∃ slope offset, out = data.map (fun x => slope * x + offset) ∧
    0 ≤ slope ∧ (slope = 0 ↔ low = high)
  /-- Cells that differ fill the range. -/
  fills (h : ¬Constant data) : IsLeast {x | x ∈ out} low ∧ IsGreatest {x | x ∈ out} high
  ordered : ∀ i < data.size, ∀ j < data.size, data.getD i 0 ≤ data.getD j 0 →
    out.getD i 0 ≤ out.getD j 0
  strict (h : low < high) : ∀ i < data.size, ∀ j < data.size, data.getD i 0 < data.getD j 0 →
    out.getD i 0 < out.getD j 0
  flat (h : Constant data) : ∀ x ∈ out, x = low

omit [LinearOrder K] [FloorRing K] in
theorem getD_map {data : Array K} (f : K → K) {i : Nat} (hi : i < data.size) :
    (data.map f).getD i 0 = f (data.getD i 0) := by
  simp [hi]

/-- The affine function that takes `least` to `low` and `greatest` to `high`. -/
def rescale (least greatest low high x : K) : K :=
  (x - least) * ((high - low) / (greatest - least)) + low

section

variable {least greatest low high : K}

omit [LinearOrder K] [FloorRing K] in
theorem rescale_least : rescale least greatest low high least = low := by
  simp [rescale]

variable [IsStrictOrderedRing K]

omit [FloorRing K] in
theorem rescale_greatest (h : least < greatest) :
    rescale least greatest low high greatest = high := by
  simp [rescale, mul_div_cancel₀ _ (sub_pos.2 h).ne']

omit [FloorRing K] in
theorem slope_nonneg (h : least < greatest) (hrange : low ≤ high) :
    0 ≤ (high - low) / (greatest - least) :=
  div_nonneg (sub_nonneg.2 hrange) (sub_pos.2 h).le

omit [FloorRing K] in
theorem slope_eq_zero_iff (h : least < greatest) :
    (high - low) / (greatest - least) = 0 ↔ low = high := by
  rw [div_eq_zero_iff, or_iff_left (sub_pos.2 h).ne', sub_eq_zero, eq_comm]

omit [FloorRing K] in
theorem monotone_rescale (h : least < greatest) (hrange : low ≤ high) :
    Monotone (rescale least greatest low high) := fun _ _ hxy =>
  add_le_add_left (mul_le_mul_of_nonneg_right (sub_le_sub_right hxy _) (slope_nonneg h hrange)) low

omit [FloorRing K] in
theorem strictMono_rescale (h : least < greatest) (hrange : low < high) :
    StrictMono (rescale least greatest low high) := fun _ _ hxy =>
  add_lt_add_left (mul_lt_mul_of_pos_right (sub_lt_sub_right hxy _)
    (div_pos (sub_pos.2 hrange) (sub_pos.2 h))) low

end

variable [IsStrictOrderedRing K]

theorem stretch_eq_map (data : Array K) (low high : K) :
    stretch data low high =
      if minimum data < maximum data then
        data.map (rescale (minimum data) (maximum data) low high)
      else data.map fun _ => low := by
  have hrange : Scalar.isPositive (maximum data - minimum data) =
      decide (minimum data < maximum data) := by
    simp [Scalar.isPositive, sub_pos]
  simp only [stretch, hrange, decide_eq_true_eq]
  rfl

/-- A buffer that is not constant is mapped from its own range to the new one. -/
theorem stretched_of_lt {data : Array K} (hdata : 0 < data.size) {low high : K} (h : low ≤ high)
    (hlt : minimum data < maximum data) : Stretched data (stretch data low high) low high := by
  obtain ⟨hleast, hlower⟩ := isLeast_minimum hdata
  obtain ⟨hgreatest, hupper⟩ := isGreatest_maximum hdata
  have hconstant : ¬Constant data := fun hsame => (constant_iff hdata).1 hsame hlt
  have hmono := monotone_rescale hlt h
  have hlow : rescale (minimum data) (maximum data) low high (minimum data) = low := rescale_least
  have hhigh : rescale (minimum data) (maximum data) low high (maximum data) = high :=
    rescale_greatest hlt
  rw [stretch_eq_map, if_pos hlt]
  have hwithin : ∀ y ∈ data.map (rescale (minimum data) (maximum data) low high),
      low ≤ y ∧ y ≤ high := by
    intro y hy
    obtain ⟨x, hx, rfl⟩ := Array.mem_map.1 hy
    exact ⟨hlow.ge.trans (hmono (hlower hx)), (hmono (hupper hx)).trans hhigh.le⟩
  refine ⟨Array.size_map .., hwithin, fun _ => ⟨(high - low) / (maximum data - minimum data),
      low - minimum data * ((high - low) / (maximum data - minimum data)), ?_,
      slope_nonneg hlt h, slope_eq_zero_iff hlt⟩,
    fun _ => ⟨⟨?_, fun x hx => (hwithin x hx).1⟩, ⟨?_, fun x hx => (hwithin x hx).2⟩⟩,
    fun i hi j hj hle => ?_, fun hstrict i hi j hj hdiffer => ?_,
    fun hsame => absurd hsame hconstant⟩
  · congr 1
    funext x
    rw [rescale]
    ring
  · exact Array.mem_map.2 ⟨_, hleast, hlow⟩
  · exact Array.mem_map.2 ⟨_, hgreatest, hhigh⟩
  · rw [getD_map _ hi, getD_map _ hj]
    exact hmono hle
  · rw [getD_map _ hi, getD_map _ hj]
    exact strictMono_rescale hlt hstrict hdiffer

/-- A constant buffer goes to the lower end. -/
theorem stretched_of_not_lt {data : Array K} (hdata : 0 < data.size) {low high : K}
    (h : low ≤ high) (hlt : ¬minimum data < maximum data) :
    Stretched data (stretch data low high) low high := by
  have hconstant : Constant data := (constant_iff hdata).2 hlt
  have hflat : ∀ y ∈ data.map fun _ => low, y = low := by simp
  rw [stretch_eq_map, if_neg hlt]
  refine ⟨Array.size_map .., fun x hx => ?_, fun hdiffer => absurd hconstant hdiffer,
    fun hdiffer => absurd hconstant hdiffer, fun i hi j hj _ => ?_, fun _ i hi j hj hlt => ?_,
    fun _ => hflat⟩
  · rw [hflat x hx]
    exact ⟨le_rfl, h⟩
  · rw [getD_map _ hi, getD_map _ hj]
  · have hsame : data.getD i 0 = data.getD j 0 := by
      rw [← Array.getElem_eq_getD 0 (h := hi), ← Array.getElem_eq_getD 0 (h := hj)]
      exact hconstant _ (Array.getElem_mem hi) _ (Array.getElem_mem hj)
    exact absurd hsame hlt.ne

theorem stretched_stretch {data : Array K} (hdata : 0 < data.size) {low high : K}
    (h : low ≤ high) : Stretched data (stretch data low high) low high := by
  by_cases hlt : minimum data < maximum data
  · exact stretched_of_lt hdata h hlt
  · exact stretched_of_not_lt hdata h hlt

end Aperture.Grid
