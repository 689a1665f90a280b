import Aperture.Grid.Convolution
import Aperture.Proofs.Cube.Loops
import Aperture.Proofs.Exact.Scalar
import Mathlib.Algebra.BigOperators.Ring.Finset

/-!
# Convolutions are padded sums

A convolution looks only at pairs of an image cell and a kernel cell (`lt_of_mem_taps`), so it never
leaves a buffer, and every cell of the result is the sum over its pairs. Over exact scalars this is
the sum over the whole kernel, of an image with zeros around it (`tapSum_eq_paddedSum`).

**Theorem (`convolve_eq_padded`).** A convolution of buffers with one or two axes succeeds, with the
padded sum in every cell. It is linear in both buffers; a kernel with a single one moves the image,
and with the one at the center it changes nothing.
-/

namespace Aperture.Grid

/-! ## Cells that are looked at -/

/-- Only coordinates of the image and of the kernel meet. -/
theorem lt_of_mem_taps {size kernelSize x : Nat} {pair : Nat × Nat}
    (h : pair ∈ taps size kernelSize x) : pair.1 < size ∧ pair.2 < kernelSize := by
  obtain ⟨k, hk, hpair⟩ := List.mem_filterMap.1 h
  obtain ⟨s, hs, rfl⟩ := Option.map_eq_some_iff.1 hpair
  obtain ⟨⟨-, hlt⟩, hsome⟩ := Option.ite_none_right_eq_some.1 hs
  obtain rfl := Option.some.inj hsome
  exact ⟨hlt, List.mem_range.1 hk⟩

/-- A plane has no more cells than the buffer. -/
theorem plane_le {shape : List Nat} {w h : Nat} (hplane : plane shape = .ok (w, h)) :
    w * h ≤ volume shape := by
  have hextent (size : Nat) : extent size ≤ size := by
    unfold extent
    split
    · exact Nat.le_refl size
    · exact Nat.zero_le size
  unfold plane at hplane
  split at hplane
  · obtain ⟨rfl, rfl⟩ := Prod.mk.inj (Except.ok.inj hplane)
    exact Nat.mul_le_mul_right 1 (hextent _)
  · obtain ⟨rfl, rfl⟩ := Prod.mk.inj (Except.ok.inj hplane)
    rw [volume_cons, volume_cons, volume_nil, Nat.mul_one]
    exact Nat.mul_le_mul (hextent _) (hextent _)
  · cases hplane

theorem cell_lt {w h x y size : Nat} (hx : x < w) (hy : y < h) (hsize : w * h ≤ size) :
    x + y * w < size := by
  refine Nat.lt_of_lt_of_le ?_ hsize
  calc x + y * w < w + y * w := Nat.add_lt_add_right hx _
    _ = w * (y + 1) := by rw [Nat.mul_succ, Nat.add_comm, Nat.mul_comm]
    _ ≤ w * h := Nat.mul_le_mul_left w hy

/-- Shapes of one or two axes. -/
def Flat (shape : List Nat) : Prop := shape.length = 1 ∨ shape.length = 2

instance (shape : List Nat) : Decidable (Flat shape) :=
  inferInstanceAs (Decidable (shape.length = 1 ∨ shape.length = 2))

theorem exists_plane {shape : List Nat} (h : Flat shape) : ∃ w h, plane shape = .ok (w, h) := by
  match shape, h with
  | [w], _ => exact ⟨_, _, rfl⟩
  | [w, h], _ => exact ⟨_, _, rfl⟩

theorem plane_of_not_flat {shape : List Nat} (h : ¬Flat shape) :
    plane shape = fail (.sizeMismatch [0, 0] shape) := by
  unfold plane
  split
  · exact absurd (.inl rfl) h
  · exact absurd (.inr rfl) h
  · rfl

theorem exists_fill {α : Type} {f : Nat → Result α} {g : Nat → α} (hf : ∀ i, f i = .ok (g i))
    (count : Nat) {i : Nat} {out : Array α} (h : i + count ≤ out.size) :
    ∃ filled, fill f count i out = .ok filled ∧ filled.size = out.size ∧
      (∀ j < i, filled[j]? = out[j]?) ∧ ∀ j, i ≤ j → j < i + count → filled[j]? = some (g j) := by
  induction count generalizing i out with
  | zero => exact ⟨out, rfl, rfl, fun _ _ => rfl, fun j hle hlt => absurd hlt (Nat.not_lt.2 hle)⟩
  | succ count ih =>
    have hi : i < out.size := by omega
    let next := out.set i (g i) hi
    have hnext : next.size = out.size := Array.size_set hi
    have hroom : i + 1 + count ≤ next.size := by omega
    obtain ⟨filled, hfilled, hsize, hbefore, hrest⟩ := ih hroom
    refine ⟨filled, ?_, hsize.trans hnext, fun j hj => ?_, fun j hle hlt => ?_⟩
    · exact bind_eq_ok_iff.2 ⟨g i, hf i, bind_eq_ok_iff.2 ⟨next, setCell_of_lt hi _, hfilled⟩⟩
    · rw [hbefore j (Nat.lt_succ_of_lt hj), Array.getElem?_set_ne hi (Nat.ne_of_gt hj)]
    · rcases Nat.eq_or_lt_of_le hle with rfl | hlater
      · rw [hbefore i (Nat.lt_succ_self i), Array.getElem?_set_self hi]
      · exact hrest j hlater (by omega)

section

variable {R : Type} [Scalar R]

/-- The sum over the pairs that meet at a cell. -/
def tapSum (data kernel : Array R) (w h kw kh x y : Nat) : R :=
  (taps h kh y).foldl (fun sum row => (taps w kw x).foldl (fun sum column =>
    sum + data.getD (column.1 + row.1 * w) Scalar.zero *
      kernel.getD (column.2 + row.2 * kw) Scalar.zero) sum) Scalar.zero

theorem convolveAt_eq_tapSum {data kernel : Array R} {w h kw kh : Nat} (hdata : w * h ≤ data.size)
    (hkernel : kw * kh ≤ kernel.size) (x y : Nat) :
    convolveAt data kernel w h kw kh x y = .ok (tapSum data kernel w h kw kh x y) := by
  refine foldlM_eq_ok (fun row hrow sum => foldlM_eq_ok (fun column hcolumn sum => ?_) sum) _
  obtain ⟨hy, hky⟩ := lt_of_mem_taps hrow
  obtain ⟨hx, hkx⟩ := lt_of_mem_taps hcolumn
  have hvalue := cell_lt hx hy hdata
  have hweight := cell_lt hkx hky hkernel
  refine bind_eq_ok_iff.2 ⟨_, cellAt_of_lt hvalue, bind_eq_ok_iff.2 ⟨_, cellAt_of_lt hweight, ?_⟩⟩
  rw [Array.getElem_eq_getD Scalar.zero, Array.getElem_eq_getD Scalar.zero]

/-- Every cell of the plane gets its sum. -/
theorem exists_convolve {data kernel : Array R} {shape kernelShape : List Nat}
    (hdata : data.size = volume shape) (hkernel : kernel.size = volume kernelShape)
    {w h kw kh : Nat} (hplane : plane shape = .ok (w, h))
    (hplane' : plane kernelShape = .ok (kw, kh)) :
    ∃ out, convolve data shape kernel kernelShape = .ok out ∧ out.size = data.size ∧
      ∀ i < w * h, out[i]? = some (tapSum data kernel w h kw kh (i % w) (i / w)) := by
  have hw : w * h ≤ data.size := hdata ▸ plane_le hplane
  have hkw : kw * kh ≤ kernel.size := hkernel ▸ plane_le hplane'
  have hroom : 0 + w * h ≤ (Array.replicate data.size (Scalar.zero : R)).size := by
    rwa [Nat.zero_add, Array.size_replicate]
  obtain ⟨out, hout, hsize, -, hcells⟩ :=
    exists_fill (fun i => convolveAt_eq_tapSum hw hkw (i % w) (i / w)) (w * h) hroom
  rw [Array.size_replicate] at hsize
  refine ⟨out, bind_eq_ok_iff.2 ⟨_, hplane, bind_eq_ok_iff.2 ⟨_, hplane', hout⟩⟩, hsize, ?_⟩
  exact fun i hi => hcells i (Nat.zero_le i) (by rwa [Nat.zero_add])

end

/-! ## Padded sums -/

open Exact Finset

variable {K : Type} [Field K]

/-- The image with zeros around it. -/
def padded (data : Array K) (w h : Nat) (x y : ℤ) : K :=
  if 0 ≤ x ∧ x < w ∧ 0 ≤ y ∧ y < h then data.getD (x + y * w).toNat 0 else 0

/-- The sum over the kernel, its cell `(kw / 2, kh / 2)` being at the cell of the image. -/
def paddedSum (data kernel : Array K) (w h kw kh x y : Nat) : K :=
  ∑ ky ∈ range kh, ∑ kx ∈ range kw,
    kernel.getD (kx + ky * kw) 0 * padded data w h (x + (kw / 2 : ℕ) - kx) (y + (kh / 2 : ℕ) - ky)

theorem sum_map_taps (size kernelSize x : Nat) (f : Nat × Nat → K) :
    ((taps size kernelSize x).map f).sum =
      ∑ k ∈ range kernelSize, (tap size (kernelSize / 2) x k).elim 0 fun s => f (s, k) := by
  have hsum (l : List Nat) : ((l.filterMap fun k =>
      (tap size (kernelSize / 2) x k).map fun s => (s, k)).map f).sum =
        (l.map fun k => (tap size (kernelSize / 2) x k).elim 0 fun s => f (s, k)).sum := by
    induction l with
    | nil => rfl
    | cons k l ih => cases h : tap size (kernelSize / 2) x k <;> simp [h, ih]
  rw [taps, hsum]
  rfl

theorem foldl_add_eq {β : Type} (l : List β) (f : β → K) (s : K) :
    l.foldl (fun sum b => sum + f b) s = s + (l.map f).sum := by
  rw [← List.foldl_map, List.foldl_eq_apply_foldr]
  rfl

theorem tap_eq_some_iff {size half x k s : Nat} :
    tap size half x k = some s ↔ (x + half - k : ℤ) = s ∧ s < size := by
  rw [tap, Option.ite_none_right_eq_some, Option.some.injEq]
  omega

theorem tap_eq_none_iff {size half x k : Nat} :
    tap size half x k = none ↔ ¬(0 ≤ (x + half - k : ℤ) ∧ (x + half - k : ℤ) < size) := by
  rw [tap, ite_eq_right_iff]
  simp only [reduceCtorEq, imp_false]
  omega

/-- A pair of taps is a cell of the image, and the image is zero where there is none. -/
theorem elim_tap_eq_padded (data : Array K) (w h half half' x y kx ky : Nat) :
    ((tap h half' y ky).elim 0 fun sy => (tap w half x kx).elim 0 fun sx =>
      data.getD (sx + sy * w) 0) = padded data w h (x + half - kx) (y + half' - ky) := by
  cases hy : tap h half' y ky with
  | none =>
    rw [tap_eq_none_iff] at hy
    rw [padded, if_neg fun hin => hy hin.2.2]
    rfl
  | some sy =>
    cases hx : tap w half x kx with
    | none =>
      rw [tap_eq_none_iff] at hx
      rw [padded, if_neg fun hin => hx ⟨hin.1, hin.2.1⟩]
      rfl
    | some sx =>
      obtain ⟨hy, hylt⟩ := tap_eq_some_iff.1 hy
      obtain ⟨hx, hxlt⟩ := tap_eq_some_iff.1 hx
      have hcell : (sx + sy * w : ℤ).toNat = sx + sy * w := Int.toNat_natCast (sx + sy * w)
      rw [hx, hy, padded, if_pos (by omega), hcell]
      rfl

/-- Over exact scalars the order of the taps does not matter, and neither do those left out. -/
theorem tapSum_eq_paddedSum [LinearOrder K] [FloorRing K] (data kernel : Array K)
    (w h kw kh x y : Nat) :
    tapSum data kernel w h kw kh x y = paddedSum data kernel w h kw kh x y := by
  have hfold : tapSum data kernel w h kw kh x y =
      ((taps h kh y).map fun row => ((taps w kw x).map fun column =>
        data.getD (column.1 + row.1 * w) 0 * kernel.getD (column.2 + row.2 * kw) 0).sum).sum := by
    rw [tapSum, zero_eq]
    simp only [foldl_add_eq, zero_add]
  rw [hfold, sum_map_taps, paddedSum]
  refine sum_congr rfl fun ky _ => ?_
  simp only [sum_map_taps, ← elim_tap_eq_padded]
  cases tap h (kh / 2) y ky with
  | none => simp
  | some sy =>
    refine sum_congr rfl fun kx _ => ?_
    cases tap w (kw / 2) x kx with
    | none => exact (mul_zero _).symm
    | some sx => exact mul_comm _ _

/-! ## Planes -/

/-- The width and the height of a shape; a single axis is one row. -/
def Planar (shape : List Nat) (w h : Nat) : Prop := shape = [w] ∧ h = 1 ∨ shape = [w, h]

theorem Planar.volume_eq {shape : List Nat} {w h : Nat} (hshape : Planar shape w h) :
    volume shape = w * h := by
  obtain ⟨rfl, rfl⟩ | rfl := hshape <;> simp

theorem extent_of_lt {n : Nat} (h : n < 2 ^ 63) : extent n = n := if_pos h

/-- With cells that a word can count, the coordinates of a shape are its width and its height. A
plane without cells may lose an axis that is too long, and keeps none. -/
theorem plane_of_planar {shape : List Nat} {w h : Nat} (hshape : Planar shape w h)
    (hroom : volume shape < 2 ^ 63) :
    ∃ w' h', plane shape = .ok (w', h') ∧ w' * h' = w * h ∧ (w * h ≠ 0 → w' = w ∧ h' = h) := by
  rw [hshape.volume_eq] at hroom
  obtain ⟨rfl, rfl⟩ | rfl := hshape
  · rw [Nat.mul_one] at hroom
    exact ⟨w, 1, by rw [plane, extent_of_lt hroom], rfl, fun _ => ⟨rfl, rfl⟩⟩
  · rcases Nat.eq_zero_or_pos (w * h) with hempty | hcells
    · refine ⟨_, _, rfl, ?_, fun hne => absurd hempty hne⟩
      have hextent : extent 0 = 0 := rfl
      obtain rfl | rfl := Nat.mul_eq_zero.1 hempty <;> simp [hextent]
    · have hw : w ≤ w * h := Nat.le_mul_of_pos_right w (Nat.pos_of_mul_pos_left hcells)
      have hh : h ≤ w * h := Nat.le_mul_of_pos_left h (Nat.pos_of_mul_pos_right hcells)
      refine ⟨w, h, ?_, rfl, fun _ => ⟨rfl, rfl⟩⟩
      rw [plane, extent_of_lt (hw.trans_lt hroom), extent_of_lt (hh.trans_lt hroom)]

theorem paddedSum_of_empty {kw kh : Nat} (h : kw * kh = 0) (data kernel : Array K)
    (width height x y : Nat) : paddedSum data kernel width height kw kh x y = 0 := by
  obtain rfl | rfl := Nat.mul_eq_zero.1 h <;> simp [paddedSum]

/-- The convolution with zeros around the image. -/
def paddedConvolution (data kernel : Array K) (w h kw kh : Nat) : Array K :=
  Array.ofFn fun i : Fin (w * h) => paddedSum data kernel w h kw kh (i % w) (i / w)

theorem convolve_eq_ok [LinearOrder K] [FloorRing K] {data kernel : Array K}
    {shape kernelShape : List Nat} (hdata : data.size = volume shape)
    (hkernel : kernel.size = volume kernelShape) (hroom : data.size < 2 ^ 63)
    (hroom' : kernel.size < 2 ^ 63) {w h kw kh : Nat} (hshape : Planar shape w h)
    (hshape' : Planar kernelShape kw kh) :
    convolve data shape kernel kernelShape = .ok (paddedConvolution data kernel w h kw kh) := by
  obtain ⟨w', h', hplane, -, hsame⟩ := plane_of_planar hshape (hdata ▸ hroom)
  obtain ⟨kw', kh', hplane', harea', hsame'⟩ := plane_of_planar hshape' (hkernel ▸ hroom')
  obtain ⟨out, hout, hsize, hcells⟩ := exists_convolve hdata hkernel hplane hplane'
  rw [hdata, hshape.volume_eq] at hsize
  rw [hout, Except.ok.injEq]
  refine Array.ext_getElem? fun i => ?_
  rcases Nat.lt_or_ge i (w * h) with hi | hi
  · obtain ⟨rfl, rfl⟩ := hsame (Nat.ne_of_gt (Nat.zero_lt_of_lt hi))
    rw [hcells i hi, tapSum_eq_paddedSum, paddedConvolution, Array.getElem?_ofFn, dif_pos hi,
      Option.some.injEq]
    by_cases hempty : kw * kh = 0
    · rw [paddedSum_of_empty hempty, paddedSum_of_empty (harea'.trans hempty)]
    · obtain ⟨rfl, rfl⟩ := hsame' hempty
      rfl
  · rw [Array.getElem?_eq_none (hsize ▸ hi), Array.getElem?_eq_none]
    simpa [paddedConvolution] using hi

theorem getElem?_paddedConvolution (data kernel : Array K) {w h : Nat} (kw kh : Nat) {x y : Nat}
    (hx : x < w) (hy : y < h) :
    (paddedConvolution data kernel w h kw kh)[x + y * w]? =
      some (paddedSum data kernel w h kw kh x y) := by
  have hw : 0 < w := Nat.zero_lt_of_lt hx
  rw [paddedConvolution, Array.getElem?_ofFn, dif_pos (cell_lt hx hy le_rfl)]
  simp only [Nat.add_mul_mod_self_right, Nat.mod_eq_of_lt hx, Nat.add_mul_div_right _ _ hw,
    Nat.div_eq_of_lt hx, zero_add]

/-! ## Combinations and single ones -/

theorem padded_combine (a b : K) {x y : Array K} (hxy : x.size = y.size) (w h : Nat) (p q : ℤ) :
    padded (combine a b x y) w h p q = a * padded x w h p q + b * padded y w h p q := by
  unfold padded
  split
  · exact getD_combine a b hxy _
  · rw [mul_zero, mul_zero, add_zero]

theorem paddedSum_combine_data (a b : K) {data other : Array K} (h : data.size = other.size)
    (kernel : Array K) (width height kw kh x y : Nat) :
    paddedSum (combine a b data other) kernel width height kw kh x y =
      a * paddedSum data kernel width height kw kh x y +
        b * paddedSum other kernel width height kw kh x y := by
  simp only [paddedSum, padded_combine a b h, mul_sum, ← sum_add_distrib]
  exact sum_congr rfl fun _ _ => sum_congr rfl fun _ _ => by ring

theorem paddedSum_combine_kernel (a b : K) {kernel other : Array K} (h : kernel.size = other.size)
    (data : Array K) (width height kw kh x y : Nat) :
    paddedSum data (combine a b kernel other) width height kw kh x y =
      a * paddedSum data kernel width height kw kh x y +
        b * paddedSum data other width height kw kh x y := by
  simp only [paddedSum, getD_combine a b h, mul_sum, ← sum_add_distrib]
  exact sum_congr rfl fun _ _ => sum_congr rfl fun _ _ => by ring

/-- A buffer with a single one. -/
def impulse (size i : Nat) : Array K := Array.ofFn fun k : Fin size => if k.val = i then 1 else 0

theorem getD_impulse {size j : Nat} (hj : j < size) (i : Nat) :
    (impulse size i : Array K).getD j 0 = if j = i then 1 else 0 := by
  simp [impulse, hj]

theorem cell_injective {w x x' y y' : Nat} (hx : x < w) (hx' : x' < w)
    (h : x + y * w = x' + y' * w) : x = x' ∧ y = y' := by
  have hw : 0 < w := Nat.zero_lt_of_lt hx
  have hcolumn := congrArg (· % w) h
  have hrow := congrArg (· / w) h
  simp only [Nat.add_mul_mod_self_right, Nat.mod_eq_of_lt hx, Nat.mod_eq_of_lt hx'] at hcolumn
  simp only [Nat.add_mul_div_right _ _ hw, Nat.div_eq_of_lt hx, Nat.div_eq_of_lt hx',
    Nat.zero_add] at hrow
  exact ⟨hcolumn, hrow⟩

/-- A single one in the kernel leaves a single term of the sum. -/
theorem paddedSum_impulse (data : Array K) (w h : Nat) {kw kh px py : Nat} (hpx : px < kw)
    (hpy : py < kh) (x y : Nat) :
    paddedSum data (impulse (kw * kh) (px + py * kw)) w h kw kh x y =
      padded data w h (x + (kw / 2 : ℕ) - px) (y + (kh / 2 : ℕ) - py) := by
  have hone : (impulse (kw * kh) (px + py * kw) : Array K).getD (px + py * kw) 0 = 1 := by
    rw [getD_impulse (cell_lt hpx hpy le_rfl), if_pos rfl]
  have hzero {kx ky : Nat} (hkx : kx < kw) (hky : ky < kh) (hne : kx ≠ px ∨ ky ≠ py) :
      (impulse (kw * kh) (px + py * kw) : Array K).getD (kx + ky * kw) 0 = 0 := by
    rw [getD_impulse (cell_lt hkx hky le_rfl), if_neg fun heq => ?_]
    obtain ⟨rfl, rfl⟩ := cell_injective hkx hpx heq
    exact hne.elim (· rfl) (· rfl)
  rw [paddedSum, sum_eq_single_of_mem py (mem_range.2 hpy),
    sum_eq_single_of_mem px (mem_range.2 hpx), hone, one_mul]
  · intro kx hkx hne
    rw [hzero (mem_range.1 hkx) hpy (.inl hne), zero_mul]
  · intro ky hky hne
    refine sum_eq_zero fun kx hkx => ?_
    rw [hzero (mem_range.1 hkx) (mem_range.1 hky) (.inr hne), zero_mul]

/-- The cells of the image itself are not padding. -/
theorem padded_of_lt (data : Array K) {w h x y : Nat} (hx : x < w) (hy : y < h) :
    padded data w h x y = data.getD (x + y * w) 0 := by
  have hcell : (x + y * w : ℤ).toNat = x + y * w := Int.toNat_natCast (x + y * w)
  rw [padded, if_pos (by omega), hcell]

/-! ## Convolutions -/

theorem paddedConvolution_combine_data (a b : K) {data other : Array K}
    (hsize : data.size = other.size) (kernel : Array K) (w h kw kh : Nat) :
    paddedConvolution (combine a b data other) kernel w h kw kh =
      combine a b (paddedConvolution data kernel w h kw kh)
        (paddedConvolution other kernel w h kw kh) := by
  refine Array.ext (by simp [combine, paddedConvolution]) fun i _ _ => ?_
  simp [combine, paddedConvolution, ← paddedSum_combine_data a b hsize]

theorem paddedConvolution_combine_kernel (a b : K) {kernel other : Array K}
    (hsize : kernel.size = other.size) (data : Array K) (w h kw kh : Nat) :
    paddedConvolution data (combine a b kernel other) w h kw kh =
      combine a b (paddedConvolution data kernel w h kw kh)
        (paddedConvolution data other w h kw kh) := by
  refine Array.ext (by simp [combine, paddedConvolution]) fun i _ _ => ?_
  simp [combine, paddedConvolution, ← paddedSum_combine_kernel a b hsize]

/-- The one at the center changes nothing. -/
theorem paddedConvolution_center {data : Array K} {w h kw kh : Nat} (hsize : data.size = w * h)
    (hkw : 0 < kw) (hkh : 0 < kh) :
    paddedConvolution data (impulse (kw * kh) (kw / 2 + kh / 2 * kw)) w h kw kh = data := by
  refine Array.ext (by simp [paddedConvolution, hsize]) fun i hi hi' => ?_
  rw [hsize] at hi'
  have hw : 0 < w := Nat.pos_of_mul_pos_right (Nat.zero_lt_of_lt hi')
  have hx : i % w < w := Nat.mod_lt i hw
  have hy : i / w < h := Nat.div_lt_of_lt_mul hi'
  have hcell : i % w + i / w * w = i := by rw [Nat.mul_comm, Nat.mod_add_div]
  simp only [paddedConvolution, Array.getElem_ofFn]
  rw [paddedSum_impulse data w h (Nat.div_lt_self hkw one_lt_two)
    (Nat.div_lt_self hkh one_lt_two), add_sub_cancel_right, add_sub_cancel_right,
    padded_of_lt data hx hy, hcell, ← Array.getElem_eq_getD]

/-- **Convolutions are padded sums.** Let an image and a kernel have the cells of their shapes,
fewer than `2 ^ 63`.

* With one or two axes each, of any sizes, the convolution succeeds without leaving a buffer. Every
  cell of the result, as large as the image, is the padded sum.
* It is linear in the image and in the kernel.
* A kernel with a single one at `(px, py)` moves the image by `(px - kw / 2, py - kh / 2)` and fills
  with zeros; with the one at `(kw / 2, kh / 2)` the result is the image.
* Other shapes are reported, that of the image first. -/
theorem convolve_eq_padded [LinearOrder K] [FloorRing K] (data kernel : Array K)
    (shape kernelShape : List Nat) (hdata : data.size = volume shape)
    (hkernel : kernel.size = volume kernelShape) (hroom : data.size < 2 ^ 63)
    (hroom' : kernel.size < 2 ^ 63) :
    (∀ w h kw kh, Planar shape w h → Planar kernelShape kw kh →
      (∃ out, convolve data shape kernel kernelShape = .ok out ∧ out.size = data.size ∧
        ∀ x < w, ∀ y < h, out[x + y * w]? = some (paddedSum data kernel w h kw kh x y)) ∧
      (∀ (a b : K) (other : Array K), other.size = data.size → ∃ out out',
        convolve data shape kernel kernelShape = .ok out ∧
        convolve other shape kernel kernelShape = .ok out' ∧
        convolve (combine a b data other) shape kernel kernelShape = .ok (combine a b out out')) ∧
      (∀ (a b : K) (other : Array K), other.size = kernel.size → ∃ out out',
        convolve data shape kernel kernelShape = .ok out ∧
        convolve data shape other kernelShape = .ok out' ∧
        convolve data shape (combine a b kernel other) kernelShape = .ok (combine a b out out')) ∧
      (∀ px < kw, ∀ py < kh, ∃ out,
        convolve data shape (impulse kernel.size (px + py * kw)) kernelShape = .ok out ∧
        ∀ x < w, ∀ y < h, out[x + y * w]? =
          some (padded data w h (x + (kw / 2 : ℕ) - px) (y + (kh / 2 : ℕ) - py))) ∧
      (0 < kw → 0 < kh →
        convolve data shape (impulse kernel.size (kw / 2 + kh / 2 * kw)) kernelShape = .ok data)) ∧
    (¬Flat shape → convolve data shape kernel kernelShape = fail (.sizeMismatch [0, 0] shape)) ∧
    (Flat shape → ¬Flat kernelShape →
      convolve data shape kernel kernelShape = fail (.sizeMismatch [0, 0] kernelShape)) := by
  refine ⟨fun w h kw kh hshape hshape' => ?_, fun hflat => ?_, fun hflat hflat' => ?_⟩
  · have harea : data.size = w * h := hdata.trans hshape.volume_eq
    have harea' : kernel.size = kw * kh := hkernel.trans hshape'.volume_eq
    -- Buffers of the two sizes are convolved alike.
    have hok {image weights : Array K} (himage : image.size = data.size)
        (hweights : weights.size = kernel.size) :
        convolve image shape weights kernelShape =
          .ok (paddedConvolution image weights w h kw kh) :=
      convolve_eq_ok (himage.trans hdata) (hweights.trans hkernel) (himage ▸ hroom)
        (hweights ▸ hroom') hshape hshape'
    have himpulse (i : Nat) : (impulse kernel.size i : Array K).size = kernel.size :=
      Array.size_ofFn
    refine ⟨⟨_, hok rfl rfl, ?_, fun x hx y hy => ?_⟩, fun a b other hother => ?_,
      fun a b other hother => ?_, fun px hpx py hpy => ?_, fun hkw hkh => ?_⟩
    · rw [paddedConvolution, Array.size_ofFn, harea]
    · exact getElem?_paddedConvolution data kernel kw kh hx hy
    · refine ⟨_, _, hok rfl rfl, hok hother rfl, ?_⟩
      rw [hok (size_combine a b hother.symm) rfl, paddedConvolution_combine_data a b hother.symm]
    · refine ⟨_, _, hok rfl rfl, hok rfl hother, ?_⟩
      rw [hok rfl (size_combine a b hother.symm), paddedConvolution_combine_kernel a b hother.symm]
    · refine ⟨_, hok rfl (himpulse _), fun x hx y hy => ?_⟩
      rw [getElem?_paddedConvolution _ _ kw kh hx hy, harea', paddedSum_impulse data w h hpx hpy]
    · rw [hok rfl (himpulse _), harea', paddedConvolution_center harea hkw hkh]
  · exact bind_eq_error_iff.2 (.inl (plane_of_not_flat hflat))
  · obtain ⟨w, h, hplane⟩ := exists_plane hflat
    exact bind_eq_error_iff.2
      (.inr ⟨_, hplane, bind_eq_error_iff.2 (.inl (plane_of_not_flat hflat'))⟩)

/-- Three columns and two rows, and a kernel of a single row of two cells. -/
theorem convolve_eq_padded_differences :
    let image : Array ℚ := #[1, 2, 4, 8, 16, 32]
    let kernel : Array ℚ := #[1, -1]
    image.size = volume [3, 2] ∧ kernel.size = volume [2] ∧
    Planar [3, 2] 3 2 ∧ Planar [2] 2 1 ∧
    (∃ out : Array ℚ, convolve image [3, 2] kernel [2] = .ok out ∧ out.size = 6 ∧
      out[1 + 1 * 3]? = some (16 : ℚ) ∧ out[2 + 1 * 3]? = some (-32 : ℚ)) ∧
    (∃ out : Array ℚ, convolve image [3, 2] (impulse 2 (0 + 0 * 2)) [2] = .ok out ∧
      out[1 + 1 * 3]? = some (32 : ℚ)) ∧
    convolve image [3, 2] (impulse 2 1) [2] = .ok image ∧
    convolve image [3, 2, 1] kernel [2] = fail (.sizeMismatch [0, 0] [3, 2, 1]) ∧
    convolve image [3, 2] #[1] [] = fail (.sizeMismatch [0, 0] []) := by
  intro image kernel
  have hplane : Planar [3, 2] 3 2 := .inr rfl
  have hrow : Planar [2] 2 1 := .inl ⟨rfl, rfl⟩
  have hroom : image.size < 2 ^ 63 := by decide
  obtain ⟨hconvolve, -, -⟩ := convolve_eq_padded image kernel [3, 2] [2] rfl rfl hroom (by decide)
  obtain ⟨⟨out, hout, hsize, hcells⟩, -, -, hmove, hcenter⟩ := hconvolve 3 2 2 1 hplane hrow
  obtain ⟨moved, hmoved, hpadded⟩ := hmove 0 (by decide) 0 (by decide)
  obtain ⟨-, hsolid, -⟩ := convolve_eq_padded image kernel [3, 2, 1] [2] rfl rfl hroom (by decide)
  obtain ⟨-, -, hpoint⟩ := convolve_eq_padded image #[1] [3, 2] [] rfl rfl hroom (by decide)
  refine ⟨rfl, rfl, hplane, hrow, ⟨out, hout, hsize, ?_, ?_⟩, ⟨moved, hmoved, ?_⟩,
    hcenter (by decide) (by decide), hsolid (by decide), hpoint (by decide) (by decide)⟩
  · rw [hcells 1 (by decide) 1 (by decide)]
    decide +kernel
  · rw [hcells 2 (by decide) 1 (by decide)]
    decide +kernel
  · rw [hpadded 1 (by decide) 1 (by decide)]
    decide +kernel

end Aperture.Grid
