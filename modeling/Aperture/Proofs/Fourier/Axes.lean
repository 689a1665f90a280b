import Aperture.Proofs.Cube.Loops
import Aperture.Proofs.Fourier.Waves

/-!
# Transforms axis by axis

With a line transform that is the discrete Fourier transform, transforming an axis gives every line
along it its sums (`exists_transformAxis_amplitude`), and transforming the axes one after the other
gives the sums over the whole grid, in any stride (`exists_transformAxes_amplitude`).

A cell of a strided grid is written `inner + stride * i`, where `i` is its flat index in the grid
and `inner` says which of the `stride` grids that lie inside each other it belongs to.
-/

namespace Aperture.Fourier

open Exact Finset

theorem amplitude_eq (a : Array (Complex ℝ)) (i : ℕ) :
    amplitude a i = (a[i]?.getD Complex.zero).toPlane := by
  rw [amplitude, Array.getD_eq_getD_getElem?]

/-- The cell `k` of the line through the grids `inner` and `q` of the axes before and after. -/
theorem lineCell_eq {stride inner : ℕ} (h : inner < stride) (n q k : ℕ) :
    lineCell stride n (q * stride + inner) k = inner + stride * (k + n * q) := by
  have hstride : 0 < stride := Nat.zero_lt_of_lt h
  rw [lineCell, Nat.mul_comm q, Nat.mul_add_div hstride, Nat.div_eq_of_lt h, Nat.mul_add_mod,
    Nat.mod_eq_of_lt h]
  ring

variable [Spectral ℝ]

/-- The cells of a transformed line are the sums over the line. -/
theorem Transformed.amplitude_lineCell (hline : IsFourierTransform (Spectral.line (R := ℝ)))
    {direction : Direction} {stride n l : ℕ} {buffer out : Array (Complex ℝ)}
    (h : Transformed direction stride n l buffer out) {k : ℕ} (hk : k < n) :
    amplitude out (lineCell stride n l k) =
      ∑ j ∈ range n, amplitude buffer (lineCell stride n l j) * wave direction n (j * k) := by
  obtain ⟨line, rfl, hcells⟩ := h
  rw [amplitude_eq out, (hcells k hk).2, ← amplitude_eq, hline direction line k hk]
  refine sum_congr rfl fun j hj => ?_
  rw [amplitude_eq line, amplitude_eq buffer, (hcells j (mem_range.1 hj)).1]

theorem exists_transformAxis_amplitude (hline : IsFourierTransform (Spectral.line (R := ℝ)))
    (direction : Direction) {stride n m : ℕ} (hstride : 0 < stride) (hn : 0 < n)
    {buffer : Array (Complex ℝ)} (hsize : buffer.size = stride * n * m) :
    ∃ out, transformAxis direction stride n buffer = .ok out ∧ out.size = buffer.size ∧
      ∀ inner < stride, ∀ k < n, ∀ q < m, amplitude out (inner + stride * (k + n * q)) =
        ∑ j ∈ range n, amplitude buffer (inner + stride * (j + n * q)) *
          wave direction n (j * k) := by
  have hblock : 0 < stride * n := Nat.mul_pos hstride hn
  obtain ⟨out, hout, hsame, hshort, hlong⟩ :=
    exists_transformAxis direction (Nat.ne_of_gt hblock) buffer
  refine ⟨out, hout, hsame, fun inner hinner k hk q hq => ?_⟩
  rcases Nat.lt_or_ge 1 n with hmore | hone
  · have hl : q * stride + inner < buffer.size / (stride * n) * stride := by
      rw [hsize, Nat.mul_div_cancel_left m hblock]
      calc q * stride + inner < q * stride + stride := Nat.add_lt_add_left hinner _
        _ = (q + 1) * stride := (Nat.succ_mul q stride).symm
        _ ≤ m * stride := Nat.mul_le_mul_right stride hq
    have hcells := (hlong hmore _ hl).amplitude_lineCell hline hk
    simpa only [lineCell_eq hinner] using hcells
  · obtain rfl : n = 1 := Nat.le_antisymm hone hn
    obtain rfl : k = 0 := Nat.lt_one_iff.1 hk
    rw [hshort hone]
    simp

theorem exists_transformAxes_amplitude (hline : IsFourierTransform (Spectral.line (R := ℝ)))
    (direction : Direction) {shape : List ℕ} (hshape : ∀ n ∈ shape, 0 < n) {stride : ℕ}
    (hstride : 0 < stride) {buffer : Array (Complex ℝ)}
    (hsize : buffer.size = stride * Grid.volume shape) :
    ∃ out, transformAxes direction shape stride buffer = .ok out ∧ out.size = buffer.size ∧
      ∀ inner < stride, ∀ K, Grid.Inside K shape →
        amplitude out (inner + stride * Grid.offset K shape) =
          ∑ J ∈ Grid.positions shape, amplitude buffer (inner + stride * Grid.offset J shape) *
            waves direction shape J K := by
  induction shape generalizing stride buffer with
  | nil =>
    refine ⟨buffer, rfl, rfl, fun inner _ K hK => ?_⟩
    obtain rfl := Grid.inside_nil_iff.1 hK
    rw [Grid.sum_positions_nil]
    simp [waves]
  | cons n shape ih =>
    obtain ⟨hn, hrest⟩ := List.forall_mem_cons.1 hshape
    have hblocks : buffer.size = stride * n * Grid.volume shape := by
      rw [hsize, Grid.volume_cons, Nat.mul_assoc]
    obtain ⟨next, hnext, hsame, haxis⟩ :=
      exists_transformAxis_amplitude hline direction hstride hn hblocks
    obtain ⟨out, hout, hsame', haxes⟩ :=
      ih hrest (Nat.mul_pos hstride hn) (hsame.trans hblocks)
    refine ⟨out, bind_eq_ok_iff.2 ⟨next, hnext, hout⟩, hsame'.trans hsame, ?_⟩
    intro inner hinner K hK
    obtain ⟨k, K, hk, hK', rfl⟩ := List.forall₂_cons_right_iff.1 hK
    -- The grids of the later axes lie `n` times as deep inside each other.
    have hcell (j i : ℕ) : inner + stride * (j + n * i) = inner + stride * j + stride * n * i := by
      ring
    have hdeeper : inner + stride * k < stride * n :=
      calc inner + stride * k < stride + stride * k := Nat.add_lt_add_right hinner _
        _ = stride * (k + 1) := by rw [Nat.mul_succ, Nat.add_comm]
        _ ≤ stride * n := Nat.mul_le_mul_left stride hk
    calc amplitude out (inner + stride * Grid.offset (k :: K) (n :: shape))
        = ∑ J ∈ Grid.positions shape, amplitude next (inner + stride * k +
            stride * n * Grid.offset J shape) * waves direction shape J K := by
          rw [Grid.offset_cons, hcell, haxes _ hdeeper K hK']
      _ = ∑ J ∈ Grid.positions shape, ∑ j ∈ range n,
            amplitude buffer (inner + stride * Grid.offset (j :: J) (n :: shape)) *
              waves direction (n :: shape) (j :: J) (k :: K) := by
          refine sum_congr rfl fun J hJ => ?_
          have hJ := Grid.offset_lt (Grid.mem_positions.1 hJ)
          rw [← hcell, haxis inner hinner k hk _ hJ, sum_mul]
          refine sum_congr rfl fun j _ => ?_
          rw [Grid.offset_cons, waves_cons, mul_assoc]
      _ = _ := by rw [sum_comm, Grid.sum_positions_cons]

end Aperture.Fourier
