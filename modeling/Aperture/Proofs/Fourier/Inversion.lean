import Aperture.Cube.Arithmetic
import Aperture.Proofs.Fourier.Axes

/-!
# Grid transforms are invertible

With a line transform that is the discrete Fourier transform, the transform of a grid is the
multidimensional one, and the inverse transform is the conjugate sum over the number of cells.

**Theorem (`transforms_are_fourier`).** On every grid without empty axes both transforms answer
their sums, and the inverse transform restores the buffer, from the spectrum and from its magnitudes
and phases.
-/

namespace Aperture

open Exact Finset

/-- Polar coordinates lead back to the number. -/
theorem Complex.ofPolar_magnitude_phase (a : Complex ℝ) : ofPolar a.magnitude a.phase = a := by
  have hnorm : a.magnitude = ‖a.toPlane‖ := (Complex.norm_eq_sqrt_sq_add_sq a.toPlane).symm
  have hphase : a.phase = a.toPlane.arg := rfl
  refine toPlane_injective (Complex.ext_iff.2 ⟨?_, ?_⟩)
  · show a.magnitude * Real.cos a.phase = a.toPlane.re
    rw [hnorm, hphase, Complex.norm_mul_cos_arg]
  · show a.magnitude * Real.sin a.phase = a.toPlane.im
    rw [hnorm, hphase, Complex.norm_mul_sin_arg]

namespace Fourier

/-! ## Sums over a grid -/

/-- The cell of a buffer at a position, in the complex plane. -/
noncomputable def amplitudeAt (a : Array (Complex ℝ)) (shape position : List ℕ) : ℂ :=
  ((Grid.cell? a shape position).map Complex.toPlane).getD 0

theorem amplitudeAt_of_inside {shape position : List ℕ} (h : Grid.Inside position shape)
    (a : Array (Complex ℝ)) :
    amplitudeAt a shape position = amplitude a (Grid.offset position shape) := by
  rw [amplitudeAt, Grid.cell?_of_inside h, amplitude_eq]
  cases a[Grid.offset position shape]? <;> simp

theorem amplitudeAt_map_ofReal (data : Array ℝ) (shape position : List ℕ) :
    amplitudeAt (data.map Complex.ofReal) shape position =
      ((Grid.cell? data shape position).getD 0 : ℝ) := by
  rw [amplitudeAt, Grid.cell?_map]
  cases Grid.cell? data shape position <;> simp

theorem amplitudeAt_map_scale (k : ℝ) (a : Array (Complex ℝ)) (shape position : List ℕ) :
    amplitudeAt (a.map (Complex.scale k)) shape position = amplitudeAt a shape position * k := by
  rw [amplitudeAt, amplitudeAt, Grid.cell?_map]
  cases Grid.cell? a shape position <;> simp [Complex.toPlane_scale]

/-- Buffers of a grid with the same cells in the complex plane are equal. -/
theorem eq_of_amplitudeAt {a b : Array (Complex ℝ)} {shape : List ℕ}
    (ha : a.size = Grid.volume shape) (hb : b.size = Grid.volume shape)
    (h : ∀ position, Grid.Inside position shape →
      amplitudeAt a shape position = amplitudeAt b shape position) : a = b := by
  refine Grid.eq_of_cell? ha hb fun position hinside => ?_
  obtain ⟨x, hx⟩ := Grid.exists_cell? hinside ha
  obtain ⟨y, hy⟩ := Grid.exists_cell? hinside hb
  have hsame := h position hinside
  rw [amplitudeAt, amplitudeAt, hx, hy] at hsame
  rw [hx, hy, Complex.toPlane_injective hsame]

section

variable [Spectral ℝ] (hline : IsFourierTransform (Spectral.line (R := ℝ))) {shape : List ℕ}
  (hshape : ∀ n ∈ shape, 0 < n)

include hline hshape

theorem exists_transformAxes_at (direction : Direction) {buffer : Array (Complex ℝ)}
    (hsize : buffer.size = Grid.volume shape) :
    ∃ out, transformAxes direction shape 1 buffer = .ok out ∧ out.size = Grid.volume shape ∧
      ∀ K, Grid.Inside K shape → amplitudeAt out shape K =
        ∑ J ∈ Grid.positions shape, amplitudeAt buffer shape J * waves direction shape J K := by
  obtain ⟨out, hout, hsame, hcells⟩ := exists_transformAxes_amplitude hline direction hshape
    Nat.zero_lt_one (hsize.trans (Nat.one_mul _).symm)
  refine ⟨out, hout, hsame.trans hsize, fun K hK => ?_⟩
  have hcell := hcells 0 Nat.zero_lt_one K hK
  simp only [Nat.zero_add, Nat.one_mul] at hcell
  rw [amplitudeAt_of_inside hK, hcell]
  refine sum_congr rfl fun J hJ => ?_
  rw [amplitudeAt_of_inside (Grid.mem_positions.1 hJ)]

theorem exists_dft {data : Array ℝ} (hsize : data.size = Grid.volume shape) :
    ∃ spectrum, dft data shape = .ok spectrum ∧ spectrum.size = Grid.volume shape ∧
      ∀ K, Grid.Inside K shape → amplitudeAt spectrum shape K =
        ∑ J ∈ Grid.positions shape,
          ((Grid.cell? data shape J).getD 0 : ℝ) * waves .forward shape J K := by
  have hcomplex : (data.map Complex.ofReal).size = Grid.volume shape :=
    (Array.size_map ..).trans hsize
  obtain ⟨spectrum, hspectrum, hsame, hcells⟩ :=
    exists_transformAxes_at hline hshape .forward hcomplex
  refine ⟨spectrum, hspectrum, hsame, fun K hK => ?_⟩
  simp only [hcells K hK, amplitudeAt_map_ofReal]

theorem exists_idft {spectrum : Array (Complex ℝ)} (hsize : spectrum.size = Grid.volume shape) :
    ∃ out, idft spectrum shape = .ok out ∧ out.size = Grid.volume shape ∧
      ∀ K, Grid.Inside K shape → amplitudeAt out shape K =
        (∑ J ∈ Grid.positions shape, amplitudeAt spectrum shape J * waves .inverse shape J K) /
          Grid.volume shape := by
  obtain ⟨buffer, hbuffer, hsame, hcells⟩ := exists_transformAxes_at hline hshape .inverse hsize
  refine ⟨_, bind_eq_ok_iff.2 ⟨buffer, hbuffer, rfl⟩, (Array.size_map ..).trans hsame,
    fun K hK => ?_⟩
  rw [amplitudeAt_map_scale, hcells K hK, hsame, one_eq, ofNat_eq, Complex.ofReal_div,
    Complex.ofReal_one, Complex.ofReal_natCast, mul_one_div]

/-- The inverse transform restores the buffer. -/
theorem idft_of_dft {data : Array ℝ} (hsize : data.size = Grid.volume shape)
    {spectrum : Array (Complex ℝ)} (hspectrum : dft data shape = .ok spectrum) :
    idft spectrum shape = .ok (data.map Complex.ofReal) := by
  obtain ⟨spectrum', hspectrum', hsame, hsums⟩ := exists_dft hline hshape hsize
  obtain rfl := Except.ok.inj (hspectrum.symm.trans hspectrum')
  obtain ⟨out, hout, hsame', hmeans⟩ := exists_idft hline hshape hsame
  have hcells : (Grid.volume shape : ℂ) ≠ 0 :=
    Nat.cast_ne_zero.2 (Grid.volume_ne_zero_iff.2 fun n hn => Nat.ne_of_gt (hshape n hn))
  have hback (K : List ℕ) (hK : Grid.Inside K shape) :
      amplitudeAt out shape K = amplitudeAt (data.map Complex.ofReal) shape K := by
    have hsum := sum_sum_waves .forward shape
      (fun J => (((Grid.cell? data shape J).getD 0 : ℝ) : ℂ)) hK
    rw [hmeans K hK, amplitudeAt_map_ofReal, div_eq_iff hcells, mul_comm, ← hsum]
    refine sum_congr rfl fun J hJ => ?_
    rw [hsums J (Grid.mem_positions.1 hJ)]
    rfl
  rw [hout, eq_of_amplitudeAt hsame' ((Array.size_map ..).trans hsize) hback]

/-- Magnitudes and phases are as good as the spectrum. -/
theorem exists_dftPolar {data : Array ℝ} (hsize : data.size = Grid.volume shape) :
    ∃ magnitudes phases, dftPolar data shape = .ok (magnitudes, phases) ∧
      magnitudes.size = Grid.volume shape ∧ phases.size = Grid.volume shape ∧
      idftPolar magnitudes phases shape = .ok data := by
  obtain ⟨spectrum, hspectrum, hsame, -⟩ := exists_dft hline hshape hsize
  refine ⟨_, _, bind_eq_ok_iff.2 ⟨spectrum, hspectrum, rfl⟩, (Array.size_map ..).trans hsame,
    (Array.size_map ..).trans hsame, bind_eq_ok_iff.2 ⟨data.map Complex.ofReal, ?_, ?_⟩⟩
  · have hpolar : Array.zipWith Complex.ofPolar (spectrum.map Complex.magnitude)
        (spectrum.map Complex.phase) = spectrum :=
      Array.ext (by simp) fun i _ _ => by simp [Complex.ofPolar_magnitude_phase]
    rw [hpolar]
    exact idft_of_dft hline hshape hsize hspectrum
  · rw [Array.map_map, Except.ok.injEq]
    exact Array.map_id data

/-- The inverse transform of the transform of a cube is the cube. -/
theorem exists_cube_dft {a : Cube ℝ} (ha : a.shape = shape) :
    ∃ magnitudes phases, a.dft = .ok (magnitudes, phases) ∧ magnitudes.idft phases = .ok a := by
  subst ha
  obtain ⟨magnitudes, phases, hdft, hm, hp, hidft⟩ := exists_dftPolar hline hshape a.size_eq
  let m : Cube ℝ := { a with samples := magnitudes, size_eq := hm }
  let p : Cube ℝ := { a with samples := phases, size_eq := hp }
  have hderive : a.derive magnitudes a.shape = .ok m := dif_pos hm
  have hderive' : a.derive phases a.shape = .ok p := dif_pos hp
  have hback : m.derive a.samples m.shape = .ok a := dif_pos a.size_eq
  refine ⟨m, p, bind_eq_ok_iff.2 ⟨_, hdft, ?_⟩,
    bind_eq_ok_iff.2 ⟨(), if_pos rfl, bind_eq_ok_iff.2 ⟨_, hidft, hback⟩⟩⟩
  exact bind_eq_ok_iff.2 ⟨m, hderive, bind_eq_ok_iff.2 ⟨p, hderive', rfl⟩⟩

end

/-- **Grid transforms are Fourier transforms.** Let lines be transformed by the discrete Fourier
transform, and let the shape have any number of axes, none of them empty.

* The transform of a real buffer has at every position `K` the sum, over all positions `J`, of the
  cell at `J` times the product over the axes of `exp (-2 π i · j k / n)`.
* The inverse transform has the sums with the conjugate products, over the number of cells.
* The inverse transform restores a buffer from its spectrum, and from the magnitudes and phases of
  the spectrum; it restores a cube with everything that belongs to it. -/
theorem transforms_are_fourier [Spectral ℝ]
    (hline : IsFourierTransform (Spectral.line (R := ℝ))) {shape : List ℕ}
    (hshape : ∀ n ∈ shape, 0 < n) :
    (∀ data : Array ℝ, data.size = Grid.volume shape →
      (∃ spectrum, dft data shape = .ok spectrum ∧ spectrum.size = Grid.volume shape ∧
        (∀ K ∈ Grid.positions shape, amplitudeAt spectrum shape K =
          ∑ J ∈ Grid.positions shape,
            ((Grid.cell? data shape J).getD 0 : ℝ) * waves .forward shape J K) ∧
        idft spectrum shape = .ok (data.map Complex.ofReal)) ∧
      ∃ magnitudes phases, dftPolar data shape = .ok (magnitudes, phases) ∧
        idftPolar magnitudes phases shape = .ok data) ∧
    (∀ spectrum : Array (Complex ℝ), spectrum.size = Grid.volume shape →
      ∃ out, idft spectrum shape = .ok out ∧ out.size = Grid.volume shape ∧
        ∀ K ∈ Grid.positions shape, amplitudeAt out shape K =
          (∑ J ∈ Grid.positions shape, amplitudeAt spectrum shape J *
            starRingEnd ℂ (waves .forward shape J K)) / Grid.volume shape) ∧
    ∀ a : Cube ℝ, a.shape = shape → ∃ magnitudes phases,
      a.dft = .ok (magnitudes, phases) ∧ magnitudes.idft phases = .ok a := by
  refine ⟨fun data hsize => ⟨?_, ?_⟩, fun spectrum hsize => ?_,
    fun a ha => exists_cube_dft hline hshape ha⟩
  · obtain ⟨spectrum, hspectrum, hsame, hsums⟩ := exists_dft hline hshape hsize
    exact ⟨spectrum, hspectrum, hsame, fun K hK => hsums K (Grid.mem_positions.1 hK),
      idft_of_dft hline hshape hsize hspectrum⟩
  · obtain ⟨magnitudes, phases, hdft, -, -, hidft⟩ := exists_dftPolar hline hshape hsize
    exact ⟨magnitudes, phases, hdft, hidft⟩
  · obtain ⟨out, hout, hsame, hmeans⟩ := exists_idft hline hshape hsize
    refine ⟨out, hout, hsame, fun K hK => ?_⟩
    simp only [conj_waves]
    exact hmeans K (Grid.mem_positions.1 hK)

/-- Two rows of two cells, with an axis of one cell between them. Lines are transformed by the sum
that defines the transform. -/
theorem transforms_are_fourier_checkered :
    letI : Spectral ℝ := ⟨direct, size_direct⟩
    let data : Array ℝ := #[5, 1, 2, 3]
    IsFourierTransform (Spectral.line (R := ℝ)) ∧ (∀ n ∈ [2, 1, 2], 0 < n) ∧
    (∃ spectrum, dft data [2, 1, 2] = .ok spectrum ∧
      amplitudeAt spectrum [2, 1, 2] [1, 0, 1] = 5 - 1 - 2 + 3 ∧
      idft spectrum [2, 1, 2] = .ok (data.map Complex.ofReal)) ∧
    ∃ magnitudes phases, dftPolar data [2, 1, 2] = .ok (magnitudes, phases) ∧
      idftPolar magnitudes phases [2, 1, 2] = .ok data := by
  let spectral : Spectral ℝ := ⟨direct, size_direct⟩
  intro data
  have hline : IsFourierTransform (Spectral.line (R := ℝ)) := isFourierTransform_direct
  have hshape : ∀ n ∈ [2, 1, 2], 0 < n := by decide
  obtain ⟨hforward, -, -⟩ := transforms_are_fourier hline hshape
  obtain ⟨⟨spectrum, hspectrum, -, hsums, hback⟩, hpolar⟩ := hforward data rfl
  refine ⟨hline, hshape, ⟨spectrum, hspectrum, ?_, hback⟩, hpolar⟩
  rw [hsums [1, 0, 1] (by decide)]
  simp only [Grid.sum_positions_cons, Grid.sum_positions_nil, sum_range_succ, sum_range_zero]
  simp [waves, wave_half, Grid.cell?, Grid.flatten?, data]
  norm_num

end Fourier

end Aperture
