import Aperture.Proofs.Exact.Circle
import Aperture.Proofs.Fourier.Axes
import Aperture.Station

/-!
# Filters split recordings

A bin and its reflection `n - k` have the same frequency (`foldedFrequency_reflect`), so what a
filter leaves of the spectrum of a real recording is again the spectrum of a real recording, and the
real part after the inverse transform is all of it (`idft_filteredSpectrum`). A filter therefore
multiplies every bin by one or by zero (`bin_apply`), and a recording is determined by its bins
(`eq_of_bin`).

**Theorem (`bands_split_recordings`).** With a line transform that is the discrete Fourier
transform, a pass band and the rejected one add up to the recording, and every filter is linear and
changes nothing the second time. The filtered recording of a station fits the shape of the recording
it replaces.
-/

namespace Aperture

open Exact Finset

namespace Fourier

/-! ## Transforms of a single axis -/

section

variable {R : Type} [Spectral R]

/-- A single axis has a single line. -/
theorem transformAxes_singleton (direction : Direction) (buffer : Array (Complex R)) :
    transformAxes direction [buffer.size] 1 buffer = .ok (transformLine direction buffer) := by
  refine bind_eq_ok_iff.2 ⟨transformLine direction buffer, ?_, rfl⟩
  by_cases hshort : buffer.size ≤ 1
  · rw [transformAxis, if_pos hshort, transformLine, if_pos hshort]
  have hone : 1 * buffer.size ≠ 0 := by omega
  have hline : 0 < buffer.size / (1 * buffer.size) * 1 := by
    rw [Nat.one_mul, Nat.mul_one, Nat.div_self (by omega)]
    exact Nat.zero_lt_one
  obtain ⟨out, hout, hsize, -, hlines⟩ := exists_transformAxis direction hone buffer
  obtain ⟨line, hlength, hcells⟩ := hlines (Nat.lt_of_not_le hshort) 0 hline
  have hcell (k : Nat) : lineCell 1 buffer.size 0 k = k := by simp [lineCell]
  simp only [hcell] at hcells
  have hsame : line = buffer := Array.ext_getElem? fun k => by
    rcases Nat.lt_or_ge k buffer.size with hk | hk
    · exact (hcells k hk).1
    · rw [Array.getElem?_eq_none (hlength ▸ hk), Array.getElem?_eq_none hk]
  subst hsame
  rw [hout, transformLine, if_neg hshort, Except.ok.injEq]
  refine Array.ext_getElem? fun k => ?_
  rcases Nat.lt_or_ge k line.size with hk | hk
  · exact (hcells k hk).2
  · rw [Array.getElem?_eq_none (hsize ▸ hk), Array.getElem?_eq_none]
    rwa [Spectral.size_line]

variable [Scalar R]

theorem dft_singleton (data : Array R) :
    dft data [data.size] = .ok (transformLine .forward (data.map Complex.ofReal)) := by
  rw [dft, ← Array.size_map (f := Complex.ofReal), transformAxes_singleton]

theorem idft_singleton (spectrum : Array (Complex R)) :
    idft spectrum [spectrum.size] = .ok ((transformLine .inverse spectrum).map
      (Complex.scale (Scalar.one / Scalar.ofNat spectrum.size))) :=
  bind_eq_ok_iff.2 ⟨_, transformAxes_singleton .inverse spectrum, by rw [size_transformLine]⟩

end

/-! ## Bins -/

/-- A bin of the spectrum of a real recording. -/
noncomputable def bin (data : Array ℝ) (k : ℕ) : ℂ :=
  ∑ j ∈ range data.size, data.getD j 0 * wave .forward data.size (j * k)

theorem bin_reflect {data : Array ℝ} {k : ℕ} (hk : k ≤ data.size) :
    bin data ((data.size - k) % data.size) = starRingEnd ℂ (bin data k) := by
  rw [bin, bin, map_sum]
  refine sum_congr rfl fun j _ => ?_
  rw [map_mul, Complex.conj_ofReal, conj_wave, wave_reflect .forward hk]

theorem sum_bin_mul_wave {data : Array ℝ} {i : ℕ} (hi : i < data.size) :
    ∑ k ∈ range data.size, bin data k * wave .inverse data.size (k * i) =
      data.size * data.getD i 0 :=
  sum_sum_wave .forward (fun j => (data.getD j 0 : ℂ)) hi

/-- The bins determine the recording. -/
theorem eq_of_bin {x y : Array ℝ} (hsize : x.size = y.size)
    (h : ∀ k < x.size, bin x k = bin y k) : x = y := by
  refine Array.ext hsize fun i hi hi' => ?_
  have hn : (x.size : ℂ) ≠ 0 := Nat.cast_ne_zero.2 (Nat.ne_of_gt (Nat.zero_lt_of_lt hi))
  have hcell : (x.size : ℂ) * x.getD i 0 = x.size * y.getD i 0 := by
    rw [← sum_bin_mul_wave hi, hsize, ← sum_bin_mul_wave hi']
    exact sum_congr rfl fun k hk => by rw [h k (hsize ▸ mem_range.1 hk)]
  rw [Array.getElem_eq_getD 0, Array.getElem_eq_getD 0]
  exact Complex.ofReal_injective (mul_left_cancel₀ hn hcell)

theorem bin_combine (a b : ℝ) {x y : Array ℝ} (hsize : x.size = y.size) (k : ℕ) :
    bin (combine a b x y) k = a * bin x k + b * bin y k := by
  rw [bin, bin, bin, size_combine a b hsize, ← hsize, mul_sum, mul_sum, ← sum_add_distrib]
  refine sum_congr rfl fun j _ => ?_
  rw [getD_combine a b hsize]
  push_cast
  ring

theorem amplitude_map_ofReal (data : Array ℝ) (j : ℕ) :
    amplitude (data.map Complex.ofReal) j = data.getD j 0 := by
  rw [amplitude_eq, Array.getElem?_map, Array.getD_eq_getD_getElem?]
  cases data[j]? <;> simp

section

variable [Spectral ℝ] (hline : IsFourierTransform (Spectral.line (R := ℝ)))

include hline

theorem amplitude_transformLine (direction : Direction) (buffer : Array (Complex ℝ)) {k : ℕ}
    (hk : k < buffer.size) :
    amplitude (transformLine direction buffer) k =
      ∑ j ∈ range buffer.size, amplitude buffer j * wave direction buffer.size (j * k) := by
  rw [transformLine]
  split_ifs with hshort
  · obtain rfl : k = 0 := by omega
    have hone : buffer.size = 1 := by omega
    simp [hone]
  · exact hline direction buffer k hk

theorem amplitude_transformLine_ofReal (data : Array ℝ) {k : ℕ} (hk : k < data.size) :
    amplitude (transformLine .forward (data.map Complex.ofReal)) k = bin data k := by
  rw [amplitude_transformLine hline .forward _ (by simpa using hk), Array.size_map, bin]
  simp only [amplitude_map_ofReal]

end

end Fourier

namespace Filter

open Aperture.Fourier

/-! ## Verdicts -/

section

variable {R : Type} [Scalar R]

@[simp] theorem size_mask (filter : Filter R) (rate : R) (spectrum : Array (Complex R)) :
    (filter.mask rate spectrum).size = spectrum.size := Array.size_mapIdx

/-- A bin and its reflection have the same frequency. -/
theorem foldedFrequency_reflect {n k : Nat} (hk : k ≤ n) (rate : R) :
    foldedFrequency n (n - k) rate = foldedFrequency n k rate := by
  have hfold : (if n / 2 < n - k then n - (n - k) else n - k) =
      if n / 2 < k then n - k else k := by
    split_ifs <;> omega
  simp only [foldedFrequency, hfold]

theorem foldedFrequency_reflect_mod {n k : Nat} (hk : k < n) (rate : R) :
    foldedFrequency n ((n - k) % n) rate = foldedFrequency n k rate := by
  rcases Nat.eq_zero_or_pos k with rfl | hpos
  · rw [Nat.sub_zero, Nat.mod_self]
  · rw [Nat.mod_eq_of_lt (Nat.sub_lt (Nat.zero_lt_of_lt hk) hpos), foldedFrequency_reflect hk.le]

variable [Spectral R]

/-- What a filter leaves of the spectrum of a recording. -/
def filteredSpectrum (filter : Filter R) (rate : R) (data : Array R) : Array (Complex R) :=
  filter.mask rate (transformLine .forward (data.map Complex.ofReal))

@[simp] theorem size_filteredSpectrum (filter : Filter R) (rate : R) (data : Array R) :
    (filter.filteredSpectrum rate data).size = data.size := by
  rw [filteredSpectrum, size_mask, size_transformLine, Array.size_map]

end

/-- What a filter multiplies a bin by. -/
noncomputable def gain (filter : Filter ℝ) (rate : ℝ) (n k : ℕ) : ℂ :=
  if filter.passes (foldedFrequency n k rate) then 1 else 0

variable (filter : Filter ℝ) (rate : ℝ)

theorem gain_mul_self (n k : ℕ) :
    filter.gain rate n k * filter.gain rate n k = filter.gain rate n k := by
  unfold gain
  split_ifs <;> simp

theorem conj_gain (n k : ℕ) :
    starRingEnd ℂ (filter.gain rate n k) = filter.gain rate n k := by
  unfold gain
  split_ifs <;> simp

theorem gain_reflect {n k : ℕ} (hk : k < n) :
    filter.gain rate n ((n - k) % n) = filter.gain rate n k := by
  rw [gain, gain, foldedFrequency_reflect_mod hk]

theorem gain_bandPass_add (low high : ℝ) (n k : ℕ) :
    gain (bandPass low high) rate n k + gain (bandReject low high) rate n k = 1 := by
  rw [gain, gain, passes, passes]
  cases Scalar.within low high (foldedFrequency n k rate) <;> simp

theorem amplitude_mask (spectrum : Array (Complex ℝ)) (k : ℕ) :
    amplitude (filter.mask rate spectrum) k =
      filter.gain rate spectrum.size k * amplitude spectrum k := by
  rw [amplitude_eq, amplitude_eq, mask, Array.getElem?_mapIdx, gain]
  cases spectrum[k]? with
  | none => simp
  | some z =>
    by_cases h : filter.passes (foldedFrequency spectrum.size k rate) <;> simp [h]

/-! ## Filtered recordings -/

/-- The sums of the inverse transform of what a filter leaves of a spectrum. -/
noncomputable def filteredSum (data : Array ℝ) (i : ℕ) : ℂ :=
  ∑ k ∈ range data.size,
    filter.gain rate data.size k * bin data k * wave .inverse data.size (k * i)

/-- The bins of a real recording come in conjugate pairs, and the filter keeps the pairs. -/
theorem conj_filteredSum (data : Array ℝ) (i : ℕ) :
    starRingEnd ℂ (filter.filteredSum rate data i) = filter.filteredSum rate data i := by
  rw [filteredSum, map_sum, ← sum_reflect data.size fun k =>
    filter.gain rate data.size k * bin data k * wave .inverse data.size (k * i)]
  refine sum_congr rfl fun k hk => ?_
  have hk := mem_range.1 hk
  rw [map_mul, map_mul, conj_gain, conj_wave, gain_reflect filter rate hk, bin_reflect hk.le,
    Nat.mul_comm _ i, Nat.mul_comm _ i, wave_reflect .inverse hk.le]

section

variable [Spectral ℝ] (hline : IsFourierTransform (Spectral.line (R := ℝ))) (data : Array ℝ)

include hline

theorem amplitude_filteredSpectrum {k : ℕ} (hk : k < data.size) :
    amplitude (filter.filteredSpectrum rate data) k =
      filter.gain rate data.size k * bin data k := by
  rw [filteredSpectrum, amplitude_mask, amplitude_transformLine_ofReal hline data hk,
    size_transformLine, Array.size_map]

/-- What a filter leaves of the spectrum of a real recording is Hermitian. -/
theorem filteredSpectrum_reflect {k : ℕ} (hk : k < data.size) :
    (filter.filteredSpectrum rate data)[(data.size - k) % data.size]? =
      (filter.filteredSpectrum rate data)[k]?.map Complex.conj := by
  have hsize := size_filteredSpectrum filter rate data
  have hk' : (data.size - k) % data.size < data.size := Nat.mod_lt _ (Nat.zero_lt_of_lt hk)
  have hpair : amplitude (filter.filteredSpectrum rate data) ((data.size - k) % data.size) =
      starRingEnd ℂ (amplitude (filter.filteredSpectrum rate data) k) := by
    rw [amplitude_filteredSpectrum filter rate hline data hk',
      amplitude_filteredSpectrum filter rate hline data hk, gain_reflect filter rate hk,
      bin_reflect hk.le, map_mul, conj_gain]
  rw [amplitude_of_lt (hsize ▸ hk'), amplitude_of_lt (hsize ▸ hk), ← Complex.toPlane_conj] at hpair
  rw [Array.getElem?_eq_getElem (hsize ▸ hk'), Array.getElem?_eq_getElem (hsize ▸ hk),
    Complex.toPlane_injective hpair, Option.map_some]

theorem amplitude_inverse {i : ℕ} (hi : i < data.size) :
    amplitude (transformLine .inverse (filter.filteredSpectrum rate data)) i =
      filter.filteredSum rate data i := by
  rw [amplitude_transformLine hline .inverse _ (by simpa using hi), size_filteredSpectrum,
    filteredSum]
  refine sum_congr rfl fun k hk => ?_
  rw [amplitude_filteredSpectrum filter rate hline data (mem_range.1 hk)]

/-- The sums are real, so their real parts are the sums. -/
theorem getD_apply {i : ℕ} (hi : i < data.size) :
    ((filter.apply data rate).getD i 0 : ℂ) = filter.filteredSum rate data i / data.size := by
  have hsum := amplitude_inverse filter rate hline data hi
  rw [amplitude_of_lt (by simpa using hi)] at hsum
  rw [← Complex.conj_eq_iff_re.1 (conj_filteredSum filter rate data i), ← hsum]
  simp [apply, filteredSpectrum, hi, div_eq_mul_inv]

/-- The inverse transform of what a filter leaves is real: it is the filtered recording. -/
theorem idft_filteredSpectrum :
    idft (filter.filteredSpectrum rate data) [data.size] =
      .ok ((filter.apply data rate).map Complex.ofReal) := by
  have hidft := idft_singleton (filter.filteredSpectrum rate data)
  rw [size_filteredSpectrum] at hidft
  rw [hidft, Except.ok.injEq]
  refine eq_of_amplitude (by simp) fun i hi => ?_
  have hi : i < data.size := by simpa using hi
  rw [amplitude_map_ofReal, getD_apply filter rate hline data hi,
    ← amplitude_inverse filter rate hline data hi, amplitude_of_lt (by simpa using hi),
    amplitude_of_lt (by simpa using hi), Array.getElem_map, Complex.toPlane_scale]
  simp [div_eq_mul_inv]

/-- A filter multiplies every bin by its gain. -/
theorem bin_apply {k : ℕ} (hk : k < data.size) :
    bin (filter.apply data rate) k = filter.gain rate data.size k * bin data k := by
  have hn : (data.size : ℂ) ≠ 0 := Nat.cast_ne_zero.2 (Nat.ne_of_gt (Nat.zero_lt_of_lt hk))
  have hback := sum_sum_wave .inverse (fun k => filter.gain rate data.size k * bin data k) hk
  rw [bin, size_apply, ← mul_right_inj' hn, ← hback, mul_sum]
  refine sum_congr rfl fun i hi => ?_
  rw [getD_apply filter rate hline data (mem_range.1 hi), filteredSum, ← mul_assoc,
    mul_div_cancel₀ _ hn]
  rfl

/-- A pass band and the rejected one add up to the recording. -/
theorem apply_bandPass_add (low high : ℝ) :
    Array.zipWith (· + ·) ((bandPass low high).apply data rate)
      ((bandReject low high).apply data rate) = data := by
  have hone (x y : Array ℝ) : Array.zipWith (· + ·) x y = combine 1 1 x y := by simp [combine]
  have hsame : ((bandPass low high).apply data rate).size =
      ((bandReject low high).apply data rate).size := by simp
  have hsize := size_combine 1 1 hsame
  rw [size_apply] at hsize
  rw [hone]
  refine eq_of_bin hsize fun k hk => ?_
  have hk : k < data.size := hsize ▸ hk
  rw [bin_combine 1 1 hsame, bin_apply _ rate hline data hk, bin_apply _ rate hline data hk,
    Complex.ofReal_one, one_mul, one_mul, ← add_mul, gain_bandPass_add, one_mul]

/-- Filtering twice is filtering once. -/
theorem apply_apply :
    filter.apply (filter.apply data rate) rate = filter.apply data rate := by
  refine eq_of_bin (by simp) fun k hk => ?_
  have hk : k < data.size := by simpa using hk
  rw [bin_apply filter rate hline _ (by simpa using hk), size_apply,
    bin_apply filter rate hline data hk, ← mul_assoc, gain_mul_self]

theorem apply_combine (a b : ℝ) {other : Array ℝ} (hsize : data.size = other.size) :
    filter.apply (combine a b data other) rate =
      combine a b (filter.apply data rate) (filter.apply other rate) := by
  have hcombine := size_combine a b hsize
  have hsame : (filter.apply data rate).size = (filter.apply other rate).size := by
    rw [size_apply, size_apply, hsize]
  refine eq_of_bin (by rw [size_apply, size_combine a b hsame, hcombine, size_apply]) fun k hk => ?_
  have hk : k < data.size := by rwa [size_apply, hcombine] at hk
  rw [bin_apply filter rate hline _ (hcombine ▸ hk), bin_combine a b hsize, hcombine,
    bin_combine a b hsame, bin_apply filter rate hline data hk,
    bin_apply filter rate hline other (hsize ▸ hk), ← hsize]
  ring

/-- A filtered station is not changed by filtering it again. -/
theorem filtered_filtered (s : Station ℝ) (name : String) (index : ℕ) :
    (s.filtered name index filter).filtered name index filter = s.filtered name index filter := by
  have hsamples := apply_apply filter s.recording.rate hline s.recording.samples
  simp only [Station.filtered, Cube.replace, hsamples]

end

/-- **Filters split recordings.** Let lines be transformed by the discrete Fourier transform, and
let a recording of any length have any sample rate.

* A pass band and the rejected one, with bounds in any order, add up to the recording.
* A bin and its reflection get the same verdict of every filter.
* Every filter keeps the length, changes nothing the second time, and is linear.
* What a filter leaves of the spectrum is Hermitian, and its inverse transform is real: it is the
  filtered recording.
* A filtered station has a recording of the same shape and the same number of samples. -/
theorem bands_split_recordings [Spectral ℝ]
    (hline : IsFourierTransform (Spectral.line (R := ℝ))) (rate : ℝ) :
    (∀ (low high : ℝ) (data : Array ℝ),
      Array.zipWith (· + ·) ((bandPass low high).apply data rate)
        ((bandReject low high).apply data rate) = data) ∧
    ∀ filter : Filter ℝ,
      (∀ n k, k ≤ n → filter.passes (foldedFrequency n (n - k) rate) =
        filter.passes (foldedFrequency n k rate)) ∧
      (∀ data : Array ℝ,
        (filter.apply data rate).size = data.size ∧
        filter.apply (filter.apply data rate) rate = filter.apply data rate ∧
        (∀ (a b : ℝ) (other : Array ℝ), other.size = data.size →
          filter.apply (combine a b data other) rate =
            combine a b (filter.apply data rate) (filter.apply other rate)) ∧
        ∃ spectrum, dft data [data.size] = .ok spectrum ∧
          (∀ k < data.size, (filter.mask rate spectrum)[(data.size - k) % data.size]? =
            (filter.mask rate spectrum)[k]?.map Complex.conj) ∧
          idft (filter.mask rate spectrum) [data.size] =
            .ok ((filter.apply data rate).map Complex.ofReal)) ∧
      ∀ (s : Station ℝ) (name : String) (index : ℕ),
        (filter.apply s.recording.samples s.recording.rate).size = s.recording.samples.size ∧
        (s.filtered name index filter).recording.samples =
          filter.apply s.recording.samples s.recording.rate ∧
        (s.filtered name index filter).recording.shape = s.recording.shape ∧
        (s.filtered name index filter).filtered name index filter =
          s.filtered name index filter := by
  refine ⟨fun low high data => apply_bandPass_add rate hline data low high, fun filter =>
    ⟨fun n k hk => by rw [foldedFrequency_reflect hk], fun data => ?_, fun s name index => ?_⟩⟩
  · exact ⟨size_apply filter data rate, apply_apply filter rate hline data,
      fun a b other hsize => apply_combine filter rate hline data a b hsize.symm,
      _, dft_singleton data, fun k hk => filteredSpectrum_reflect filter rate hline data hk,
      idft_filteredSpectrum filter rate hline data⟩
  · exact ⟨size_apply filter _ _, rfl, rfl, filtered_filtered filter hline s name index⟩

/-- The mean of two samples is what lies at the frequency zero, and the rest is what is rejected
there. Lines are transformed by the sum that defines the transform. -/
theorem bands_split_recordings_mean :
    letI : Spectral ℝ := ⟨direct, size_direct⟩
    let mean : Filter ℝ := bandPass 0 0
    let rest : Filter ℝ := bandReject 0 0
    IsFourierTransform (Spectral.line (R := ℝ)) ∧
    mean.apply #[5, 1] 2 = #[3, 3] ∧
    Array.zipWith (· + ·) #[3, 3] (rest.apply #[5, 1] 2) = #[5, 1] ∧
    mean.apply #[3, 3] 2 = #[3, 3] ∧
    mean.apply (combine 2 1 #[5, 1] #[0, 4]) 2 = combine 2 1 #[3, 3] (mean.apply #[0, 4] 2) := by
  let spectral : Spectral ℝ := ⟨direct, size_direct⟩
  intro mean rest
  have hline : IsFourierTransform (Spectral.line (R := ℝ)) := isFourierTransform_direct
  have hmean : mean.apply #[5, 1] 2 = #[3, 3] := by
    refine eq_of_bin (size_apply ..) fun k hk => ?_
    have hk : k < 2 := hk.trans_eq (size_apply ..)
    rw [bin_apply mean 2 hline #[5, 1] hk]
    interval_cases k <;>
      simp [bin, gain, mean, passes, Scalar.within, foldedFrequency, sum_range_succ, wave_half]
    norm_num
  obtain ⟨hsplit, hfilter⟩ := bands_split_recordings hline 2
  obtain ⟨-, happly, -⟩ := hfilter mean
  obtain ⟨-, htwice, hlinear, -⟩ := happly #[5, 1]
  rw [hmean] at htwice
  refine ⟨hline, hmean, ?_, htwice, ?_⟩
  · rw [← hmean]
    exact hsplit 0 0 #[5, 1]
  · rw [hlinear 2 1 #[0, 4] rfl, hmean]

end Filter

end Aperture
