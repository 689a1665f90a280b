import Aperture.Fourier.Transform

/-!
# Filters

Frequency filters for recordings. The recording is transformed, the bins whose frequency is not
passed are cleared, and the result is transformed back. A bin and its conjugate `n - k` have the
same frequency, so they are kept or cleared together.
-/

namespace Aperture

open Scalar

/-- Which frequencies are passed, in hertz. -/
inductive Filter (R : Type) where
  | lowPass (cutoff : R)
  | highPass (cutoff : R)
  | bandPass (low high : R)
  | bandReject (low high : R)
deriving DecidableEq

namespace Filter

variable {R : Type} [Scalar R]

/-- Whether a frequency is passed. -/
def passes : Filter R → R → Bool
  | lowPass cutoff, f => le f cutoff
  | highPass cutoff, f => le cutoff f
  | bandPass low high, f => within low high f
  | bandReject low high, f => !within low high f

/-- Frequency of bin `k` of `n`, at a sample rate. -/
def foldedFrequency (n k : Nat) (rate : R) : R :=
  let folded := if n / 2 < k then n - k else k
  ofNat folded * rate / ofNat n

/-- Clear the bins of a spectrum that are not passed. -/
def mask (filter : Filter R) (rate : R) (spectrum : Array (Complex R)) : Array (Complex R) :=
  spectrum.mapIdx fun k bin =>
    if filter.passes (foldedFrequency spectrum.size k rate) then bin else Complex.zero

variable [Fourier.Spectral R]

/-- The filtered recording. -/
def apply (filter : Filter R) (data : Array R) (rate : R) : Array R :=
  let spectrum := filter.mask rate (Fourier.transformLine .forward (data.map Complex.ofReal))
  (Fourier.transformLine .inverse spectrum).map fun bin => bin.re * (one / ofNat data.size)

@[simp] theorem size_apply (filter : Filter R) (data : Array R) (rate : R) :
    (filter.apply data rate).size = data.size := by
  simp [apply, mask]

end Filter

end Aperture
