import Aperture.Grid.Index
import Aperture.Location
import Aperture.Target
import Aperture.Time.Epoch

/-!
# Cubes

A **cube** is a grid of samples on any number of axes, with the metadata of the observation it
comes from. Recordings of a station, correlated streams and images are all cubes.

* The number of samples is always the number of cells of the shape.
* `sampleAt` looks a sample up by time: sample `i` covers the time from `i / rate` to
  `(i + 1) / rate` seconds after the start.
-/

namespace Aperture

open Scalar

/-- A grid of samples with its metadata. -/
structure Cube (R : Type) where
  samples : Array R
  /-- Axis sizes, the first axis varying fastest. -/
  shape : List Nat
  size_eq : samples.size = Grid.volume shape
  start : Epoch
  /-- Samples per second. -/
  rate : R
  /-- Observing wavelength in meters. -/
  wavelength : R
  target : Target R
  location : Location R

namespace Cube

variable {R : Type}

/-- New samples in the same shape. -/
def replace (c : Cube R) (samples : Array R) (h : samples.size = c.samples.size) : Cube R :=
  { c with samples, size_eq := h.trans c.size_eq }

@[simp] theorem samples_replace (c : Cube R) (samples : Array R)
    (h : samples.size = c.samples.size) : (c.replace samples h).samples = samples := rfl

@[simp] theorem shape_replace (c : Cube R) (samples : Array R)
    (h : samples.size = c.samples.size) : (c.replace samples h).shape = c.shape := rfl

variable [Scalar R]

/-! ## Building -/

/-- Samples with a shape that holds them, and metadata that nothing was said about. -/
def ofShape (samples : Array R) (shape : List Nat) (h : samples.size = Grid.volume shape) :
    Cube R :=
  { samples, shape, size_eq := h
    start := Epoch.j2000
    rate := one
    wavelength := one
    target := .origin
    location := .origin }

/-- Zeros in a shape. -/
def zeros (shape : List Nat) : Cube R :=
  ofShape (Array.replicate (Grid.volume shape) zero) shape (by simp)

/-- Samples along a single axis. -/
def ofSamples (samples : Array R) : Cube R := ofShape samples [samples.size] (by simp)

/-- Samples in a shape, when their number is right. -/
def withShape (samples : Array R) (shape : List Nat) : Result (Cube R) :=
  if h : samples.size = Grid.volume shape then .ok (ofShape samples shape h)
  else fail (.sizeMismatch shape [samples.size])

/-- New samples in a new shape with the metadata of `c`. -/
def derive (c : Cube R) (samples : Array R) (shape : List Nat) : Result (Cube R) :=
  if h : samples.size = Grid.volume shape then .ok { c with samples, shape, size_eq := h }
  else fail (.sizeMismatch shape [samples.size])

/-- One sample changed. An index without a sample changes nothing. -/
def setSample (c : Cube R) (i : Nat) (value : R) : Cube R :=
  c.replace (c.samples.setIfInBounds i value) (by simp)

/-- The wavelength of an observing frequency. -/
def withFrequency (c : Cube R) (frequency : R) : Cube R :=
  { c with wavelength := Constant.speedOfLight / frequency }

/-! ## Looking up -/

def size (c : Cube R) : Nat := c.samples.size

/-- Start in seconds since J2000. -/
def startSeconds (c : Cube R) : R := c.start.seconds

/-- Seconds covered by the samples, zero when the rate is not positive. -/
def duration (c : Cube R) : R :=
  if lt zero c.rate then ofNat c.size / c.rate else zero

/-- End in seconds since J2000. -/
def endSeconds (c : Cube R) : R := c.startSeconds + c.duration

/-- Number of the sample recorded at a time, `none` outside the recording. -/
def indexAt (c : Cube R) (seconds : R) : Option Nat :=
  let offset := floor ((seconds - c.startSeconds) * c.rate)
  if isFinite offset && le zero offset && decide (toNat offset < c.size) then some (toNat offset)
  else none

/-- The sample recorded at a time, `none` outside the recording. -/
def sampleAt (c : Cube R) (seconds : R) : Option R := do
  let i ← c.indexAt seconds
  c.samples[i]?

/-- Equal as numbers, in every sample and every metadata field. -/
def same (a b : Cube R) : Bool :=
  a.samples.size == b.samples.size &&
    (Array.zipWith eq a.samples b.samples).all id &&
    a.shape == b.shape && a.start == b.start && eq a.rate b.rate &&
    eq a.wavelength b.wavelength && a.target.same b.target && a.location.same b.location

theorem indexAt_lt {c : Cube R} {seconds : R} {i : Nat} (h : c.indexAt seconds = some i) :
    i < c.samples.size := by
  simp only [indexAt] at h
  split at h
  · next hc =>
    obtain rfl := Option.some.inj h
    simp only [Bool.and_eq_true, decide_eq_true_eq] at hc
    exact hc.2
  · simp at h

end Cube

end Aperture
