import Aperture.Fourier.Line
import Aperture.Grid.Index

/-!
# Fourier transforms

The discrete Fourier transform on any number of axes, the first one varying fastest. One axis is
transformed at a time, line by line. The forward transform is not normalized; the inverse one is
divided by the number of cells.
-/

namespace Aperture.Fourier

open Scalar Trig

variable {R : Type} [Spectral R]

/-- Transform a buffer with a single axis. -/
def transformLine (direction : Direction) (buffer : Array (Complex R)) : Array (Complex R) :=
  if buffer.size ≤ 1 then buffer else Spectral.line direction buffer

@[simp] theorem size_transformLine (direction : Direction) (buffer : Array (Complex R)) :
    (transformLine direction buffer).size = buffer.size := by
  simp only [transformLine]
  split
  · rfl
  · exact Spectral.size_line direction buffer

/-- The cell `k` of line `l` along an axis of `n` cells that are `stride` apart. A block of `stride`
lines takes `stride · n` cells. -/
def lineCell (stride n l k : Nat) : Nat := l / stride * (stride * n) + l % stride + k * stride

/-- Transform one line in place. -/
def transformLineAt (direction : Direction) (stride n : Nat) (buffer : Array (Complex R))
    (l : Nat) : Result (Array (Complex R)) := do
  let line ← (List.range n).mapM fun k => Grid.cellAt buffer (lineCell stride n l k)
  (Spectral.line direction line.toArray).toList.zipIdx.foldlM
    (fun buffer cell => Grid.setCell buffer (lineCell stride n l cell.2) cell.1) buffer

/-- Transform every line along an axis of `n` cells that are `stride` apart. Cells after the last
full block of lines stay as they are. An axis of at most one cell changes nothing; behind an axis
without cells there are no blocks to count. -/
def transformAxis (direction : Direction) (stride n : Nat) (buffer : Array (Complex R)) :
    Result (Array (Complex R)) :=
  if n ≤ 1 then .ok buffer
  else if stride * n = 0 then abort .divisionByZero
  else (List.range (buffer.size / (stride * n) * stride)).foldlM
    (transformLineAt direction stride n) buffer

/-- Transform one axis after the other. -/
def transformAxes (direction : Direction) :
    List Nat → Nat → Array (Complex R) → Result (Array (Complex R))
  | [], _, buffer => .ok buffer
  | n :: shape, stride, buffer => do
    let buffer ← transformAxis direction stride n buffer
    transformAxes direction shape (stride * n) buffer

variable [Scalar R]

/-- Forward transform of a real buffer. -/
def dft (data : Array R) (shape : List Nat) : Result (Array (Complex R)) :=
  transformAxes .forward shape 1 (data.map Complex.ofReal)

/-- Inverse transform, divided by the number of cells. -/
def idft (spectrum : Array (Complex R)) (shape : List Nat) : Result (Array (Complex R)) := do
  let buffer ← transformAxes .inverse shape 1 spectrum
  .ok (buffer.map (Complex.scale (one / ofNat buffer.size)))

variable [Trig R]

/-- Magnitudes and phases of the forward transform. -/
def dftPolar (data : Array R) (shape : List Nat) : Result (Array R × Array R) := do
  let spectrum ← dft data shape
  .ok (spectrum.map Complex.magnitude, spectrum.map Complex.phase)

/-- Real part of the inverse transform of magnitudes and phases. -/
def idftPolar (magnitude phase : Array R) (shape : List Nat) : Result (Array R) := do
  let buffer ← idft (Array.zipWith Complex.ofPolar magnitude phase) shape
  .ok (buffer.map Complex.re)

end Aperture.Fourier
