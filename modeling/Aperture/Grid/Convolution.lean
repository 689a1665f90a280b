import Aperture.Grid.Index
import Aperture.Scalar

/-!
# Convolution

Two-dimensional convolution with zero padding. The result is as large as the image, and the kernel
is centered on its cell `(width / 2, height / 2)`. A buffer with one axis is a single row.
Coordinates are signed words of 64 bits, so an axis too long for them has no cell to visit.
-/

namespace Aperture.Grid

open Scalar

/-- The number of coordinates along an axis. -/
def extent (size : Nat) : Nat := if size < 0x8000000000000000 then size else 0

/-- Width and height of a buffer with one or two axes. -/
def plane : List Nat → Result (Nat × Nat)
  | [w] => .ok (extent w, 1)
  | [w, h] => .ok (extent w, extent h)
  | shape => fail (.sizeMismatch [0, 0] shape)

/-- The coordinate that a kernel coordinate looks at, for an axis of `size` cells and a kernel
with `half` cells before its center. -/
def tap (size half x k : Nat) : Option Nat :=
  if k ≤ x + half ∧ x + half - k < size then some (x + half - k) else none

/-- The pairs of an image coordinate and a kernel coordinate that meet at `x`. -/
def taps (size kernelSize x : Nat) : List (Nat × Nat) :=
  (List.range kernelSize).filterMap fun k => (tap size (kernelSize / 2) x k).map fun s => (s, k)

variable {R : Type} [Scalar R]

/-- The sum of products at one cell of the image, row by row of the kernel. -/
def convolveAt (data kernel : Array R) (w h kw kh x y : Nat) : Result R :=
  let rows := taps h kh y
  let columns := taps w kw x
  rows.foldlM (fun sum row => columns.foldlM (fun sum column => do
    let value ← cellAt data (column.1 + row.1 * w)
    let weight ← cellAt kernel (column.2 + row.2 * kw)
    .ok (sum + value * weight)) sum) zero

/-- Compute the cells `i`, `i + 1`, … of a buffer, `count` of them. -/
def fill (f : Nat → Result R) : Nat → Nat → Array R → Result (Array R)
  | 0, _, out => .ok out
  | count + 1, i, out => do
    let value ← f i
    let out ← setCell out i value
    fill f count (i + 1) out

/-- The convolution of an image by a kernel. -/
def convolve (data : Array R) (shape : List Nat) (kernel : Array R) (kernelShape : List Nat) :
    Result (Array R) := do
  let (w, h) ← plane shape
  let (kw, kh) ← plane kernelShape
  fill (fun i => convolveAt data kernel w h kw kh (i % w) (i / w)) (w * h) 0
    (Array.replicate data.size zero)

end Aperture.Grid
