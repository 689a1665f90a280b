import Aperture.Codec.Basic
import Aperture.Codec.Samples

/-!
# The raw codec

A format that describes itself, all numbers with the lowest byte first:

* the number of axes, between one and eight, in four bytes;
* the size of every axis in eight bytes;
* the samples as 64-bit floats, without anything behind them.

Only the shape and the samples are stored. The metadata of a decoded cube is that of a cube that
nothing was said about.
-/

namespace Aperture.Raw

/-- The most axes a payload may have. -/
def mostAxes : Nat := 8

/-- One more than the largest number that fits in a machine word. -/
def wordLimit : Nat := Bytes.capacity 8

/-- Refuse a payload. -/
def refuse {α : Type} (reason : String) : Result α := fail (.undecodable "raw" reason)

/-- The first `n` bytes and the rest. -/
def splitOff (n : Nat) (bytes : Bytes) : Result (Bytes × Bytes) :=
  if bytes.length < n then
    refuse ("truncated payload: needed " ++ toString n ++ " more bytes, " ++
      toString bytes.length ++ " left")
  else .ok (bytes.take n, bytes.drop n)

/-- A number of `width` bytes and the rest. -/
def takeNat (width : Nat) (bytes : Bytes) : Result (Nat × Bytes) := do
  let (word, rest) ← splitOff width bytes
  .ok (word.toNat, rest)

/-- Axis sizes, `count` of them, and the rest. -/
def takeShape : Nat → Bytes → Result (List Nat × Bytes)
  | 0, bytes => .ok ([], bytes)
  | count + 1, bytes => do
    let (size, rest) ← takeNat 8 bytes
    let (shape, rest) ← takeShape count rest
    .ok (size :: shape, rest)

/-- A product that fits in a machine word. -/
def checkedMul (a b : Nat) : Option Nat := if a * b < wordLimit then some (a * b) else none

/-- Bytes of the samples of a shape. None of the products on the way may outgrow a machine word,
even if a later axis has no cells. -/
def bodySize (shape : List Nat) : Option Nat := do
  let volume ← shape.foldlM checkedMul 1
  checkedMul volume 8

variable {R : Type} [Scalar R] [Word R]

def decode (bytes : Bytes) : Result (Cube R) := do
  let (axes, bytes) ← takeNat 4 bytes
  if axes = 0 ∨ mostAxes < axes then
    refuse ("unsupported dimension count " ++ toString axes)
  else
    let (shape, bytes) ← takeShape axes bytes
    match bodySize shape with
    | none => refuse "payload size overflows"
    | some size =>
      let (body, rest) ← splitOff size bytes
      if rest.isEmpty then
        Cube.withShape (SampleFormat.float64.decode body).toArray shape
      else refuse (toString rest.length ++ " trailing bytes")

def encode (cube : Cube R) : Bytes :=
  Bytes.ofNat 4 cube.shape.length ++ cube.shape.flatMap (Bytes.ofNat 8) ++
    cube.samples.toList.flatMap fun x => Bytes.ofNat 8 (Word.toWord x).toNat

def codec : Codec R where
  name := "raw"
  decode := decode
  encode cube := .ok (encode cube)

end Aperture.Raw
