import Aperture.Codec.Bytes
import Aperture.Failure
import Aperture.Scalar

/-!
# Sample formats

How recorded samples are stored: unsigned integers of one, two, four or eight bytes, or IEEE floats
of four or eight bytes, all with the lowest byte first. A format is asked for by its number of bits,
negative for floats.

`SampleFormat.decodeBits` looks the format up when a recording is read, and `SampleFormat.checkBits`
says beforehand whether a number of bits will do. Each has its own list of numbers.
-/

namespace Aperture

/-- A way to store one sample. -/
inductive SampleFormat where
  | unsigned8
  | unsigned16
  | unsigned32
  | unsigned64
  | float32
  | float64
deriving DecidableEq, Repr

namespace SampleFormat

/-- The format with a number of bits. -/
def ofBits? : Int → Option SampleFormat
  | 8 => some unsigned8
  | 16 => some unsigned16
  | 32 => some unsigned32
  | 64 => some unsigned64
  | -32 => some float32
  | -64 => some float64
  | _ => none

/-- Check a number of bits without reading anything. -/
def checkBits (bits : Int) : Result Unit :=
  match bits with
  | 8 | 16 | 32 | 64 | -32 | -64 => .ok ()
  | other => fail (.invalidSampleFormat other)

/-- Bytes of one sample. -/
def width : SampleFormat → Nat
  | unsigned8 => 1
  | unsigned16 => 2
  | unsigned32 | float32 => 4
  | unsigned64 | float64 => 8

theorem width_pos (format : SampleFormat) : 0 < format.width := by
  cases format <;> decide

variable {R : Type} [Scalar R] [Word R]

/-- The sample that a word stands for. -/
def value (format : SampleFormat) (word : Bytes) : R :=
  match format with
  | float32 => Word.ofHalfWord (UInt32.ofNat word.toNat)
  | float64 => Word.ofWord (UInt64.ofNat word.toNat)
  | _ => Scalar.ofNat word.toNat

/-- The samples in a byte string. Bytes that do not form a full sample are ignored. -/
def decode (format : SampleFormat) (bytes : Bytes) : List R :=
  (Bytes.words format.width bytes).map format.value

/-- The samples in a byte string, in the format with a number of bits, or the report that there is
none. -/
def decodeBits (bytes : Bytes) (bits : Int) : Result (List R) :=
  match ofBits? bits with
  | some format => .ok (format.decode bytes)
  | none => fail (.invalidSampleFormat bits)

end SampleFormat

end Aperture
