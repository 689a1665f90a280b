/-!
# Bytes

Whole numbers as bytes, the lowest byte first, and the division of a byte string into words of one
width.
-/

namespace Aperture

/-- A byte string. -/
abbrev Bytes := List UInt8

namespace Bytes

/-- The number whose bytes these are, lowest first. -/
def toNat : Bytes → Nat
  | [] => 0
  | b :: bs => b.toNat + 256 * toNat bs

/-- The lowest `width` bytes of a number, lowest first. -/
def ofNat : Nat → Nat → Bytes
  | 0, _ => []
  | width + 1, n => UInt8.ofNat (n % 256) :: ofNat width (n / 256)

/-- How many numbers fit in `width` bytes. -/
def capacity : Nat → Nat
  | 0 => 1
  | width + 1 => 256 * capacity width

/-- The full words of `width` bytes, in order: word `i` holds the bytes from `i · width` on. Bytes
that do not fill a word are left out. -/
def words (width : Nat) (bytes : Bytes) : List Bytes :=
  let cells := bytes.toArray
  List.ofFn fun (i : Fin (cells.size / width)) =>
    (cells.extract (i * width) (i * width + width)).toList

@[simp] theorem length_words (width : Nat) (bytes : Bytes) :
    (words width bytes).length = bytes.length / width := by
  simp [words]

@[simp] theorem toNat_nil : toNat [] = 0 := rfl

@[simp] theorem length_ofNat (width n : Nat) : (ofNat width n).length = width := by
  induction width generalizing n with
  | zero => rfl
  | succ width ih => simp [ofNat, ih]

theorem capacity_pos (width : Nat) : 0 < capacity width := by
  induction width with
  | zero => decide
  | succ width ih =>
    simp only [capacity]
    omega

theorem toNat_ofNat (width n : Nat) : toNat (ofNat width n) = n % capacity width := by
  induction width generalizing n with
  | zero => simp [ofNat, capacity, Nat.mod_one]
  | succ width ih =>
    have h : (UInt8.ofNat (n % 256)).toNat = n % 256 := by simp
    rw [ofNat, toNat, ih, h, capacity, Nat.mod_mul]

theorem toNat_lt (bytes : Bytes) : toNat bytes < capacity bytes.length := by
  induction bytes with
  | nil => simp [capacity]
  | cons b bs ih =>
    have hb : b.toNat < 256 := b.toNat_lt
    simp only [toNat, List.length_cons, capacity]
    omega

theorem ofNat_toNat (bytes : Bytes) : ofNat bytes.length (toNat bytes) = bytes := by
  induction bytes with
  | nil => rfl
  | cons b bs ih =>
    have hb : b.toNat < 256 := b.toNat_lt
    have low : (b.toNat + 256 * toNat bs) % 256 = b.toNat := by omega
    have high : (b.toNat + 256 * toNat bs) / 256 = toNat bs := by omega
    simp [ofNat, toNat, low, high, ih]

end Bytes

end Aperture
