import Aperture.Proofs.Codec.Words
import Mathlib.Algebra.BigOperators.Ring.Finset
import Mathlib.Tactic.Ring

/-!
# Samples are read word by word

What a number of bits means, said without the formats it names: how many bytes a sample takes
(`wordSize`), and the sample that the number in these bytes stands for (`sampleOf`). A number of
bits that is none of the `codes` means nothing.

* Sample `i` of a byte string is read from the bytes `i · wordSize` to `(i + 1) · wordSize - 1`, the
  lowest first, and from no other (`getElem?_decode`).
* Behind whole words a byte string is read as if it began there (`decode_append`), so bytes that do
  not fill a word are ignored (`decode_append_of_lt`).
* Decoding fails for a number of bits exactly when the check of this number does, although each has
  a list of its own (`decodeBits_eq_error_iff`).
-/

namespace Aperture

namespace Bytes

/-- The number whose bytes these are, as a sum over the bytes. -/
theorem toNat_eq_sum (bytes : Bytes) :
    toNat bytes = ∑ k ∈ Finset.range bytes.length, (bytes.getD k 0).toNat * 256 ^ k := by
  induction bytes with
  | nil => rfl
  | cons b bytes ih =>
    rw [List.length_cons, Finset.sum_range_succ', toNat, ih, Finset.mul_sum, Nat.add_comm]
    refine congrArg₂ (· + ·) (Finset.sum_congr rfl fun k _ => ?_) (Nat.mul_one _).symm
    rw [List.getD_cons_succ, Nat.pow_succ]
    ring

/-- The number in the word from a place on, when the byte string goes that far. -/
theorem toNat_take_drop {width start : Nat} {bytes : Bytes} (h : start + width ≤ bytes.length) :
    toNat ((bytes.drop start).take width) =
      ∑ k ∈ Finset.range width, (bytes.getD (start + k) 0).toNat * 256 ^ k := by
  have hlength : ((bytes.drop start).take width).length = width := by
    rw [List.length_take, List.length_drop]
    omega
  rw [toNat_eq_sum, hlength]
  refine Finset.sum_congr rfl fun k hk => ?_
  have hk : k < width := Finset.mem_range.1 hk
  simp [List.getD_eq_getElem?_getD, hk]

theorem words_flatten_append {width : Nat} (hwidth : 0 < width) {l : List Bytes}
    (h : ∀ word ∈ l, word.length = width) (rest : Bytes) :
    words width (l.flatten ++ rest) = l ++ words width rest := by
  induction l with
  | nil => rfl
  | cons word l ih =>
    obtain ⟨hword, hrest⟩ := List.forall_mem_cons.1 h
    rw [List.flatten_cons, List.append_assoc, words_append hwidth hword, ih hrest,
      List.cons_append]

/-- Behind full words the words begin anew. -/
theorem words_append_of_dvd {width : Nat} (hwidth : 0 < width) {bytes : Bytes}
    (h : width ∣ bytes.length) (rest : Bytes) :
    words width (bytes ++ rest) = words width bytes ++ words width rest := by
  obtain ⟨count, hcount⟩ := h
  obtain ⟨hflat, hwords⟩ := flatten_words hwidth count hcount
  calc words width (bytes ++ rest)
      = words width ((words width bytes).flatten ++ rest) := by rw [hflat]
    _ = words width bytes ++ words width rest := words_flatten_append hwidth hwords rest

end Bytes

namespace SampleFormat

/-- The numbers of bits that mean something. -/
def codes : List Int := [8, 16, 32, 64, -32, -64]

/-- Bytes of one sample. -/
def wordSize (bits : Int) : Nat := bits.natAbs / 8

section

variable {R : Type} [Scalar R] [Word R]

/-- The sample that the number in a word stands for. -/
def sampleOf (bits : Int) (n : Nat) : R :=
  if bits = -32 then Word.ofHalfWord (UInt32.ofNat n)
  else if bits = -64 then Word.ofWord (UInt64.ofNat n)
  else Scalar.ofNat n

/-! ## Numbers of bits -/

theorem exists_ofBits? {bits : Int} (h : bits ∈ codes) :
    ∃ format, ofBits? bits = some format := by
  simp only [codes, List.mem_cons, List.not_mem_nil, or_false] at h
  rcases h with rfl | rfl | rfl | rfl | rfl | rfl <;> exact ⟨_, rfl⟩

theorem ofBits?_eq_none {bits : Int} (h : bits ∉ codes) : ofBits? bits = none := by
  unfold ofBits?
  split
  case h_7 => rfl
  all_goals exact absurd (by decide) h

theorem checkBits_of_mem {bits : Int} (h : bits ∈ codes) : checkBits bits = .ok () := by
  simp only [codes, List.mem_cons, List.not_mem_nil, or_false] at h
  rcases h with rfl | rfl | rfl | rfl | rfl | rfl <;> rfl

theorem checkBits_of_notMem {bits : Int} (h : bits ∉ codes) :
    checkBits bits = fail (.invalidSampleFormat bits) := by
  unfold checkBits
  split
  case h_7 => rfl
  all_goals exact absurd (by decide) h

/-- A number of bits that is none of the codes is reported, and nothing else is. -/
theorem checkBits_eq_error_iff {bits : Int} {e : Failure} :
    checkBits bits = .error e ↔ bits ∉ codes ∧ e = .error (.invalidSampleFormat bits) := by
  by_cases h : bits ∈ codes
  · simp [checkBits_of_mem h, h]
  · simp [checkBits_of_notMem h, h, fail, eq_comm]

theorem width_eq_wordSize {bits : Int} {format : SampleFormat} (h : ofBits? bits = some format) :
    format.width = wordSize bits := by
  unfold ofBits? at h
  split at h <;> cases h <;> rfl

theorem value_eq_sampleOf {bits : Int} {format : SampleFormat} (h : ofBits? bits = some format)
    (word : Bytes) : (format.value word : R) = sampleOf bits word.toNat := by
  unfold ofBits? at h
  split at h <;> cases h <;> rfl

theorem decodeBits_eq_ok {bits : Int} {format : SampleFormat} (h : ofBits? bits = some format)
    (bytes : Bytes) : (decodeBits bytes bits : Result (List R)) = .ok (format.decode bytes) := by
  rw [decodeBits, h]

/-- The numbers that reading has no format for are those that the check refuses, with one report. -/
theorem decodeBits_eq_error_iff {bytes : Bytes} {bits : Int} {e : Failure} :
    (decodeBits bytes bits : Result (List R)) = .error e ↔ checkBits bits = .error e := by
  rw [checkBits_eq_error_iff]
  by_cases h : bits ∈ codes
  · obtain ⟨format, hformat⟩ := exists_ofBits? h
    simp [decodeBits, hformat, h]
  · simp [decodeBits, ofBits?_eq_none h, h, fail, eq_comm]

/-! ## Words of a byte string -/

@[simp] theorem length_decode (format : SampleFormat) (bytes : Bytes) :
    (format.decode bytes : List R).length = bytes.length / format.width := by
  rw [decode, List.length_map, Bytes.length_words]

/-- A sample is read from the bytes of its word. -/
theorem getElem?_decode {bits : Int} {format : SampleFormat} (h : ofBits? bits = some format)
    {bytes : Bytes} {i : Nat} (hi : i < bytes.length / format.width) :
    (format.decode bytes : List R)[i]? = some (sampleOf bits (∑ k ∈ Finset.range (wordSize bits),
      (bytes.getD (i * wordSize bits + k) 0).toNat * 256 ^ k)) := by
  have hroom : i * format.width + format.width ≤ bytes.length := by
    rw [← Nat.succ_mul]
    exact (Nat.le_div_iff_mul_le format.width_pos).1 hi
  rw [decode, List.getElem?_map, Bytes.getElem?_words, if_pos hi, Option.map_some,
    value_eq_sampleOf h, Bytes.toNat_take_drop hroom, width_eq_wordSize h]

theorem decode_append (format : SampleFormat) {bytes : Bytes} (h : format.width ∣ bytes.length)
    (rest : Bytes) :
    (format.decode (bytes ++ rest) : List R) = format.decode bytes ++ format.decode rest := by
  rw [decode, Bytes.words_append_of_dvd format.width_pos h, List.map_append]
  rfl

/-- Bytes that do not fill a word are ignored. -/
theorem decode_append_of_lt (format : SampleFormat) {bytes rest : Bytes}
    (h : format.width ∣ bytes.length) (hrest : rest.length < format.width) :
    (format.decode (bytes ++ rest) : List R) = format.decode bytes := by
  have hnil : (format.decode rest : List R) = [] :=
    List.length_eq_zero_iff.1 (by rw [length_decode, Nat.div_eq_of_lt hrest])
  rw [decode_append format h, hnil, List.append_nil]

end

end SampleFormat

end Aperture
