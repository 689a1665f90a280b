import Aperture.Binary64
import Aperture.Codec.Samples
import Mathlib.Algebra.Ring.Nat

/-!
# Byte strings that are made of words

A byte string whose length is a multiple of the width is its words, one after the other. For words
of eight bytes, reading samples from them and writing samples to them undo each other, whatever the
bits of the samples are.
-/

namespace Aperture

namespace Bytes

theorem getElem?_words (width : Nat) (bytes : Bytes) (i : Nat) :
    (words width bytes)[i]? =
      if i < bytes.length / width then some ((bytes.drop (i * width)).take width) else none := by
  simp only [words, List.getElem?_ofFn, List.size_toArray]
  split <;> simp

theorem words_append {width : Nat} (hwidth : 0 < width) {word : Bytes} (h : word.length = width)
    (rest : Bytes) : words width (word ++ rest) = word :: words width rest := by
  have hcount : (word ++ rest).length / width = rest.length / width + 1 := by
    rw [List.length_append, h, Nat.add_comm, Nat.add_div_right _ hwidth]
  refine List.ext_getElem? fun i => ?_
  rw [getElem?_words, hcount]
  cases i with
  | zero => simp [← h]
  | succ i =>
    have hskip : (i + 1) * width = word.length + i * width := by
      rw [h, Nat.succ_mul, Nat.add_comm]
    rw [List.getElem?_cons_succ, getElem?_words, hskip, List.drop_length_add_append]
    simp

theorem words_flatMap {α : Type} {width : Nat} (hwidth : 0 < width) {f : α → Bytes}
    (hf : ∀ a, (f a).length = width) (l : List α) : words width (l.flatMap f) = l.map f := by
  induction l with
  | nil =>
    refine List.length_eq_zero_iff.1 ?_
    simp
  | cons a l ih => rw [List.flatMap_cons, words_append hwidth (hf a), ih, List.map_cons]

/-- A byte string of full words is made of its words. -/
theorem flatten_words {width : Nat} (hwidth : 0 < width) (count : Nat) {bytes : Bytes}
    (h : bytes.length = width * count) :
    (words width bytes).flatten = bytes ∧ ∀ word ∈ words width bytes, word.length = width := by
  induction count generalizing bytes with
  | zero =>
    obtain rfl := List.length_eq_zero_iff.1 h
    have hnil : words width [] = [] := List.length_eq_zero_iff.1 (by simp)
    simp [hnil]
  | succ count ih =>
    have hfirst : (bytes.take width).length = width := by
      rw [List.length_take, h]
      exact Nat.min_eq_left (Nat.le_mul_of_pos_right _ (Nat.succ_pos count))
    have hrest : (bytes.drop width).length = width * count := by
      rw [List.length_drop, h, Nat.mul_succ, Nat.add_sub_cancel]
    obtain ⟨hflat, hwords⟩ := ih hrest
    rw [← List.take_append_drop width bytes, words_append hwidth hfirst]
    exact ⟨by rw [List.flatten_cons, hflat], List.forall_mem_cons.2 ⟨hfirst, hwords⟩⟩

theorem capacity_eight : capacity 8 = 2 ^ 64 := by decide

end Bytes

/-! ## Samples -/

section

variable {R : Type} [Scalar R] [Word R]

theorem value_ofNat (w : UInt64) :
    (SampleFormat.float64.value (Bytes.ofNat 8 w.toNat) : R) = Word.ofWord w := by
  have hlt : w.toNat < Bytes.capacity 8 := by
    rw [Bytes.capacity_eight]
    exact w.toNat_lt
  rw [SampleFormat.value, Bytes.toNat_ofNat, Nat.mod_eq_of_lt hlt, UInt64.ofNat_toNat]

/-- Words written with the lowest byte first are read back. -/
theorem decode_flatMap_words (words : List UInt64) :
    (SampleFormat.float64.decode (words.flatMap fun w => Bytes.ofNat 8 w.toNat) : List R) =
      words.map Word.ofWord := by
  have hlength (w : UInt64) : (Bytes.ofNat 8 w.toNat).length = 8 := Bytes.length_ofNat 8 _
  show (Bytes.words 8 (words.flatMap _)).map SampleFormat.float64.value = _
  rw [Bytes.words_flatMap (by decide) hlength, List.map_map]
  exact List.map_congr_left fun w _ => value_ofNat w

end

/-- The bytes of a sample. -/
def Binary64.bytes (x : Binary64) : Bytes := Bytes.ofNat 8 (Word.toWord x).toNat

theorem bytes_value {word : Bytes} (h : word.length = 8) :
    (SampleFormat.float64.value word : Binary64).bytes = word := by
  have hlt : word.toNat < 2 ^ 64 := by
    rw [← Bytes.capacity_eight, ← h]
    exact word.toNat_lt
  show Bytes.ofNat 8 (UInt64.ofNat word.toNat).toNat = word
  rw [UInt64.toNat_ofNat', Nat.mod_eq_of_lt hlt, ← h, Bytes.ofNat_toNat]

/-- Reading the bytes of samples gives the samples. -/
theorem decode_flatMap_bytes (samples : List Binary64) :
    SampleFormat.float64.decode (samples.flatMap Binary64.bytes) = samples := by
  have hwords : samples.flatMap Binary64.bytes =
      (samples.map Binary64.word).flatMap fun w => Bytes.ofNat 8 w.toNat := by
    rw [List.flatMap_map]
    rfl
  rw [hwords, decode_flatMap_words, List.map_map]
  exact List.map_id samples

/-- Writing the samples of full words gives the words. -/
theorem flatMap_bytes_decode {bytes : Bytes} {count : Nat} (h : bytes.length = 8 * count) :
    (SampleFormat.float64.decode bytes).flatMap Binary64.bytes = bytes := by
  obtain ⟨hflat, hwords⟩ := Bytes.flatten_words (by decide) count h
  calc ((Bytes.words 8 bytes).map SampleFormat.float64.value).flatMap Binary64.bytes
      = ((Bytes.words 8 bytes).map id).flatten := by
        rw [List.flatMap_map, List.flatMap_def]
        refine congrArg List.flatten (List.map_congr_left fun word hword => ?_)
        exact bytes_value (hwords word hword)
    _ = bytes := by rw [List.map_id, hflat]

end Aperture
