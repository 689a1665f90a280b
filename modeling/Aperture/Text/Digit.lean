import Aperture.Text.Blank

/-!
# Digits of all scripts

The characters of the Unicode category Decimal_Number. In every script they are ten characters in a
row, from zero to nine.
-/

namespace Aperture.Text

/-- The zeros. -/
def zeros : List Nat :=
  [0x30, 0x660, 0x6f0, 0x7c0, 0x966, 0x9e6, 0xa66, 0xae6, 0xb66, 0xbe6, 0xc66, 0xce6, 0xd66, 0xde6,
    0xe50, 0xed0, 0xf20, 0x1040, 0x1090, 0x17e0, 0x1810, 0x1946, 0x19d0, 0x1a80, 0x1a90, 0x1b50,
    0x1bb0, 0x1c40, 0x1c50, 0xa620, 0xa8d0, 0xa900, 0xa9d0, 0xa9f0, 0xaa50, 0xabf0, 0xff10, 0x104a0,
    0x10d30, 0x10d40, 0x11066, 0x110f0, 0x11136, 0x111d0, 0x112f0, 0x11450, 0x114d0, 0x11650,
    0x116c0, 0x116d0, 0x116da, 0x11730, 0x118e0, 0x11950, 0x11bf0, 0x11c50, 0x11d50, 0x11da0,
    0x11f50, 0x16130, 0x16a60, 0x16ac0, 0x16b50, 0x16d70, 0x1ccf0, 0x1d7ce, 0x1d7d8, 0x1d7e2,
    0x1d7ec, 0x1d7f6, 0x1e140, 0x1e2f0, 0x1e4f0, 0x1e5f1, 0x1e950, 0x1fbf0]

/-- The characters with the category Decimal_Number. -/
def isDecimal (c : Char) : Bool := zeros.any fun z => z ≤ c.toNat && c.toNat < z + 10

/-- The digits of core are digits. -/
theorem isDecimal_of_isDigit {c : Char} (h : c.isDigit = true) : isDecimal c = true := by
  obtain ⟨hzero, hnine⟩ := Char.isDigit_iff_toNat.1 h
  have hlow : '0'.toNat = 48 := rfl
  have hhigh : '9'.toNat = 57 := rfl
  refine List.any_eq_true.2 ⟨0x30, List.mem_cons_self, ?_⟩
  simp only [Bool.and_eq_true, decide_eq_true_eq]
  omega

/-- A character between the digits of two scripts is none. -/
theorem isDecimal_eq_false {c : Char}
    (h : ∀ z ∈ zeros, c.toNat < z ∨ z + 10 ≤ c.toNat) : isDecimal c = false := by
  refine List.any_eq_false.2 fun z hz => ?_
  have := h z hz
  simp only [Bool.and_eq_true, decide_eq_true_eq]
  omega

theorem mem_zeros {z : Nat} (h : z ∈ zeros) : z = 0x30 ∨ 0x660 ≤ z := by
  have hzeros : ∀ z ∈ zeros, z = 0x30 ∨ 0x660 ≤ z := by decide
  exact hzeros z h

/-- The first digits are those of core. -/
theorem isDecimal_eq_isDigit {c : Char} (h : c.toNat < 0x660) : isDecimal c = c.isDigit := by
  cases hdigit : c.isDigit with
  | true => exact isDecimal_of_isDigit hdigit
  | false =>
    have hnone : ¬(48 ≤ c.toNat ∧ c.toNat ≤ 57) := fun hin => by
      rw [Char.isDigit_iff_toNat.2 hin] at hdigit
      cases hdigit
    refine isDecimal_eq_false fun z hz => ?_
    rcases mem_zeros hz with rfl | hz <;> omega

/-- No blank is a digit. -/
theorem isDecimal_of_isBlank {c : Char} (h : isBlank c = true) : isDecimal c = false := by
  refine isDecimal_eq_false fun z hz => ?_
  have hapart : ∀ z ∈ zeros, 0x20 < z ∧ (0x85 < z ∨ z + 10 ≤ 0x85) ∧
      (0xa0 < z ∨ z + 10 ≤ 0xa0) ∧ (0x1680 < z ∨ z + 10 ≤ 0x1680) ∧
      (0x3000 < z ∨ z + 10 ≤ 0x2000) := by decide
  have := hapart z hz
  simp only [isBlank, Bool.or_eq_true, Bool.and_eq_true, beq_iff_eq, decide_eq_true_eq] at h
  omega

end Aperture.Text
