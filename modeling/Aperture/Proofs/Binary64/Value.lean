import Aperture.Binary64
import Mathlib

/-!
# The number that a word stands for

`value x` is the number that the word `x` is read as: an infinity, a zero, a sign with a
coefficient and an exponent, or nothing that is a number.

**Reading back.** A number is written as the word it was read from (`pack_value`), so an operation
that answers the number of a word answers that word (`ofFloat_pack_value`).

**Signs.** Flipping the first bit of a word negates its number (`value_neg`): the other bits are
read as before. The product with one is the number itself, the product with minus one its negative
(`one_mul`, `neg_one_mul`), to the last bit and with both zeros. One is `2 ^ 52 · 2 ^ -52`, so the
product has the digits of the other factor and zeros behind them, and these digits are no more than
there is room for (`Canonical`); nothing is rounded.
-/

namespace Aperture.Binary64

open Scalar (one zero)
open Float.Model (Format UnpackedFloat totalExponent)
open Float.Model.UnpackedFloat (Sign ExtendedMantissa)

/-- The number that a word is read as. -/
def value (x : Binary64) : UnpackedFloat := .unpack .binary64 x.word.toBitVec

/-! ## Reading and writing a word -/

theorem exponentField_eq (x : Binary64) :
    x.exponentField = (@UnpackedFloat.unpackExponent .binary64 x.word.toBitVec).toNat := by
  rw [UnpackedFloat.unpackExponent_def, BitVec.extractLsb'_toNat, exponentField, UInt64.toNat_and,
    UInt64.toNat_shiftRight]
  exact Nat.and_two_pow_sub_one_eq_mod (x.word.toNat >>> 52) 11

theorem fractionField_eq (x : Binary64) :
    x.fractionField = (@UnpackedFloat.unpackMantissa .binary64 x.word.toBitVec).toNat := by
  rw [UnpackedFloat.unpackMantissa_def, BitVec.extractLsb'_toNat, fractionField, UInt64.toNat_and]
  exact Nat.and_two_pow_sub_one_eq_mod x.word.toNat 52

theorem isNaN_eq (x : Binary64) :
    x.isNaN = @UnpackedFloat.isNaNBits .binary64 x.word.toBitVec := by
  rw [Bool.eq_iff_iff, isNaN, exponentField_eq, fractionField_eq, UnpackedFloat.isNaNBits]
  simp only [Bool.and_eq_true, beq_iff_eq, bne_iff_ne, decide_eq_true_iff, ne_eq,
    ← BitVec.toNat_inj]
  rfl

/-- A word that is a number is written as it was read. -/
theorem pack_value {x : Binary64} (h : x.isNaN = false) :
    UnpackedFloat.pack .binary64 x.value = x.word.toBitVec := by
  rw [isNaN_eq] at h
  rw [value, UnpackedFloat.pack_unpack, h, if_neg Bool.false_ne_true]

theorem value_eq_notANumber_iff {x : Binary64} : x.value = .notANumber ↔ x.isNaN := by
  rw [isNaN_eq, UnpackedFloat.isNaNBits, decide_eq_true_iff]
  unfold value UnpackedFloat.unpack
  dsimp only
  split_ifs with htop hinfinite hlow hzero
  · exact ⟨nofun, fun h => absurd hinfinite h.2⟩
  · exact ⟨fun _ => ⟨htop, hinfinite⟩, fun _ => rfl⟩
  · exact ⟨nofun, fun h => absurd h.1 htop⟩
  · exact ⟨nofun, fun h => absurd h.1 htop⟩
  · exact ⟨nofun, fun h => absurd h.1 htop⟩

theorem unpack_pack_value (x : Binary64) : (Float.Model.pack x.value).unpack = x.value := by
  show UnpackedFloat.unpack .binary64 (UnpackedFloat.pack .binary64 x.value) = x.value
  cases h : x.isNaN with
  | false => rw [pack_value h, value]
  | true =>
    rw [value_eq_notANumber_iff.2 h]
    exact UnpackedFloat.unpack_packedNaN

theorem unpack_toFloat (x : Binary64) : x.toFloat.toModel.unpack = x.value := unpack_pack_value x

theorem value_ofFloat (f : Float) : (ofFloat f).value = f.toModel.unpack := by
  unfold ofFloat
  split_ifs with h
  · rw [UnpackedFloat.isNaN_iff.1 h]
    rfl
  · rfl

theorem ofFloat_pack_value {x : Binary64} (h : x.isNaN = false) :
    ofFloat ⟨Float.Model.pack x.value⟩ = x := by
  have hnumber : (Float.ofModel (Float.Model.pack x.value)).isNaN = false := by
    rw [← Bool.not_eq_true]
    intro hnan
    rw [Float.isNaN, Float.Model.isNaN, unpack_pack_value, UnpackedFloat.isNaN_iff,
      value_eq_notANumber_iff, h] at hnan
    cases hnan
  rw [ofFloat, hnumber, if_neg Bool.false_ne_true]
  exact congrArg Binary64.mk (UInt64.toBitVec_inj.1 (pack_value h))

/-! ## The sign -/

theorem unpackExponent_neg (x : Binary64) :
    @UnpackedFloat.unpackExponent .binary64 (-x).word.toBitVec =
      @UnpackedFloat.unpackExponent .binary64 x.word.toBitVec := by
  rw [UnpackedFloat.unpackExponent_def, UnpackedFloat.unpackExponent_def]
  show BitVec.extractLsb' 52 11 (x.word.toBitVec ^^^ 0x8000000000000000) = _
  rw [BitVec.extractLsb'_xor]
  exact BitVec.xor_zero

theorem unpackMantissa_neg (x : Binary64) :
    @UnpackedFloat.unpackMantissa .binary64 (-x).word.toBitVec =
      @UnpackedFloat.unpackMantissa .binary64 x.word.toBitVec := by
  rw [UnpackedFloat.unpackMantissa_def, UnpackedFloat.unpackMantissa_def]
  show BitVec.extractLsb' 0 52 (x.word.toBitVec ^^^ 0x8000000000000000) = _
  rw [BitVec.extractLsb'_xor]
  exact BitVec.xor_zero

theorem unpackSign_neg (x : Binary64) :
    Sign.ofBitVec (@UnpackedFloat.unpackSign .binary64 (-x).word.toBitVec) =
      -Sign.ofBitVec (@UnpackedFloat.unpackSign .binary64 x.word.toBitVec) := by
  rw [UnpackedFloat.unpackSign_def, UnpackedFloat.unpackSign_def]
  show Sign.ofBitVec (BitVec.extractLsb' 63 1 (x.word.toBitVec ^^^ 0x8000000000000000)) = _
  rw [BitVec.extractLsb'_xor]
  show Sign.ofBitVec (_ ^^^ 1#1) = -Sign.ofBitVec (BitVec.extractLsb' 63 1 x.word.toBitVec)
  generalize BitVec.extractLsb' 63 1 x.word.toBitVec = b
  have hb : b = 0#1 ∨ b = 1#1 := by decide +revert
  rcases hb with rfl | rfl <;> rfl

theorem value_neg (x : Binary64) : (-x).value = x.value.neg := by
  unfold value UnpackedFloat.unpack
  simp only [unpackExponent_neg, unpackMantissa_neg, unpackSign_neg]
  split_ifs <;> rfl

theorem isNaN_neg (x : Binary64) : (-x).isNaN = x.isNaN := by
  rw [isNaN_eq, isNaN_eq, UnpackedFloat.isNaNBits, UnpackedFloat.isNaNBits, unpackExponent_neg,
    unpackMantissa_neg]

theorem neg_neg (x : Binary64) : - -x = x := by
  show Binary64.mk ((x.word ^^^ 0x8000000000000000) ^^^ 0x8000000000000000) = x
  rw [UInt64.xor_assoc, UInt64.xor_self, UInt64.xor_zero]

theorem neg_injective {x y : Binary64} (h : -x = -y) : x = y := by
  rw [← neg_neg x, h, neg_neg]

/-! ## Multiplication by one -/

/-- The coefficient has at most 53 bits, and fewer only at the lowest exponent. -/
def Canonical : UnpackedFloat → Prop
  | .finite _ m e _ => m < 2 ^ 53 ∧ -1074 ≤ e ∧ (2 ^ 52 ≤ m ∨ e = -1074)
  | _ => True

theorem toNat_implicit (fraction : BitVec 52) :
    (1#1 ++ fraction).toNat = 2 ^ 52 + fraction.toNat := by
  rw [BitVec.toNat_append, ← Nat.shiftLeft_add_eq_or_of_lt fraction.isLt, Nat.shiftLeft_eq]
  rfl

theorem canonical_value (x : Binary64) : Canonical x.value := by
  have hbias : Format.binary64.exponentBias = 1023 := by decide
  have hfraction : (@UnpackedFloat.unpackMantissa .binary64 x.word.toBitVec).toNat < 2 ^ 52 :=
    BitVec.isLt _
  have himplicit := toNat_implicit (@UnpackedFloat.unpackMantissa .binary64 x.word.toBitVec)
  unfold value UnpackedFloat.unpack
  rw [hbias]
  dsimp only
  split_ifs with htop hinfinite hlow hzero
  · trivial
  · trivial
  · trivial
  · rw [hlow]
    exact ⟨by omega, by simp, .inr (by simp)⟩
  · have hexponent := mt (BitVec.toNat_inj (y := 0#11)).1 hlow
    rw [BitVec.toNat_ofNat] at hexponent
    refine ⟨?_, by omega, .inl ?_⟩
    · rw [himplicit]
      omega
    · rw [himplicit]
      omega

theorem target_of_canonical {s : Sign} {m : Nat} {e : Int} {hm : 0 < m}
    (h : Canonical (.finite s m e hm)) :
    Format.binary64.targetExponent (totalExponent m e) = e := by
  obtain ⟨hlt, hlow, hlong⟩ := h
  have hlog := (Nat.log2_lt hm.ne').2 hlt
  have htarget (t : Int) : Format.binary64.targetExponent t = max (t - 53) (-1074) := by
    simp only [Format.targetExponent]
    rfl
  rw [htarget, totalExponent]
  rcases hlong with hlong | hlong
  · have := (Nat.le_log2 hm.ne').2 hlong
    omega
  · omega

theorem log2_two_pow_mul (k : Nat) {m : Nat} (hm : m ≠ 0) : (2 ^ k * m).log2 = k + m.log2 := by
  induction k with
  | zero => simp
  | succ k ih =>
    rw [pow_succ', mul_assoc, Nat.log2_two_mul (by positivity), ih]
    omega

theorem shiftRight_two_pow_mul (k m : Nat) :
    ExtendedMantissa.mk (2 ^ k * m) false false >>> k = ExtendedMantissa.mk m false false := by
  show Nat.repeat ExtendedMantissa.shiftRightOne k _ = _
  induction k generalizing m with
  | zero => simp [Nat.repeat]
  | succ k ih =>
    rw [Nat.repeat, pow_succ, mul_assoc, ih]
    simp [ExtendedMantissa.shiftRightOne]

/-- A canonical number is what its digits are rounded to, with `k` zeros behind them. -/
theorem shift_of_canonical {s : Sign} {m : Nat} {e : Int} {hm : 0 < m}
    (h : Canonical (.finite s m e hm)) (k : Nat) :
    UnpackedFloat.shiftToTargetExponent .binary64 (2 ^ k * m) (-k + e) .exact =
      (⟨m, false, false⟩, e) := by
  have htotal : totalExponent (2 ^ k * m) (-k + e) = totalExponent m e := by
    rw [totalExponent, totalExponent, log2_two_pow_mul k hm.ne']
    omega
  have hamount : (e - (-k + e)).toNat = k := by omega
  rw [UnpackedFloat.shiftToTargetExponent, htotal, target_of_canonical h,
    UnpackedFloat.shiftToExponent, hamount]
  exact Prod.ext (shiftRight_two_pow_mul k m) (by dsimp only; omega)

/-- Rounding shifts twice: the second time for a coefficient that rounding made too long. -/
theorem round_of_shifts {m n : Nat} {e f g : Int} {em : ExtendedMantissa} (s : Sign) (hn : 0 < n)
    (hfirst : UnpackedFloat.shiftToTargetExponent .binary64 m e .exact = (em, g))
    (hsecond : UnpackedFloat.shiftToTargetExponent .binary64 em.roundedMantissa g .exact =
      (⟨n, false, false⟩, f)) :
    UnpackedFloat.roundWithAccuracy .binary64 s m e .exact = .finite s n f hn := by
  unfold UnpackedFloat.roundWithAccuracy
  rw [hfirst]
  dsimp only
  rw [hsecond]
  exact dif_neg hn.ne'

theorem round_of_canonical {s : Sign} {m : Nat} {e : Int} {hm : 0 < m}
    (h : Canonical (.finite s m e hm)) (t : Sign) (k : Nat) :
    UnpackedFloat.roundWithAccuracy .binary64 t (2 ^ k * m) (-k + e) .exact =
      .finite t m e hm := by
  have hagain := shift_of_canonical h 0
  rw [pow_zero, one_mul, Nat.cast_zero, neg_zero, zero_add] at hagain
  exact round_of_shifts t hm (shift_of_canonical h k) hagain

theorem value_one : (one : Binary64).value = .finite .positive (2 ^ 52) (-52) (by decide) := by
  have hone : (one : Binary64) = ⟨0x3ff0000000000000⟩ := by decide +kernel
  rw [hone]
  rfl

/-- A number under a sign. -/
def signed : Sign → UnpackedFloat → UnpackedFloat
  | .positive, v => v
  | .negative, v => v.neg

theorem mul_of_canonical (s : Sign) {v : UnpackedFloat} (h : Canonical v) :
    UnpackedFloat.mul .binary64 (.finite s (2 ^ 52) (-52) (by decide)) v = signed s v := by
  cases v with
  | notANumber => cases s <;> rfl
  | infinity t => cases s <;> cases t <;> rfl
  | zero t => cases s <;> cases t <;> rfl
  | finite t m e hm =>
    refine (round_of_canonical h (s * t) 52).trans ?_
    cases s <;> cases t <;> rfl

/-- An operation on two words that are numbers is that on the numbers. -/
theorem lift₂_eq {f : Float → Float → Float} {g : UnpackedFloat → UnpackedFloat → UnpackedFloat}
    (hf : ∀ a b : Float, f a b = ⟨.pack (g a.toModel.unpack b.toModel.unpack)⟩)
    {x y : Binary64} (hx : x.isNaN = false) (hy : y.isNaN = false) :
    lift₂ f x y = ofFloat ⟨.pack (g x.value y.value)⟩ := by
  rw [lift₂, hx, hy, if_neg Bool.false_ne_true, if_neg Bool.false_ne_true, hf, unpack_toFloat,
    unpack_toFloat]

theorem mul_eq {x y : Binary64} (hx : x.isNaN = false) (hy : y.isNaN = false) :
    x * y = ofFloat ⟨.pack (.mul .binary64 x.value y.value)⟩ :=
  lift₂_eq (f := (· * ·)) (fun _ _ => rfl) hx hy

theorem one_mul {x : Binary64} (h : x.isNaN = false) : one * x = x := by
  rw [mul_eq (by decide +kernel) h, value_one, mul_of_canonical .positive x.canonical_value]
  exact ofFloat_pack_value h

theorem neg_one_mul {x : Binary64} (h : x.isNaN = false) : -one * x = -x := by
  rw [mul_eq (by decide +kernel) h, value_neg, value_one]
  show ofFloat ⟨.pack (.mul .binary64 (.finite .negative (2 ^ 52) (-52) _) x.value)⟩ = -x
  rw [mul_of_canonical .negative x.canonical_value, signed, ← value_neg]
  exact ofFloat_pack_value ((isNaN_neg x).trans h)

end Aperture.Binary64
