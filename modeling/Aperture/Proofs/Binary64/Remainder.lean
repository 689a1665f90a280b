import Aperture.Proofs.Binary64.Difference

/-!
# Remainders of words

The Euclidean remainder of a finite word by a positive one lies between zero and the modulus
(`modulo_mem`). The remainder of the division toward zero is exact. When it is negative the modulus
is added, and this sum is rounded: it may become the modulus itself.
-/

namespace Aperture.Binary64

open Scalar (zero)
open Float.Model (Format UnpackedFloat)
open Float.Model.UnpackedFloat (Sign)

/-! ## Fields of a number -/

theorem fractionField_lt (x : Binary64) : x.fractionField < 2 ^ 52 := by
  rw [fractionField_eq]
  exact BitVec.isLt _

theorem exponentField_lt (x : Binary64) : x.exponentField < 2 ^ 11 := by
  rw [exponentField_eq]
  exact BitVec.isLt _

theorem significand_lt (x : Binary64) : x.significand < 2 ^ 53 := by
  have hfraction := x.fractionField_lt
  rw [significand, hiddenBit]
  split_ifs <;> omega

theorem le_scale (x : Binary64) : -1074 ≤ x.scale := by
  rw [scale]
  split_ifs <;> omega

theorem scale_le {x : Binary64} (h : x.isFinite) : x.scale ≤ 971 := by
  have hexponent := x.exponentField_lt
  rw [isFinite, bne_iff_ne] at h
  rw [scale]
  split_ifs <;> omega

theorem value_finite {x : Binary64} {s : Sign} {m : Nat} {e : Int} {hm : 0 < m}
    (h : x.value = .finite s m e hm) :
    Sign.ofBitVec (@UnpackedFloat.unpackSign .binary64 x.word.toBitVec) = s ∧
      x.significand = m ∧ x.scale = e := by
  have hbias : Format.binary64.exponentBias = 1023 := by decide
  have himplicit := toNat_implicit (@UnpackedFloat.unpackMantissa .binary64 x.word.toBitVec)
  rw [significand, scale, exponentField_eq, fractionField_eq]
  unfold value UnpackedFloat.unpack at h
  rw [hbias] at h
  dsimp only at h
  split_ifs at h with htop hinfinite hlow hzero
  · cases h
    rw [hlow]
    exact ⟨rfl, rfl, rfl⟩
  · cases h
    have hexponent := mt (BitVec.toNat_inj (y := 0#11)).1 hlow
    rw [BitVec.toNat_ofNat] at hexponent
    rw [if_neg (by omega), if_neg (by omega), himplicit]
    exact ⟨rfl, rfl, by omega⟩

/-! ## Composed words -/

def sign (negative : Bool) : Sign := if negative then .negative else .positive

/-- The fields of a word as one number. -/
theorem toNat_packComponents (s : Sign) (exponent : BitVec 11) (mantissa : BitVec 52) :
    (UnpackedFloat.packComponents .binary64 s exponent mantissa).toNat =
      s.toBitVec.toNat * 2 ^ 63 + (exponent.toNat * 2 ^ 52 + mantissa.toNat) := by
  unfold UnpackedFloat.packComponents
  rw [BitVec.toNat_append, BitVec.toNat_append, ← Nat.shiftLeft_add_eq_or_of_lt mantissa.isLt,
    ← Nat.shiftLeft_add_eq_or_of_lt exponent.isLt, Nat.shiftLeft_eq, Nat.shiftLeft_eq]
  omega

/-- A composed word has the digits below the hidden one and the exponent that they count. -/
theorem word_compose (negative : Bool) (m : Nat) (e : Int) {n : Nat} (hn : n < 2 ^ 11)
    (hbiased : n = let shift := (min (52 - m.log2 : Int) (e + 1074)).toNat
      if m <<< shift < hiddenBit then 0 else (e - shift + 1075).toNat) :
    (compose negative m e).word.toBitVec = UnpackedFloat.packComponents .binary64 (sign negative)
      (BitVec.ofNat 11 n)
      (BitVec.ofNat 52 (m <<< (min (52 - m.log2 : Int) (e + 1074)).toNat)) := by
  dsimp only at hbiased
  set fraction := m <<< (min (52 - m.log2 : Int) (e + 1074)).toNat
  have hmod : fraction % 2 ^ 52 < 2 ^ 52 := Nat.mod_lt _ (by decide)
  have hmagnitude : n <<< 52 + fraction % hiddenBit < 2 ^ 63 := by
    rw [Nat.shiftLeft_eq, hiddenBit]
    omega
  apply BitVec.eq_of_toNat_eq
  rw [toNat_packComponents, BitVec.toNat_ofNat, BitVec.toNat_ofNat, Nat.mod_eq_of_lt hn]
  unfold compose
  dsimp only
  rw [← hbiased]
  show ((if negative then (0x8000000000000000 : UInt64) else 0) |||
    UInt64.ofNat (n <<< 52 + fraction % hiddenBit)).toNat = _
  have hword : (UInt64.ofNat (n <<< 52 + fraction % hiddenBit)).toNat =
      n * 2 ^ 52 + fraction % 2 ^ 52 := by
    rw [UInt64.toNat_ofNat_of_lt' (by rw [UInt64.size]; omega), Nat.shiftLeft_eq]
    rfl
  rw [UInt64.toNat_or, hword]
  cases negative with
  | false => exact (Nat.zero_or _).trans (Nat.zero_add _).symm
  | true => exact (Nat.two_pow_add_eq_or_of_lt (i := 63) (by omega) 1).symm

theorem value_compose_zero (negative : Bool) (e : Int) :
    (compose negative 0 e).value = .zero (sign negative) := by
  have hword := word_compose negative 0 e (n := 0) (by decide)
    (if_pos (by rw [Nat.zero_shiftLeft]; decide)).symm
  rw [value, hword, Nat.zero_shiftLeft]
  exact UnpackedFloat.unpack_packedZero

/-- Composing a word rounds nothing. -/
theorem value_compose (negative : Bool) {m : Nat} {e : Int} (hm : 0 < m) (hshort : m < 2 ^ 53)
    (hlow : -1074 ≤ e) (hhigh : e ≤ 971) :
    (compose negative m e).value = UnpackedFloat.round .binary64 (sign negative) m e := by
  obtain ⟨hpos, ⟨hfit, hbottom, hlong⟩, hround⟩ := round_short hm hshort hlow (sign negative)
  have hword {n : Nat} := word_compose negative m e (n := n)
  rw [hround, value]
  set room := (min (52 - m.log2 : Int) (e + 1074)).toNat
  obtain hpart | hfull := lt_or_ge (m <<< room) hiddenBit
  · rw [hword (n := 0) (by decide) (if_pos hpart).symm, unpack_subnormal _ hpos hpart]
    congr 1
    exact (hlong.resolve_left (not_le.2 hpart)).symm
  · rw [hword (by omega) (if_neg (not_lt.2 hfull)).symm,
      unpack_normal _ hpos hfull hfit (by omega) (by omega)]
    congr 1
    omega

/-! ## The division toward zero -/

/-- The number of a finite word above zero. -/
theorem value_of_pos {x : Binary64} (hx : x.isFinite) (hpos : Scalar.lt zero x) :
    ∃ h : 0 < x.significand, x.value = .finite .positive x.significand x.scale h := by
  rw [isFinite_eq] at hx
  rw [lt_eq, value_zero] at hpos
  cases hvalue : x.value with
  | notANumber => rw [hvalue] at hx; cases hx
  | infinity => rw [hvalue] at hx; cases hx
  | zero => rw [hvalue] at hpos; cases hpos
  | finite s m e hm =>
    cases s with
    | negative => rw [hvalue] at hpos; cases hpos
    | positive =>
      obtain ⟨-, rfl, rfl⟩ := value_finite hvalue
      exact ⟨hm, rfl⟩

theorem abs_of_pos {x : Binary64} (hx : x.isFinite) (hpos : Scalar.lt zero x) : x.abs = x := by
  obtain ⟨h, hvalue⟩ := value_of_pos hx hpos
  obtain ⟨hsign, -, -⟩ := value_finite hvalue
  have hbit : (@UnpackedFloat.unpackSign .binary64 x.word.toBitVec).toNat = 0 := by
    rw [← Sign.toBitVec_ofBitVec (UnpackedFloat.unpackSign _), hsign]
    rfl
  have hlt : x.word.toNat < 2 ^ 63 := by
    rw [UnpackedFloat.unpackSign_def, BitVec.extractLsb'_toNat] at hbit
    change x.word.toNat >>> 63 % 2 = 0 at hbit
    rw [Nat.shiftRight_eq_div_pow] at hbit
    have := x.word.toNat_lt
    omega
  refine congrArg Binary64.mk (UInt64.toNat_inj.1 ?_)
  rw [UInt64.toNat_and]
  exact (Nat.and_two_pow_sub_one_eq_mod x.word.toNat 63).trans (Nat.mod_eq_of_lt hlt)

/-- The remainder of the division toward zero lies between the modulus and its negative. -/
theorem remainder_mem {x m : Binary64} (hx : x.isFinite) (hm : m.isFinite)
    (hpos : Scalar.lt zero m) :
    (x.remainder m).isFinite ∧ Scalar.le (-m) (x.remainder m) ∧ Scalar.le (x.remainder m) m := by
  obtain ⟨hlong, hvalue⟩ := value_of_pos hm hpos
  have hcanonical := hvalue ▸ m.canonical_value
  have hnonzero : m.isZero = false := by
    rw [isZero, Bool.and_eq_false_iff, beq_eq_false_iff_ne, beq_eq_false_iff_ne]
    rw [significand] at hlong
    split_ifs at hlong with hexponent
    · exact .inr hlong.ne'
    · exact .inl hexponent
  set e := min x.scale m.scale with he
  set r := x.significand <<< (x.scale - e).toNat % m.significand <<< (m.scale - e).toNat
  have hremainder : x.remainder m = compose x.isNegative r e := by
    rw [remainder, isNaN_of_isFinite hx, isNaN_of_isFinite hm, hx, hm, hnonzero]
    rfl
  have hbelow : r ≤ m.significand * 2 ^ (m.scale - e).toNat := by
    rw [← Nat.shiftLeft_eq]
    exact (Nat.mod_lt _ (by rw [Nat.shiftLeft_eq]; positivity)).le
  have hshort : r < 2 ^ 53 := by
    obtain hmin | hmin := min_choice x.scale m.scale
    · have hle : r ≤ x.significand := by
        refine (Nat.mod_le _ _).trans ?_
        rw [he, hmin, sub_self, Int.toNat_zero, Nat.shiftLeft_zero]
      exact hle.trans_lt x.significand_lt
    · rw [he, hmin, sub_self, Int.toNat_zero, pow_zero, Nat.mul_one] at hbelow
      exact hbelow.trans_lt m.significand_lt
  rw [isFinite_eq, le_eq, le_eq, value_neg, hvalue, hremainder]
  obtain hzero | hr := r.eq_zero_or_pos
  · rw [hzero, value_compose_zero]
    exact ⟨rfl, rfl, rfl⟩
  · obtain ⟨n, f, hn, -, hround, hbound⟩ :=
      exists_round hr (le_min x.le_scale m.le_scale) (sign x.isNegative)
    have hle := (le_positive hn hlong).2
      (hbound _ _ _ hlong hcanonical (min_le_right x.scale m.scale) hbelow)
    rw [value_compose x.isNegative hr hshort (le_min x.le_scale m.le_scale)
      ((min_le_right _ _).trans (scale_le hm)), hround]
    cases x.isNegative with
    | false => exact ⟨rfl, rfl, hle⟩
    | true =>
      exact ⟨rfl, (le_neg (.finite .positive m.significand m.scale hlong)
        (.finite .positive n f hn)).trans hle, rfl⟩

/-! ## The Euclidean remainder -/

/-- **The Euclidean remainder** of a finite word by a positive one lies between zero and the
modulus. -/
theorem modulo_mem {x m : Binary64} (hx : x.isFinite) (hm : m.isFinite)
    (hpos : Scalar.lt zero m) :
    (Scalar.modulo x m).isFinite ∧ Scalar.le zero (Scalar.modulo x m) ∧
      Scalar.le (Scalar.modulo x m) m := by
  obtain ⟨hfinite, hlow, hhigh⟩ := remainder_mem hx hm hpos
  have hmodulo : Scalar.modulo x m =
      if Scalar.lt (x.remainder m) zero then x.remainder m + m else x.remainder m := by
    have hzero : (zero : Binary64) = ⟨0⟩ := by decide +kernel
    show (if _ then x.remainder m + m.abs else x.remainder m) = _
    rw [abs_of_pos hm hpos, hzero]
    rfl
  rw [hmodulo]
  split_ifs with hneg
  · obtain ⟨hlow, hhigh⟩ := add_mem hfinite hm hneg (le_of_lt hpos) hlow
    exact ⟨isFinite_of_mem hlow hhigh hm, hlow, hhigh⟩
  · exact ⟨hfinite, le_of_not_lt (by decide +kernel) (isNaN_of_isFinite hfinite) hneg, hhigh⟩

/-- The number that is next to zero from below is lifted to the modulus. -/
example : Scalar.modulo (⟨0x8000000000000001⟩ : Binary64) (Scalar.ofNat 24) = Scalar.ofNat 24 := by
  decide +kernel

end Aperture.Binary64
