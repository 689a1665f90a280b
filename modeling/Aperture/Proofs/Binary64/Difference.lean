import Aperture.Proofs.Binary64.Rounding

/-!
# Differences of words

A number that is canonical, with an exponent that there is room for, is the number of a word
(`unpack_pack`). So a rounded difference that lies between the numbers of two words is what the
difference of the words is read as, and its bounds are theirs (`sub_mem`).
-/

namespace Aperture.Binary64

open Scalar (zero)
open Float.Model (Format UnpackedFloat)
open Float.Model.UnpackedFloat (Sign)

/-! ## Numbers of words -/

theorem exponent_value_le {x : Binary64} {s : Sign} {m : Nat} {e : Int} {hm : 0 < m}
    (h : x.value = .finite s m e hm) : e ≤ 971 := by
  have hbias : Format.binary64.exponentBias = 1023 := by decide
  have hbound : (@UnpackedFloat.unpackExponent .binary64 x.word.toBitVec).toNat < 2 ^ 11 :=
    BitVec.isLt _
  unfold value UnpackedFloat.unpack at h
  rw [hbias] at h
  dsimp only at h
  split_ifs at h with htop hinfinite hlow hzero
  · cases h
    rw [hlow]
    decide
  · cases h
    have hne := mt (BitVec.toNat_inj (y := -1#11)).1 htop
    have hall : (-1#11).toNat = 2047 := by decide
    omega

/-- A number with its first digit hidden. -/
theorem unpack_normal (s : Sign) {m : Nat} {n : Nat} (hm : 0 < m) (hlong : 2 ^ 52 ≤ m)
    (hshort : m < 2 ^ 53) (hn : 0 < n) (htop : n < 2047) :
    UnpackedFloat.unpack .binary64
        (UnpackedFloat.packComponents .binary64 s (BitVec.ofNat 11 n) (BitVec.ofNat 52 m)) =
      .finite s m (n - 1075) hm := by
  have hbias : Format.binary64.exponentBias = 1023 := by decide
  have hexponent : (BitVec.ofNat 11 n).toNat = n := by
    rw [BitVec.toNat_ofNat, Nat.mod_eq_of_lt (by omega)]
  have hfinite : BitVec.ofNat 11 n ≠ -1#11 := fun h => by
    have := congrArg BitVec.toNat h
    have hall : (-1#11).toNat = 2047 := by decide
    omega
  have hlow : BitVec.ofNat 11 n ≠ 0#11 := fun h => by
    have := congrArg BitVec.toNat h
    rw [BitVec.toNat_zero] at this
    omega
  have hdigits : (1#1 ++ BitVec.ofNat 52 m).toNat = m := by
    rw [toNat_implicit, BitVec.toNat_ofNat]
    omega
  simp only [UnpackedFloat.unpack, UnpackedFloat.unpackExponent_packComponents,
    UnpackedFloat.unpackMantissa_packComponents, UnpackedFloat.unpackSign_packComponents,
    Sign.ofBitVec_toBitVec, hbias, hexponent, hfinite, hlow, hdigits, if_false]
  rfl

/-- A number with all its digits, at the lowest exponent. -/
theorem unpack_subnormal (s : Sign) {m : Nat} (hm : 0 < m) (hshort : m < 2 ^ 52) :
    UnpackedFloat.unpack .binary64
        (UnpackedFloat.packComponents .binary64 s 0#11 (BitVec.ofNat 52 m)) =
      .finite s m (-1074) hm := by
  have hbias : Format.binary64.exponentBias = 1023 := by decide
  have hdigits : (BitVec.ofNat 52 m).toNat = m := by
    rw [BitVec.toNat_ofNat, Nat.mod_eq_of_lt hshort]
  have hne : BitVec.ofNat 52 m ≠ 0#52 := fun h => by
    have := congrArg BitVec.toNat h
    rw [BitVec.toNat_zero] at this
    omega
  have hfinite : 0#11 ≠ -1#11 := by decide
  simp only [UnpackedFloat.unpack, UnpackedFloat.unpackExponent_packComponents,
    UnpackedFloat.unpackMantissa_packComponents, UnpackedFloat.unpackSign_packComponents,
    Sign.ofBitVec_toBitVec, hbias, hfinite, hne, hdigits, if_false, if_true, dif_neg,
    not_false_eq_true]
  rfl

/-- A canonical number with an exponent that there is room for is the number of a word. -/
theorem unpack_pack {s : Sign} {m : Nat} {e : Int} {hm : 0 < m}
    (h : Canonical (.finite s m e hm)) (he : e ≤ 971) :
    UnpackedFloat.unpack .binary64 (UnpackedFloat.pack .binary64 (.finite s m e hm)) =
      .finite s m e hm := by
  obtain ⟨hshort, hlow, hlong⟩ := h
  have hlog := (Nat.log2_lt hm.ne').2 hshort
  have hbias : Format.binary64.exponentBias = 1023 := by decide
  have hbits : Format.binary64.mantissaBits = 53 := by decide
  have hroom : ¬ 2 ^ 11 ≤ (e + (1023 : Nat) + (52 : Nat)).toNat + 1 := by omega
  unfold UnpackedFloat.pack
  rw [hbias, hbits]
  dsimp only
  rw [if_neg hroom]
  split_ifs with hnormal
  · have hfull : 2 ^ 52 ≤ m := (Nat.le_log2 hm.ne').1 (by omega)
    rw [unpack_normal s hm hfull hshort (by omega) (by omega)]
    congr 1
    omega
  · have hpart : m < 2 ^ 52 := (Nat.log2_lt hm.ne').1 (by omega)
    obtain rfl : e = -1074 := hlong.resolve_left (by omega)
    exact unpack_subnormal s hm hpart

/-- So is every canonical number between two that are. -/
theorem unpack_pack_of_between {v : UnpackedFloat} {m n : Nat} {e f : Int} {hm : 0 < m}
    {hn : 0 < n} (hv : Canonical v) (hlow : UnpackedFloat.le (.finite .negative n f hn) v)
    (hhigh : UnpackedFloat.le v (.finite .positive m e hm)) (hf : f ≤ 971) (he : e ≤ 971) :
    (Float.Model.pack v).unpack = v := by
  show UnpackedFloat.unpack .binary64 (UnpackedFloat.pack .binary64 v) = v
  cases v with
  | notANumber => cases hlow
  | infinity s => cases s <;> contradiction
  | zero s => exact UnpackedFloat.unpack_packedZero
  | finite s c g hc =>
    refine unpack_pack hv ?_
    cases s with
    | positive =>
      have := (le_positive hc hm).1 hhigh
      omega
    | negative =>
      have := (le_positive hc hn).1 ((le_neg (.finite .positive n f hn) _).symm.trans hlow)
      omega

/-! ## Differences of words -/

theorem value_lift₂ {f : Float → Float → Float}
    {g : UnpackedFloat → UnpackedFloat → UnpackedFloat}
    (hf : ∀ a b : Float, f a b = ⟨.pack (g a.toModel.unpack b.toModel.unpack)⟩)
    {x y : Binary64} (hx : x.isNaN = false) (hy : y.isNaN = false) :
    (lift₂ f x y).value = (Float.Model.pack (g x.value y.value)).unpack := by
  rw [lift₂_eq hf hx hy, value_ofFloat]

/-- What a finite word that is not negative is read as. -/
theorem value_of_nonneg {x : Binary64} (hx : x.isFinite) (hnonneg : Scalar.le zero x) :
    (∃ s, x.value = .zero s) ∨ ∃ m e hm, x.value = .finite .positive m e hm := by
  rw [isFinite_eq] at hx
  rw [le_eq, value_zero] at hnonneg
  cases hvalue : x.value with
  | notANumber => rw [hvalue] at hx; cases hx
  | infinity => rw [hvalue] at hx; cases hx
  | zero s => exact .inl ⟨s, rfl⟩
  | finite s m e hm =>
    cases s with
    | negative => rw [hvalue] at hnonneg; cases hnonneg
    | positive => exact .inr ⟨m, e, hm, rfl⟩

/-- **A difference of words** that are not negative lies between the negative of the second and the
first, and is not negative when the second is at most the first. -/
theorem sub_mem {x y : Binary64} (hx : x.isFinite) (hy : y.isFinite) (hx0 : Scalar.le zero x)
    (hy0 : Scalar.le zero y) :
    Scalar.le (-y) (x - y) ∧ Scalar.le (x - y) x ∧ (Scalar.le y x → Scalar.le zero (x - y)) := by
  have hvalue : (x - y).value =
      (Float.Model.pack (UnpackedFloat.sub .binary64 x.value y.value)).unpack :=
    value_lift₂ (f := (· - ·)) (fun _ _ => rfl) (isNaN_of_isFinite hx) (isNaN_of_isFinite hy)
  have hnan : (-y).isNaN = false := (isNaN_neg y).trans (isNaN_of_isFinite hy)
  obtain ⟨s, hxvalue⟩ | ⟨m, e, hm, hxvalue⟩ := value_of_nonneg hx hx0
  · obtain ⟨t, hyvalue⟩ | ⟨n, f, hn, hyvalue⟩ := value_of_nonneg hy hy0
    · rw [le_eq, le_eq, le_eq, le_eq, value_neg, value_zero, hvalue, hxvalue, hyvalue]
      cases s <;> cases t <;> exact ⟨rfl, rfl, fun _ => rfl⟩
    · have hnegative : (x - y).value = (-y).value := by
        refine Eq.trans ?_ (unpack_pack_value (-y))
        rw [hvalue, value_neg, hxvalue, hyvalue]
        rfl
      refine ⟨?_, ?_, fun hle => ?_⟩
      · rw [le_eq, hnegative, ← le_eq]
        exact le_self hnan
      · rw [le_eq, hnegative, value_neg, hxvalue, hyvalue]
        rfl
      · rw [le_eq, hxvalue, hyvalue] at hle
        cases hle
  · obtain ⟨t, hyvalue⟩ | ⟨n, f, hn, hyvalue⟩ := value_of_nonneg hy hy0
    · have hsame : (x - y).value = x.value := by
        refine Eq.trans ?_ (unpack_pack_value x)
        rw [hvalue, hxvalue, hyvalue]
        rfl
      rw [le_eq, le_eq, le_eq zero, hsame, ← le_eq, ← le_eq, ← le_eq]
      refine ⟨?_, le_self (isNaN_of_isFinite hx), fun _ => hx0⟩
      rw [le_eq, value_neg, hxvalue, hyvalue]
      rfl
    · obtain ⟨hcanonical, hlow, hhigh, hsign⟩ :=
        sub_between (hxvalue ▸ x.canonical_value) (hyvalue ▸ y.canonical_value)
      rw [le_eq, le_eq, le_eq, le_eq, value_neg, value_zero, hvalue, hxvalue, hyvalue,
        unpack_pack_of_between hcanonical hlow hhigh (exponent_value_le hyvalue)
          (exponent_value_le hxvalue)]
      exact ⟨hlow, hhigh, hsign⟩

theorem neg_nonneg {x : Binary64} (h : Scalar.lt x zero) : Scalar.le zero (-x) := by
  rw [lt_eq, value_zero] at h
  rw [le_eq, value_zero, value_neg]
  cases hvalue : x.value with
  | notANumber => rw [hvalue] at h; cases h
  | zero => rw [hvalue] at h; cases h
  | infinity s =>
    cases s with
    | positive => rw [hvalue] at h; cases h
    | negative => rfl
  | finite s =>
    cases s with
    | positive => rw [hvalue] at h; cases h
    | negative => rfl

/-- **A sum of a negative word** and one that makes up for it lies between zero and the latter. -/
theorem add_mem {x y : Binary64} (hx : x.isFinite) (hy : y.isFinite) (hneg : Scalar.lt x zero)
    (hy0 : Scalar.le zero y) (hle : Scalar.le (-y) x) :
    Scalar.le zero (x + y) ∧ Scalar.le (x + y) y := by
  have hnan := isNaN_of_isFinite hx
  have hsum : (x + y).value = (Float.Model.pack (.add .binary64 x.value y.value)).unpack :=
    value_lift₂ (f := (· + ·)) (fun _ _ => rfl) hnan (isNaN_of_isFinite hy)
  have hdifference : (y - -x).value = (Float.Model.pack (.sub .binary64 y.value (-x).value)).unpack :=
    value_lift₂ (f := (· - ·)) (fun _ _ => rfl) (isNaN_of_isFinite hy) ((isNaN_neg x).trans hnan)
  have hvalue : (x + y).value = (y - -x).value := by
    rw [hsum, hdifference, value_neg, add_eq_sub_neg]
  obtain ⟨-, hhigh, hlow⟩ := sub_mem hy ((isFinite_neg x).trans hx) hy0 (neg_nonneg hneg)
  rw [← neg_neg x, le_neg_neg] at hle
  rw [le_eq, le_eq, hvalue, ← le_eq, ← le_eq]
  exact ⟨hlow hle, hhigh⟩

/-- What lies between zero and a finite word is finite. -/
theorem isFinite_of_mem {x y : Binary64} (hlow : Scalar.le zero x) (hhigh : Scalar.le x y)
    (hy : y.isFinite) : x.isFinite := by
  rw [le_eq, value_zero] at hlow
  rw [le_eq] at hhigh
  rw [isFinite_eq] at hy ⊢
  cases hvalue : x.value with
  | notANumber => rw [hvalue] at hlow; cases hlow
  | zero => rfl
  | finite => rfl
  | infinity s =>
    rw [hvalue] at hlow hhigh
    generalize y.value = v at *
    cases s with
    | negative => cases hlow
    | positive => cases v <;> contradiction

end Aperture.Binary64
