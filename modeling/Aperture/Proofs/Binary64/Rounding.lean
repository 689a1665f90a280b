import Aperture.Proofs.Binary64.Range

/-!
# Rounding

What becomes of `m · 2 ^ e` when it is rounded to 53 digits.

* **Rounding does not cross a number** (`exists_round`): what is at most a canonical number is
  rounded to at most this number. Digits are only dropped above the lowest exponent, so nothing is
  rounded to zero either.
* A difference of two positive numbers is rounded to something between the negative of the second
  and the first (`sub_between`), and to no negative number when the second is at most the first.
-/

namespace Aperture.Binary64

open Float.Model (Format UnpackedFloat totalExponent)
open Float.Model.UnpackedFloat (Sign ExtendedMantissa)

/-! ## Dropping digits -/

theorem mantissa_shiftRight (em : ExtendedMantissa) (k : Nat) :
    (em >>> k).mantissa = em.mantissa / 2 ^ k := by
  show (Nat.repeat ExtendedMantissa.shiftRightOne k em).mantissa = _
  induction k with
  | zero => rw [Nat.repeat, pow_zero, Nat.div_one]
  | succ k ih => rw [Nat.repeat, ExtendedMantissa.shiftRightOne, ih, Nat.div_div_eq_div_mul, pow_succ]

theorem le_roundedMantissa (em : ExtendedMantissa) : em.mantissa ≤ em.roundedMantissa := by
  obtain ⟨m, round, sticky⟩ := em
  cases round <;> cases sticky
  · exact le_rfl
  · exact le_rfl
  · exact Nat.le_add_right m (m % 2)
  · exact Nat.le_succ m

theorem roundedMantissa_le (em : ExtendedMantissa) : em.roundedMantissa ≤ em.mantissa + 1 := by
  obtain ⟨m, round, sticky⟩ := em
  cases round <;> cases sticky
  · exact Nat.le_succ m
  · exact Nat.le_succ m
  · exact Nat.add_le_add_left (Nat.le_of_lt_succ (Nat.mod_lt m two_pos)) m
  · exact le_rfl

/-- Digits that are dropped do not lift a number over a whole one. -/
theorem rounded_shift_le {m n k : Nat} (h : m ≤ n * 2 ^ k) :
    (ExtendedMantissa.mk m false false >>> k).roundedMantissa ≤ n := by
  obtain rfl | hlt := h.eq_or_lt
  · rw [mul_comm, shiftRight_two_pow_mul]
    exact le_rfl
  · have hdiv : m / 2 ^ k < n := Nat.div_lt_of_lt_mul (mul_comm n _ ▸ hlt)
    calc (ExtendedMantissa.mk m false false >>> k).roundedMantissa
        ≤ (ExtendedMantissa.mk m false false >>> k).mantissa + 1 := roundedMantissa_le _
      _ = m / 2 ^ k + 1 := by rw [mantissa_shiftRight]
      _ ≤ n := hdiv

theorem le_rounded_shift {m n k : Nat} (h : n * 2 ^ k ≤ m) :
    n ≤ (ExtendedMantissa.mk m false false >>> k).roundedMantissa := by
  calc n ≤ m / 2 ^ k := (Nat.le_div_iff_mul_le (by positivity)).2 h
    _ = (ExtendedMantissa.mk m false false >>> k).mantissa := by rw [mantissa_shiftRight]
    _ ≤ (ExtendedMantissa.mk m false false >>> k).roundedMantissa := le_roundedMantissa _

/-! ## Rounding a number -/

theorem targetExponent_eq (m : Nat) (e : Int) :
    Format.binary64.targetExponent (totalExponent m e) = max (m.log2 + e - 52) (-1074) := by
  have hbits : (Format.binary64.mantissaBits : Int) = 53 := by decide
  have hlow : Format.binary64.minExponent = -1074 := by decide
  rw [Format.targetExponent, totalExponent, hbits, hlow]
  omega

/-- Digits that there is room for stay as they are. -/
theorem round_short {m : Nat} {e : Int} (hm : 0 < m) (hshort : m < 2 ^ 53) (he : -1074 ≤ e)
    (s : Sign) :
    let room := (min (52 - m.log2 : Int) (e + 1074)).toNat
    ∃ hpos : 0 < m <<< room, Canonical (.finite s (m <<< room) (e - room) hpos) ∧
      UnpackedFloat.round .binary64 s m e = .finite s (m <<< room) (e - room) hpos := by
  intro room
  have hlog := (Nat.log2_lt hm.ne').2 hshort
  have hroom : (room : Int) = min (52 - m.log2 : Int) (e + 1074) := Int.toNat_of_nonneg (by omega)
  have hpos : 0 < m <<< room := by
    rw [Nat.shiftLeft_eq]
    positivity
  have hlength : (m <<< room).log2 = m.log2 + room := by
    rw [Nat.shiftLeft_eq, mul_comm, log2_two_pow_mul room hm.ne', add_comm]
  have hcanonical : Canonical (.finite s (m <<< room) (e - room) hpos) := by
    refine ⟨(Nat.log2_lt hpos.ne').1 (by omega), by omega, ?_⟩
    by_cases hfull : m.log2 + room = 52
    · exact .inl ((Nat.le_log2 hpos.ne').1 (by omega))
    · exact .inr (by omega)
  have hamount : (e - max (m.log2 + e - 52) (-1074)).toNat = room := by omega
  refine ⟨hpos, hcanonical, ?_⟩
  have hround := round_of_canonical hcanonical s 0
  rw [pow_zero, Nat.one_mul, Nat.cast_zero, neg_zero, zero_add] at hround
  rw [UnpackedFloat.round, targetExponent_eq, UnpackedFloat.decreaseExponent, hamount]
  exact hround

/-- Rounded digits, and one place more when they got one too many. -/
theorem round_long {m : Nat} {e : Int} (hlong : 2 ^ 53 ≤ m) (he : -1074 ≤ e) (s : Sign) :
    let k := m.log2 - 52
    let r := (ExtendedMantissa.mk m false false >>> k).roundedMantissa
    ∃ n f, ∃ hpos : 0 < n, Canonical (.finite s n f hpos) ∧
      UnpackedFloat.round .binary64 s m e = .finite s n f hpos ∧
      (r < 2 ^ 53 ∧ n = r ∧ f = e + k ∨ r = 2 ^ 53 ∧ n = 2 ^ 52 ∧ f = e + k + 1) := by
  intro k r
  have hm : m ≠ 0 := by omega
  have hlog : 53 ≤ m.log2 := (Nat.le_log2 hm).2 hlong
  have hk : m.log2 = 52 + k := by omega
  have hlow : 2 ^ 52 ≤ r := le_rounded_shift (by
    rw [← pow_add, ← hk]
    exact Nat.log2_self_le hm)
  have hhigh : r ≤ 2 ^ 53 := rounded_shift_le (by
    rw [← pow_add, show 53 + k = m.log2 + 1 by omega]
    exact Nat.lt_log2_self.le)
  have hshift : UnpackedFloat.shiftToTargetExponent .binary64 m e .exact =
      (ExtendedMantissa.mk m false false >>> k, e + k) := by
    have hamount : (max (m.log2 + e - 52) (-1074) - e).toNat = k := by omega
    rw [UnpackedFloat.shiftToTargetExponent, targetExponent_eq, UnpackedFloat.shiftToExponent,
      hamount]
    rfl
  have hround : UnpackedFloat.round .binary64 s m e =
      UnpackedFloat.roundWithAccuracy .binary64 s m e .exact := by
    have hamount : (e - max (m.log2 + e - 52) (-1074)).toNat = 0 := by omega
    rw [UnpackedFloat.round, targetExponent_eq, UnpackedFloat.decreaseExponent, hamount,
      Nat.shiftLeft_zero, Nat.cast_zero, sub_zero]
  obtain hshort | hfull := hhigh.lt_or_eq
  · have hcanonical : Canonical (.finite s r (e + k) (by omega)) :=
      ⟨hshort, by omega, .inl hlow⟩
    have hagain := shift_of_canonical hcanonical 0
    rw [pow_zero, Nat.one_mul, Nat.cast_zero, neg_zero, zero_add] at hagain
    exact ⟨r, e + k, by omega, hcanonical, hround.trans (round_of_shifts s (by omega) hshift hagain),
      .inl ⟨hshort, rfl, rfl⟩⟩
  · have hcanonical : Canonical (.finite s (2 ^ 52) (e + k + 1) (by decide)) :=
      ⟨by decide, by omega, .inl le_rfl⟩
    have hagain := shift_of_canonical hcanonical 1
    rw [show 2 ^ 1 * 2 ^ 52 = r by rw [hfull]; rfl, show -(1 : Nat) + (e + k + 1) = e + k by omega]
      at hagain
    exact ⟨2 ^ 52, e + k + 1, by decide, hcanonical,
      hround.trans (round_of_shifts s (by decide) hshift hagain), .inr ⟨hfull, rfl, rfl⟩⟩

/-- **Rounding does not cross a number.** A number that is at most a canonical one is rounded to a
canonical one that is at most this one. -/
theorem exists_round {m : Nat} {e : Int} (hm : 0 < m) (he : -1074 ≤ e) (s : Sign) :
    ∃ n f, ∃ hpos : 0 < n, Canonical (.finite s n f hpos) ∧
      UnpackedFloat.round .binary64 s m e = .finite s n f hpos ∧
      ∀ t c g hc, Canonical (.finite t c g hc) → e ≤ g → m ≤ c * 2 ^ (g - e).toNat →
        f < g ∨ f = g ∧ n ≤ c := by
  obtain hshort | hlong := lt_or_ge m (2 ^ 53)
  · obtain ⟨hpos, hcanonical, hround⟩ := round_short hm hshort he s
    set room := (min (52 - m.log2 : Int) (e + 1074)).toNat
    refine ⟨_, _, hpos, hcanonical, hround, fun t c g hc _ heg hle => ?_⟩
    obtain hfit | hfit := room.eq_zero_or_pos
    · obtain rfl | hlt := heg.eq_or_lt
      · refine .inr ⟨by omega, ?_⟩
        rwa [hfit, Nat.shiftLeft_zero, sub_self, Int.toNat_zero, pow_zero, Nat.mul_one] at *
      · exact .inl (by omega)
    · exact .inl (by omega)
  · obtain ⟨n, f, hpos, hcanonical, hround, hdigits⟩ := round_long hlong he s
    refine ⟨n, f, hpos, hcanonical, hround, fun t c g hc hbound heg hle => ?_⟩
    set k := m.log2 - 52
    obtain ⟨hcshort, -, hclong⟩ := hbound
    have hlog : m.log2 < 53 + (g - e).toNat := by
      refine (Nat.log2_lt hm.ne').2 (hle.trans_lt ?_)
      rw [pow_add]
      gcongr
    have hkg : e + k ≤ g := by
      have := (Nat.le_log2 hm.ne').2 hlong
      omega
    have hsame (h : e + k = g) : (ExtendedMantissa.mk m false false >>> k).roundedMantissa ≤ c := by
      refine rounded_shift_le ?_
      rwa [← h, add_sub_cancel_left, Int.toNat_natCast] at hle
    obtain ⟨-, rfl, rfl⟩ | ⟨hfull, rfl, rfl⟩ := hdigits
    · exact hkg.lt_or_eq.imp_right fun h => ⟨h, hsame h⟩
    · have hne : e + k ≠ g := fun h => absurd (hsame h) (by omega)
      obtain hlt | heq := (Int.add_one_le_of_lt (hkg.lt_of_ne hne)).lt_or_eq
      · exact .inl hlt
      · exact .inr ⟨heq, hclong.resolve_right (by omega)⟩

/-! ## Order -/

theorem le_positive {m n : Nat} {e f : Int} (hm : 0 < m) (hn : 0 < n) :
    UnpackedFloat.le (.finite .positive m e hm) (.finite .positive n f hn) ↔
      e < f ∨ e = f ∧ m ≤ n := by
  show ((Ord.compare e f).then (Ord.compare m n)).isLE ↔ _
  rw [Ordering.isLE_then_iff_or, Int.compare_eq_lt, Int.compare_eq_eq, Nat.isLE_compare]

theorem le_neg (v w : UnpackedFloat) : UnpackedFloat.le v.neg w.neg = UnpackedFloat.le w v := by
  rw [UnpackedFloat.le, UnpackedFloat.le, compare_neg]

/-! ## Differences -/

/-- A coefficient over a lower exponent, where the other number is whole too. -/
theorem aligned_le {m n : Nat} {e f : Int} {hm : 0 < m} {hn : 0 < n}
    (hx : Canonical (.finite .positive m e hm)) (hy : Canonical (.finite .positive n f hn))
    (h : f < e ∨ f = e ∧ n ≤ m) : n <<< (f - min e f).toNat ≤ m <<< (e - min e f).toNat := by
  obtain hlt | ⟨rfl, hle⟩ := h
  · have hlong : 2 ^ 52 ≤ m := hx.2.2.resolve_right (by have := hy.2.1; omega)
    rw [min_eq_right hlt.le, sub_self, Int.toNat_zero, Nat.shiftLeft_zero, Nat.shiftLeft_eq]
    calc n ≤ 2 ^ 52 * 2 ^ 1 := hy.1.le
      _ ≤ m * 2 ^ (e - f).toNat := by
        gcongr
        · decide
        · omega
  · rw [min_self, sub_self, Int.toNat_zero, Nat.shiftLeft_zero, Nat.shiftLeft_zero]
    exact hle

/-- **A rounded difference** of positive numbers lies between the negative of the second and the
first; it is not negative when the second is at most the first. -/
theorem sub_between {m n : Nat} {e f : Int} {hm : 0 < m} {hn : 0 < n}
    (hx : Canonical (.finite .positive m e hm)) (hy : Canonical (.finite .positive n f hn)) :
    let v := UnpackedFloat.sub .binary64 (.finite .positive m e hm) (.finite .positive n f hn)
    Canonical v ∧ UnpackedFloat.le (.finite .negative n f hn) v ∧
      UnpackedFloat.le v (.finite .positive m e hm) ∧
      (UnpackedFloat.le (.finite .positive n f hn) (.finite .positive m e hm) →
        UnpackedFloat.le (.zero .positive) v) := by
  intro v
  set a := m <<< (e - min e f).toNat
  set b := n <<< (f - min e f).toNat
  have ha : a = m * 2 ^ (e - min e f).toNat := Nat.shiftLeft_eq ..
  have hb : b = n * 2 ^ (f - min e f).toNat := Nat.shiftLeft_eq ..
  have hlow : -1074 ≤ min e f := le_min hx.2.1 hy.2.1
  have hv : v = UnpackedFloat.normalize .binary64 ((a : Int) - b) (min e f) .positive := rfl
  rw [hv, UnpackedFloat.normalize]
  obtain hlt | heq | hgt := lt_trichotomy a b
  · rw [Int.compare_eq_lt.2 (by omega)]
    obtain ⟨c, g, hc, hcanonical, hround, hbound⟩ := exists_round (m := (-((a : Int) - b)).toNat)
      (by omega) hlow .negative
    dsimp only
    rw [hround]
    refine ⟨hcanonical, ?_, rfl, fun hle => ?_⟩
    · have := hbound _ _ _ hn hy (min_le_right e f) (by rw [← hb]; omega)
      exact (le_neg (.finite .positive n f hn) (.finite .positive c g hc)).trans
        ((le_positive hc hn).2 this)
    · exact absurd (aligned_le hx hy ((le_positive hn hm).1 hle)) (by omega)
  · rw [Int.compare_eq_eq.2 (by omega)]
    exact ⟨trivial, rfl, rfl, fun _ => rfl⟩
  · rw [Int.compare_eq_gt.2 (by omega)]
    obtain ⟨c, g, hc, hcanonical, hround, hbound⟩ := exists_round (m := ((a : Int) - b).toNat)
      (by omega) hlow .positive
    dsimp only
    rw [hround]
    have := hbound _ _ _ hm hx (min_le_left e f) (by rw [← ha]; omega)
    exact ⟨hcanonical, rfl, (le_positive hc hm).2 this, fun _ => rfl⟩

/-- A sum is the difference to the negative. -/
theorem add_eq_sub_neg (v w : UnpackedFloat) :
    UnpackedFloat.add .binary64 v w = UnpackedFloat.sub .binary64 w v.neg := by
  cases v with
  | notANumber => cases w <;> rfl
  | infinity s =>
    cases w with
    | infinity t => cases s <;> cases t <;> rfl
    | _ => cases s <;> rfl
  | zero s =>
    cases w with
    | zero t => cases s <;> cases t <;> rfl
    | _ => rfl
  | finite s m e hm =>
    cases w with
    | notANumber => rfl
    | infinity => rfl
    | zero => cases s <;> rfl
    | finite t n f hn =>
      have hneg (k : Int) : (-s).apply k = -s.apply k := by cases s <;> simp [Sign.apply]
      rw [UnpackedFloat.add, UnpackedFloat.neg, UnpackedFloat.sub]
      dsimp only [UnpackedFloat.decreaseExponent]
      rw [hneg, min_comm f e, sub_neg_eq_add, Int.add_comm]

end Aperture.Binary64
