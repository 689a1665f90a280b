import Aperture.Proofs.Binary64.Value

/-!
# Numbers within bounds

Comparisons of words are comparisons of their numbers, and false where one is none.

* Exchanging the operands turns a comparison around (`compare_swap`), so of two numbers one is below
  the other or not above it (`le_of_not_lt`, `lt_of_not_le`).
* Changing both signs turns a comparison around (`le_neg_neg`), so bounds that are opposite to each
  other let a number pass exactly if they let its negative pass (`within_neg`).
* From zero to below 24 is within ±90 (`within_ninety`).
* A number within bounds is finite, and so is every operand of the sums, quotients and products
  that led to it (`isFinite_of_add`, `isFinite_of_div`, `isFinite_of_mul`), divisors apart: what is
  infinite or no number stays so.
-/

namespace Aperture.Binary64

open Scalar (zero)
open Float.Model (UnpackedFloat)
open Float.Model.UnpackedFloat (Sign)

/-! ## Comparisons -/

theorem le_eq (x y : Binary64) : Scalar.le x y = UnpackedFloat.le x.value y.value := by
  rw [← unpack_toFloat, ← unpack_toFloat]
  show decide (Float.le x.toFloat y.toFloat = true) = _
  rw [Bool.decide_eq_true]
  exact Bool.decide_eq_true

theorem lt_eq (x y : Binary64) : Scalar.lt x y = UnpackedFloat.lt x.value y.value := by
  rw [← unpack_toFloat, ← unpack_toFloat]
  show decide (Float.lt x.toFloat y.toFloat = true) = _
  rw [Bool.decide_eq_true]
  exact Bool.decide_eq_true

theorem swap_compare (m n : Nat) (e f : Int) :
    ((Ord.compare e f).then (Ord.compare m n)).swap =
      (Ord.compare f e).then (Ord.compare n m) := by
  rw [Ordering.swap_then, ← Std.OrientedCmp.eq_swap, ← Std.OrientedCmp.eq_swap]

/-- Changing both signs turns the order around. -/
theorem compare_neg (v w : UnpackedFloat) :
    UnpackedFloat.compare v.neg w.neg = UnpackedFloat.compare w v := by
  cases v with
  | notANumber => cases w <;> rfl
  | infinity s =>
    cases w with
    | infinity t => cases s <;> cases t <;> rfl
    | _ => cases s <;> rfl
  | zero s =>
    cases w with
    | infinity t => cases t <;> rfl
    | finite t => cases t <;> rfl
    | _ => rfl
  | finite s m e =>
    cases w with
    | notANumber => rfl
    | infinity t => cases t <;> rfl
    | zero => cases s <;> rfl
    | finite t n f =>
      cases s <;> cases t
      · exact congrArg some (swap_compare n m f e).symm
      · rfl
      · rfl
      · exact congrArg some (swap_compare m n e f)

/-- Exchanging the operands turns the order around. -/
theorem compare_swap (v w : UnpackedFloat) :
    UnpackedFloat.compare w v = (UnpackedFloat.compare v w).map Ordering.swap := by
  cases v with
  | notANumber => cases w <;> rfl
  | infinity s =>
    cases w with
    | infinity t => cases s <;> cases t <;> rfl
    | _ => cases s <;> rfl
  | zero s =>
    cases w with
    | infinity t => cases t <;> rfl
    | finite t => cases t <;> rfl
    | _ => rfl
  | finite s m e =>
    cases w with
    | notANumber => rfl
    | infinity t => cases t <;> rfl
    | zero => cases s <;> rfl
    | finite t n f =>
      cases s <;> cases t
      · exact congrArg (fun o => some (Ordering.swap o)) (swap_compare m n e f).symm
      · rfl
      · rfl
      · exact congrArg some (swap_compare m n e f).symm

/-- Two words that are numbers can be compared. -/
theorem exists_compare {x y : Binary64} (hx : x.isNaN = false) (hy : y.isNaN = false) :
    ∃ o, UnpackedFloat.compare x.value y.value = some o := by
  have hnumber {z : Binary64} (hz : z.isNaN = false) : z.value ≠ .notANumber := fun h => by
    rw [value_eq_notANumber_iff, hz] at h
    cases h
  have hxnumber := hnumber hx
  have hynumber := hnumber hy
  generalize x.value = v, y.value = w at *
  fun_cases UnpackedFloat.compare v w
  · exact absurd rfl hxnumber
  · exact absurd rfl hynumber
  all_goals exact ⟨_, rfl⟩

theorem le_of_not_lt {x y : Binary64} (hx : x.isNaN = false) (hy : y.isNaN = false)
    (h : ¬ Scalar.lt y x) : Scalar.le x y := by
  obtain ⟨o, ho⟩ := exists_compare hx hy
  rw [lt_eq, UnpackedFloat.lt, compare_swap, ho] at h
  rw [le_eq, UnpackedFloat.le, ho]
  cases o with
  | gt => exact absurd rfl h
  | _ => rfl

theorem lt_of_not_le {x y : Binary64} (hx : x.isNaN = false) (hy : y.isNaN = false)
    (h : ¬ Scalar.le y x) : Scalar.lt x y := by
  obtain ⟨o, ho⟩ := exists_compare hx hy
  rw [le_eq, UnpackedFloat.le, compare_swap, ho] at h
  rw [lt_eq, UnpackedFloat.lt, ho]
  cases o with
  | lt => rfl
  | _ => exact absurd rfl h

theorem le_of_lt {x y : Binary64} (h : Scalar.lt x y) : Scalar.le x y := by
  rw [lt_eq, UnpackedFloat.lt, beq_iff_eq] at h
  rw [le_eq, UnpackedFloat.le, h]
  rfl

theorem le_self {x : Binary64} (h : x.isNaN = false) : Scalar.le x x := by
  by_contra hnot
  exact hnot (le_of_lt (lt_of_not_le h h hnot))

/-- What is above something is a number. -/
theorem isNaN_of_le {x y : Binary64} (h : Scalar.le x y) : y.isNaN = false := by
  rw [← Bool.not_eq_true, ← value_eq_notANumber_iff]
  rw [le_eq, UnpackedFloat.le] at h
  intro hnan
  rw [hnan] at h
  cases hx : x.value <;> rw [hx] at h <;> cases h

theorem le_neg_neg (x y : Binary64) : Scalar.le (-x) (-y) = Scalar.le y x := by
  rw [le_eq, le_eq, value_neg, value_neg, UnpackedFloat.le, UnpackedFloat.le, compare_neg]

theorem within_neg (x y : Binary64) :
    Scalar.within (-y) y (-x) = Scalar.within (-y) y x := by
  rw [Scalar.within, Scalar.within, le_neg_neg, ← neg_neg y, le_neg_neg, neg_neg, Bool.and_comm]

theorem value_zero : (zero : Binary64).value = .zero .positive := by
  have hzero : (zero : Binary64) = ⟨0⟩ := by decide +kernel
  rw [hzero]
  rfl

theorem value_ninety :
    (Scalar.ofNat 90 : Binary64).value =
      .finite .positive 6333186975989760 (-46) (by decide) := by
  have hninety : (Scalar.ofNat 90 : Binary64) = ⟨0x4056800000000000⟩ := by decide +kernel
  rw [hninety]
  rfl

theorem value_twentyFour :
    (Scalar.ofNat 24 : Binary64).value =
      .finite .positive 6755399441055744 (-48) (by decide) := by
  have htwentyFour : (Scalar.ofNat 24 : Binary64) = ⟨0x4038000000000000⟩ := by decide +kernel
  rw [htwentyFour]
  rfl

theorem neg_ninety_le {x : Binary64} (h : Scalar.le zero x) : Scalar.le (-Scalar.ofNat 90) x := by
  rw [le_eq, value_zero] at h
  rw [le_eq, value_neg, value_ninety]
  cases hx : x.value with
  | notANumber => rw [hx] at h; cases h
  | zero => rfl
  | infinity s =>
    cases s with
    | negative => rw [hx] at h; cases h
    | positive => rfl
  | finite s =>
    cases s with
    | negative => rw [hx] at h; cases h
    | positive => rfl

theorem le_ninety {x : Binary64} (h : Scalar.lt x (Scalar.ofNat 24)) :
    Scalar.le x (Scalar.ofNat 90) := by
  rw [lt_eq, value_twentyFour] at h
  rw [le_eq, value_ninety]
  cases hx : x.value with
  | notANumber => rw [hx] at h; cases h
  | zero => rfl
  | infinity s =>
    cases s with
    | negative => rfl
    | positive => rw [hx] at h; cases h
  | finite s m e =>
    cases s with
    | negative => rfl
    | positive =>
      rw [hx] at h
      have horder : (Ord.compare e (-48)).then (Ord.compare m 6755399441055744) = .lt := by
        simpa [UnpackedFloat.lt, UnpackedFloat.compare] using h
      have he : e ≤ -48 := by
        by_contra hlt
        rw [Int.compare_eq_gt.2 (by omega)] at horder
        cases horder
      have hless : Ord.compare e (-46) = .lt := Int.compare_eq_lt.2 (by omega)
      simp [UnpackedFloat.le, UnpackedFloat.compare, hless]

/-- Hours are degrees within bounds. -/
theorem within_ninety {x : Binary64} (hlow : Scalar.le zero x)
    (hhigh : Scalar.lt x (Scalar.ofNat 24)) :
    Scalar.within (-Scalar.ofNat 90) (Scalar.ofNat 90) x := by
  rw [Scalar.within, neg_ninety_le hlow, le_ninety hhigh]
  rfl

/-! ## Finite numbers -/

theorem isFinite_eq (x : Binary64) : x.isFinite = x.value.isFinite := by
  rw [isFinite, exponentField_eq]
  unfold value UnpackedFloat.unpack
  dsimp only
  split_ifs with htop hinfinite hlow hzero
  · rw [htop]
    rfl
  · rw [htop]
    rfl
  all_goals
    have hne := mt (BitVec.toNat_inj (y := -1#11)).1 htop
    simpa [UnpackedFloat.isFinite] using hne

theorem isFinite_neg (x : Binary64) : (-x).isFinite = x.isFinite := by
  rw [isFinite, isFinite, exponentField_eq, exponentField_eq, unpackExponent_neg]

theorem isNaN_of_isFinite {x : Binary64} (h : x.isFinite) : x.isNaN = false := by
  rw [isFinite, bne_iff_ne] at h
  rw [isNaN, beq_eq_false_iff_ne.2 h, Bool.false_and]

theorem isFinite_of_unpack_pack {v : UnpackedFloat}
    (h : (Float.Model.pack v).unpack.isFinite) : v.isFinite := by
  change (UnpackedFloat.unpack .binary64 (UnpackedFloat.pack .binary64 v)).isFinite at h
  cases v with
  | notANumber =>
    rw [UnpackedFloat.pack, UnpackedFloat.unpack_packedNaN] at h
    exact h
  | infinity s => cases s <;> exact h
  | _ => rfl

theorem isFinite_quiet {x : Binary64} (h : x.isNaN) : x.quiet.isFinite = false := by
  have hexponent : @UnpackedFloat.unpackExponent .binary64 x.quiet.word.toBitVec =
      @UnpackedFloat.unpackExponent .binary64 x.word.toBitVec := by
    rw [UnpackedFloat.unpackExponent_def, UnpackedFloat.unpackExponent_def]
    show BitVec.extractLsb' 52 11 (x.word.toBitVec ||| 0x0008000000000000) = _
    rw [BitVec.extractLsb'_or]
    exact BitVec.or_zero
  rw [isFinite, exponentField_eq, hexponent, ← exponentField_eq]
  rw [isNaN, Bool.and_eq_true] at h
  simpa using h.1

theorem isFinite_of_lift₂ {f : Float → Float → Float}
    {g : UnpackedFloat → UnpackedFloat → UnpackedFloat}
    (hf : ∀ a b : Float, f a b = ⟨.pack (g a.toModel.unpack b.toModel.unpack)⟩)
    {x y : Binary64} (h : (lift₂ f x y).isFinite) : (g x.value y.value).isFinite := by
  by_cases hx : x.isNaN
  · rw [lift₂, if_pos hx, isFinite_quiet hx] at h
    cases h
  by_cases hy : y.isNaN
  · rw [lift₂, if_neg hx, if_pos hy, isFinite_quiet hy] at h
    cases h
  rw [lift₂_eq hf (Bool.eq_false_iff.2 hx) (Bool.eq_false_iff.2 hy), isFinite_eq,
    value_ofFloat] at h
  exact isFinite_of_unpack_pack h

theorem isFinite_of_add {x y : Binary64} (h : (x + y).isFinite) : x.isFinite ∧ y.isFinite := by
  have hsum : (UnpackedFloat.add .binary64 x.value y.value).isFinite :=
    isFinite_of_lift₂ (f := (· + ·)) (fun _ _ => rfl) h
  rw [isFinite_eq, isFinite_eq]
  generalize x.value = v, y.value = w at hsum
  cases v with
  | notANumber => cases hsum
  | infinity s =>
    cases w with
    | infinity t => cases s <;> cases t <;> cases hsum
    | _ => cases hsum
  | _ =>
    cases w with
    | notANumber => cases hsum
    | infinity => cases hsum
    | _ => exact ⟨rfl, rfl⟩

theorem isFinite_of_div {x y : Binary64} (h : (x / y).isFinite) : x.isFinite := by
  have hquotient : (UnpackedFloat.div .binary64 x.value y.value).isFinite :=
    isFinite_of_lift₂ (f := (· / ·)) (fun _ _ => rfl) h
  rw [isFinite_eq]
  generalize x.value = v, y.value = w at hquotient
  cases v with
  | notANumber => cases hquotient
  | infinity => cases w <;> cases hquotient
  | _ => rfl

theorem isFinite_of_mul {x y : Binary64} (h : (x * y).isFinite) : y.isFinite := by
  have hproduct : (UnpackedFloat.mul .binary64 x.value y.value).isFinite :=
    isFinite_of_lift₂ (f := (· * ·)) (fun _ _ => rfl) h
  rw [isFinite_eq]
  generalize x.value = v, y.value = w at hproduct
  cases w with
  | notANumber => cases v <;> cases hproduct
  | infinity => cases v <;> cases hproduct
  | _ => rfl

theorem isFinite_of_within {x : Binary64}
    (h : Scalar.within (-Scalar.ofNat 90) (Scalar.ofNat 90) x) : x.isFinite := by
  rw [Scalar.within, Bool.and_eq_true, le_eq, le_eq, value_neg, value_ninety] at h
  rw [isFinite_eq]
  cases hx : x.value with
  | notANumber => rw [hx] at h; cases h.1
  | infinity s =>
    rw [hx] at h
    cases s with
    | negative => cases h.1
    | positive => cases h.2
  | _ => rfl

end Aperture.Binary64
