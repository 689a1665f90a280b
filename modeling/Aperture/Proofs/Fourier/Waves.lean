import Aperture.Fourier.Turn
import Aperture.Proofs.Exact.Circle
import Aperture.Proofs.Grid.Positions
import Mathlib.Algebra.BigOperators.Ring.Finset
import Mathlib.RingTheory.RootsOfUnity.Complex

/-!
# Waves

The transforms over the exact complex numbers. `wave` is the root of unity that a cell is multiplied
by, and a line transform is the discrete Fourier transform when it answers the sums of cells and
waves (`IsFourierTransform`); the one that writes the sum down is (`isFourierTransform_direct`).

Waves that run in opposite directions are orthogonal, along a line (`sum_wave_mul`) and, as
products over the axes, on a grid (`sum_waves_mul`). Sums with one of them are therefore undone by
sums with the other (`sum_sum_wave`, `sum_sum_waves`).
-/

namespace Aperture

open Exact Finset

/-! ## The complex plane -/

namespace Complex

/-- The point of the complex plane. -/
def toPlane (a : Complex ℝ) : ℂ := ⟨a.re, a.im⟩

@[simp] theorem toPlane_re (a : Complex ℝ) : a.toPlane.re = a.re := rfl

@[simp] theorem toPlane_im (a : Complex ℝ) : a.toPlane.im = a.im := rfl

theorem toPlane_injective {a b : Complex ℝ} (h : a.toPlane = b.toPlane) : a = b := by
  cases a
  cases b
  obtain ⟨hre, him⟩ := Complex.ext_iff.1 h
  exact congrArg₂ mk hre him

@[simp] theorem toPlane_zero : (zero : Complex ℝ).toPlane = 0 := by
  simp [toPlane, zero, Complex.ext_iff]

@[simp] theorem toPlane_ofReal (x : ℝ) : (ofReal x).toPlane = x := by
  simp [toPlane, ofReal, Complex.ext_iff]

theorem toPlane_add (a b : Complex ℝ) : (a + b).toPlane = a.toPlane + b.toPlane := rfl

theorem toPlane_mul (a b : Complex ℝ) : (a * b).toPlane = a.toPlane * b.toPlane := rfl

theorem toPlane_conj (a : Complex ℝ) : a.conj.toPlane = starRingEnd ℂ a.toPlane := rfl

theorem toPlane_scale (k : ℝ) (a : Complex ℝ) : (a.scale k).toPlane = a.toPlane * k := by
  simp [toPlane, scale, Complex.ext_iff]

end Complex

namespace Fourier

/-! ## Along a line -/

/-- Which way the waves of a transform run. -/
def Direction.sign : Direction → ℂ
  | .forward => -1
  | .inverse => 1

@[simp] theorem Direction.sign_opposite (direction : Direction) :
    direction.opposite.sign = -direction.sign := by
  cases direction <;> simp [opposite, sign]

/-- The root of unity `exp (∓ 2 π i · m / n)`. -/
noncomputable def wave (direction : Direction) (n m : ℕ) : ℂ :=
  Complex.exp (direction.sign * (2 * Real.pi * Complex.I * m / n))

variable (direction : Direction) (n : ℕ)

@[simp] theorem wave_zero : wave direction n 0 = 1 := by simp [wave]

theorem wave_add (a b : ℕ) :
    wave direction n (a + b) = wave direction n a * wave direction n b := by
  rw [wave, wave, wave, ← Complex.exp_add]
  congr 1
  push_cast
  ring

theorem wave_mul (a b : ℕ) : wave direction n (a * b) = wave direction n a ^ b := by
  rw [wave, wave, ← Complex.exp_nat_mul]
  congr 1
  push_cast
  ring

theorem wave_opposite (m : ℕ) : wave direction.opposite n m = (wave direction n m)⁻¹ := by
  rw [wave, wave, ← Complex.exp_neg, Direction.sign_opposite, neg_mul]

theorem conj_wave (m : ℕ) :
    starRingEnd ℂ (wave direction n m) = wave direction.opposite n m := by
  have hsign : starRingEnd ℂ direction.sign = direction.sign := by
    cases direction <;> simp [Direction.sign]
  rw [wave, wave, ← Complex.exp_conj, Direction.sign_opposite]
  congr 1
  simp [hsign, map_ofNat]
  ring

theorem wave_ne_zero (m : ℕ) : wave direction n m ≠ 0 := Complex.exp_ne_zero _

variable {n}

theorem isPrimitiveRoot_wave (hn : n ≠ 0) : IsPrimitiveRoot (wave direction n 1) n := by
  have hroot := Complex.isPrimitiveRoot_exp n hn
  cases direction with
  | forward => simpa [wave, Direction.sign, Complex.exp_neg] using hroot.inv
  | inverse => simpa [wave, Direction.sign] using hroot

theorem wave_eq_pow (m : ℕ) : wave direction n m = wave direction n 1 ^ m := by
  rw [← wave_mul, one_mul]

/-- A wave comes back after every full turn. -/
theorem wave_turns (m : ℕ) : wave direction n (n * m) = 1 := by
  rcases eq_or_ne n 0 with rfl | hn
  · rw [zero_mul, wave_zero]
  · rw [wave_mul, wave_eq_pow, (isPrimitiveRoot_wave direction hn).pow_eq_one, one_pow]

theorem wave_mod (m : ℕ) : wave direction n (m % n) = wave direction n m := by
  conv_rhs => rw [← Nat.mod_add_div m n, wave_add, wave_turns, mul_one]

theorem wave_half : wave .forward 2 1 = -1 := by
  have hangle : Direction.sign .forward * (2 * Real.pi * Complex.I * (1 : ℕ) / (2 : ℕ)) =
      -(Real.pi * Complex.I) := by
    rw [Direction.sign]
    push_cast
    ring
  rw [wave, hangle, Complex.exp_neg, Complex.exp_pi_mul_I, inv_neg_one]

/-- Going through the bins the other way turns the wave around. -/
theorem wave_reflect {k : ℕ} (hk : k ≤ n) (j : ℕ) :
    wave direction n (j * ((n - k) % n)) = wave direction.opposite n (j * k) := by
  have hturn : wave direction n (n - k) * wave direction n k = 1 := by
    rw [← wave_add, Nat.sub_add_cancel hk]
    simpa only [Nat.mul_one] using wave_turns direction (n := n) 1
  rw [Nat.mul_comm j, Nat.mul_comm j, wave_mul, wave_mul, wave_mod, wave_opposite,
    eq_inv_of_mul_eq_one_left hturn]

/-- Every bin is the reflection of one bin. -/
theorem sum_reflect (n : ℕ) (f : ℕ → ℂ) :
    ∑ k ∈ range n, f ((n - k) % n) = ∑ k ∈ range n, f k := by
  have hin {k : ℕ} (hk : k ∈ range n) : (n - k) % n ∈ range n :=
    mem_range.2 (Nat.mod_lt _ (Nat.zero_lt_of_lt (mem_range.1 hk)))
  have hback {k : ℕ} (hk : k ∈ range n) : (n - (n - k) % n) % n = k := by
    have hlt := mem_range.1 hk
    rcases Nat.eq_zero_or_pos k with rfl | hpos
    · rw [Nat.sub_zero, Nat.mod_self, Nat.sub_zero, Nat.mod_self]
    · rw [Nat.mod_eq_of_lt (Nat.sub_lt (Nat.zero_lt_of_lt hlt) hpos), Nat.sub_sub_self hlt.le,
        Nat.mod_eq_of_lt hlt]
  exact sum_nbij' (fun k => (n - k) % n) (fun k => (n - k) % n) (fun _ => hin) (fun _ => hin)
    (fun _ => hback) (fun _ => hback) fun _ _ => rfl

/-- Waves along a line that run in opposite directions are orthogonal. -/
theorem sum_wave_mul {j l : ℕ} (hj : j < n) (hl : l < n) :
    ∑ k ∈ range n, wave direction n (j * k) * wave direction.opposite n (k * l) =
      if j = l then (n : ℂ) else 0 := by
  obtain ⟨r, hr⟩ : ∃ r, r = wave direction n j * (wave direction n l)⁻¹ := ⟨_, rfl⟩
  have hterm (k : ℕ) : wave direction n (j * k) * wave direction.opposite n (k * l) = r ^ k := by
    rw [wave_mul, mul_comm k l, wave_mul, wave_opposite, hr, ← mul_pow]
  simp only [hterm]
  split_ifs with h
  · have hone : r = 1 := by rw [hr, h, mul_inv_cancel₀ (wave_ne_zero direction n l)]
    simp [hone]
  · have hne : r ≠ 1 := fun hone => h <| by
      have hn : n ≠ 0 := Nat.ne_of_gt (Nat.zero_lt_of_lt hj)
      have hsame := (mul_inv_eq_one₀ (wave_ne_zero direction n l)).1 (hr.symm.trans hone)
      rw [wave_eq_pow, wave_eq_pow direction l] at hsame
      exact (isPrimitiveRoot_wave direction hn).pow_inj hj hl hsame
    have hturn : r ^ n = 1 := by
      rw [hr, mul_pow, inv_pow, ← wave_mul, ← wave_mul, mul_comm j, mul_comm l, wave_turns,
        wave_turns, inv_one, mul_one]
    rw [geom_sum_eq hne, hturn, sub_self, zero_div]

/-- Sums with orthogonal factors, there and back. -/
theorem sum_sum_of_orthogonal {ι : Type*} [DecidableEq ι] {s : Finset ι} {u v : ι → ι → ℂ}
    {c : ℂ} {l : ι} (hl : l ∈ s)
    (h : ∀ j ∈ s, ∑ k ∈ s, u j k * v k l = if j = l then c else 0) (f : ι → ℂ) :
    ∑ k ∈ s, (∑ j ∈ s, f j * u j k) * v k l = c * f l :=
  calc ∑ k ∈ s, (∑ j ∈ s, f j * u j k) * v k l
      = ∑ j ∈ s, f j * ∑ k ∈ s, u j k * v k l := by
        simp only [sum_mul, mul_sum, mul_assoc]
        exact sum_comm
    _ = ∑ j ∈ s, f j * if j = l then c else 0 := sum_congr rfl fun j hj => by rw [h j hj]
    _ = c * f l := by simp [hl, mul_comm]

/-- Sums along a line, there and back. -/
theorem sum_sum_wave (f : ℕ → ℂ) {l : ℕ} (hl : l < n) :
    ∑ k ∈ range n, (∑ j ∈ range n, f j * wave direction n (j * k)) *
      wave direction.opposite n (k * l) = n * f l :=
  sum_sum_of_orthogonal (u := fun j k => wave direction n (j * k))
    (v := fun k l => wave direction.opposite n (k * l)) (mem_range.2 hl)
    (fun _ hj => sum_wave_mul direction (mem_range.1 hj) hl) f

/-! ## On a grid -/

/-- The product over the axes of the waves `exp (∓ 2 π i · j k / n)`. -/
noncomputable def waves (direction : Direction) : List ℕ → List ℕ → List ℕ → ℂ
  | n :: shape, j :: J, k :: K => wave direction n (j * k) * waves direction shape J K
  | _, _, _ => 1

@[simp] theorem waves_cons (n j k : ℕ) (shape J K : List ℕ) :
    waves direction (n :: shape) (j :: J) (k :: K) =
      wave direction n (j * k) * waves direction shape J K := rfl

theorem conj_waves (shape J K : List ℕ) :
    starRingEnd ℂ (waves direction shape J K) = waves direction.opposite shape J K := by
  induction shape generalizing J K with
  | nil => exact map_one _
  | cons n shape ih =>
    cases J with
    | nil => exact map_one _
    | cons j J =>
      cases K with
      | nil => exact map_one _
      | cons k K => rw [waves_cons, map_mul, conj_wave, ih, waves_cons]

/-- Waves on a grid that run in opposite directions are orthogonal. -/
theorem sum_waves_mul {shape J L : List ℕ} (hJ : Grid.Inside J shape) (hL : Grid.Inside L shape) :
    ∑ K ∈ Grid.positions shape, waves direction shape J K * waves direction.opposite shape K L =
      if J = L then (Grid.volume shape : ℂ) else 0 := by
  induction hJ generalizing L with
  | nil =>
    obtain rfl := Grid.inside_nil_iff.1 hL
    rw [Grid.sum_positions_nil]
    simp [waves]
  | @cons j n J shape hj _ ih =>
    obtain ⟨l, L, hl, hL', rfl⟩ := List.forall₂_cons_right_iff.1 hL
    calc ∑ K ∈ Grid.positions (n :: shape), waves direction (n :: shape) (j :: J) K *
            waves direction.opposite (n :: shape) K (l :: L)
        = (∑ k ∈ range n, wave direction n (j * k) * wave direction.opposite n (k * l)) *
            ∑ K ∈ Grid.positions shape,
              waves direction shape J K * waves direction.opposite shape K L := by
          rw [Grid.sum_positions_cons, sum_mul_sum]
          refine sum_congr rfl fun k _ => sum_congr rfl fun K _ => ?_
          rw [waves_cons, waves_cons]
          ring
      _ = (if j = l then (n : ℂ) else 0) * if J = L then (Grid.volume shape : ℂ) else 0 := by
          rw [sum_wave_mul direction hj hl, ih hL']
      _ = if j :: J = l :: L then (Grid.volume (n :: shape) : ℂ) else 0 := by
          by_cases hhead : j = l <;> by_cases htail : J = L <;> simp [hhead, htail]

/-- Sums over a grid, there and back. -/
theorem sum_sum_waves (shape : List ℕ) (f : List ℕ → ℂ) {L : List ℕ} (hL : Grid.Inside L shape) :
    ∑ K ∈ Grid.positions shape, (∑ J ∈ Grid.positions shape, f J * waves direction shape J K) *
      waves direction.opposite shape K L = Grid.volume shape * f L :=
  sum_sum_of_orthogonal (Grid.mem_positions.2 hL)
    (fun _ hJ => sum_waves_mul direction (Grid.mem_positions.1 hJ) hL) f

/-! ## Transforms of a line -/

/-- The cell of a buffer in the complex plane, zero outside the buffer. -/
noncomputable def amplitude (a : Array (Complex ℝ)) (i : ℕ) : ℂ := (a.getD i Complex.zero).toPlane

theorem amplitude_of_lt {a : Array (Complex ℝ)} {i : ℕ} (hi : i < a.size) :
    amplitude a i = a[i].toPlane := by
  rw [amplitude, ← Array.getElem_eq_getD]

/-- Buffers with the same cells in the complex plane are equal. -/
theorem eq_of_amplitude {a b : Array (Complex ℝ)} (hsize : a.size = b.size)
    (h : ∀ i < a.size, amplitude a i = amplitude b i) : a = b := by
  refine Array.ext hsize fun i hi hi' => Complex.toPlane_injective ?_
  rw [← amplitude_of_lt hi, ← amplitude_of_lt hi', h i hi]

/-- Whether a transform of lines is the discrete Fourier transform, not normalized. -/
def IsFourierTransform (line : Direction → Array (Complex ℝ) → Array (Complex ℝ)) : Prop :=
  ∀ direction a, ∀ k < a.size, amplitude (line direction a) k =
    ∑ j ∈ range a.size, amplitude a j * wave direction a.size (j * k)

theorem exp_mul_I_eq (x : ℝ) : Complex.exp (x * Complex.I) = ⟨Real.cos x, Real.sin x⟩ :=
  Complex.ext_iff.2 ⟨Complex.exp_ofReal_mul_I_re x, Complex.exp_ofReal_mul_I_im x⟩

theorem toPlane_root (m : ℕ) :
    (root direction n m : Complex ℝ).toPlane = wave direction n m := by
  let angle : ℝ := -((2 : ℕ) * Real.pi) / n * m
  have hwave : wave direction n m = Complex.exp (-direction.sign * angle * Complex.I) := by
    rw [wave]
    congr 1
    push_cast [angle]
    ring
  cases direction with
  | forward =>
    rw [hwave, Direction.sign, neg_neg, one_mul, exp_mul_I_eq]
    rfl
  | inverse =>
    rw [hwave, Direction.sign, neg_one_mul, ← Complex.ofReal_neg, exp_mul_I_eq, Real.cos_neg,
      Real.sin_neg]
    rfl

theorem toPlane_foldl {β : Type} (l : List β) (f : β → Complex ℝ) (s : Complex ℝ) :
    (l.foldl (fun sum b => sum + f b) s).toPlane =
      s.toPlane + (l.map fun b => (f b).toPlane).sum := by
  induction l generalizing s with
  | nil => simp
  | cons b l ih =>
    rw [List.foldl_cons, ih, Complex.toPlane_add, List.map_cons, List.sum_cons, add_assoc]

/-- The sum that defines the transform. -/
theorem isFourierTransform_direct : IsFourierTransform direct := by
  intro direction a k hk
  let roots : Array (Complex ℝ) := Array.ofFn fun k : Fin a.size => root direction a.size k
  have hroot (m : ℕ) :
      (roots.getD (m % a.size) Complex.zero).toPlane = wave direction a.size m := by
    have hm : m % a.size < a.size := Nat.mod_lt _ (Nat.zero_lt_of_lt hk)
    rw [← wave_mod, ← toPlane_root]
    simp [roots, hm]
  have hcell : amplitude (direct direction a) k =
      (lineSum roots a.size k fun j => a.getD j Complex.zero).toPlane := by
    simp [amplitude, direct, roots, hk]
  rw [hcell, lineSum, toPlane_foldl, Complex.toPlane_zero, zero_add]
  simp only [Complex.toPlane_mul, hroot]
  rfl

end Fourier

end Aperture
