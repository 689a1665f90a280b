import Aperture.Failure
import Aperture.Scalar

/-!
# Extents

How large an image is. Its cells are counted in a machine word, and they have to fit into the memory
that can be addressed: eight bytes for each cell, in one half of the addresses. Counting is checked:
a count that is too large for its word does not wrap but is a fault, and so is an image that is too
large for the memory.
-/

namespace Aperture

open Scalar

/-- A number that is held in a machine word. -/
def inWord (n : Nat) : Result Nat := if n < UInt64.size then .ok n else abort .overflow

theorem inWord_eq_ok_iff {n m : Nat} : inWord n = .ok m ↔ n < UInt64.size ∧ n = m := by
  unfold inWord
  split
  · next h => simp [h]
  · next h => simp [h, abort]

/-- The computation answers unless a number or an image is too large. -/
def FailsOnOverflow {α : Type} (x : Result α) : Prop := ∀ e, x = .error e → e = .fault .overflow

namespace FailsOnOverflow

variable {α β σ : Type}

theorem ok (a : α) : FailsOnOverflow (.ok a) := fun _ h => by cases h

theorem overflow : FailsOnOverflow (abort .overflow : Result α) :=
  fun _ h => (Except.error.inj h).symm

theorem ite {p : Prop} [Decidable p] {x y : Result α} (hx : FailsOnOverflow x)
    (hy : FailsOnOverflow y) : FailsOnOverflow (if p then x else y) := by
  split
  · exact hx
  · exact hy

theorem bind {x : Result α} {f : α → Result β} (hx : FailsOnOverflow x)
    (hf : ∀ a, FailsOnOverflow (f a)) : FailsOnOverflow (x >>= f) := by
  intro e h
  rcases bind_eq_error_iff.1 h with h | ⟨a, -, h⟩
  · exact hx e h
  · exact hf a e h

theorem map {x : Result α} (hx : FailsOnOverflow x) (f : α → β) : FailsOnOverflow (x.map f) := by
  intro e h
  cases x with
  | ok a => cases h
  | error d =>
    obtain rfl := Except.error.inj h
    exact hx d rfl

theorem foldlM {f : σ → α → Result σ} (h : ∀ s a, FailsOnOverflow (f s a)) (l : List α) (s : σ) :
    FailsOnOverflow (l.foldlM f s) := by
  induction l generalizing s with
  | nil => exact .ok s
  | cons a l ih => exact (h s a).bind ih

theorem mapM {f : α → Result β} {l : List α} (h : ∀ a ∈ l, FailsOnOverflow (f a)) :
    FailsOnOverflow (l.mapM f) := by
  induction l with
  | nil => exact .ok []
  | cons a l ih =>
    rw [List.mapM_cons]
    exact (h a List.mem_cons_self).bind fun _ =>
      (ih fun b hb => h b (List.mem_cons_of_mem _ hb)).bind fun _ => .ok _

end FailsOnOverflow

theorem failsOnOverflow_inWord (n : Nat) : FailsOnOverflow (inWord n) := .ite (.ok n) .overflow

namespace Extent

/-- An image has fewer cells than this. -/
def limit : Nat := 1152921504606846976

/-- The number of cells of an image. -/
def cells (width height : Nat) : Result Nat := inWord (width * height)

/-- The cells of an image fit into the memory. -/
def Fits (width height : Nat) : Prop := width * height < limit

instance (width height : Nat) : Decidable (Fits width height) :=
  inferInstanceAs (Decidable (width * height < limit))

theorem limit_lt_word : limit < UInt64.size := by decide

theorem cells_of_fits {width height : Nat} (h : Fits width height) :
    cells width height = .ok (width * height) :=
  inWord_eq_ok_iff.2 ⟨Nat.lt_trans h limit_lt_word, rfl⟩

variable {R : Type} [Scalar R]

/-- An image of zeros. -/
def zeros (width height : Nat) : Result (Array R) := do
  let size ← cells width height
  if size < limit then .ok (Array.replicate size zero) else abort .overflow

theorem zeros_of_fits {width height : Nat} (h : Fits width height) :
    (zeros width height : Result (Array R)) = .ok (Array.replicate (width * height) zero) := by
  simp only [zeros, cells_of_fits h, bind, Except.bind]
  exact if_pos h

theorem zeros_of_not_fits {width height : Nat} (h : ¬Fits width height) :
    (zeros width height : Result (Array R)) = abort .overflow := by
  unfold zeros cells inWord
  split
  · exact if_neg h
  · rfl

theorem failsOnOverflow_zeros (width height : Nat) :
    FailsOnOverflow (zeros width height : Result (Array R)) :=
  (failsOnOverflow_inWord _).bind fun _ => .ite (.ok _) .overflow

end Extent

end Aperture
