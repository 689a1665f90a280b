/-!
# Powers of ten

`power n` is the value of place `n` of a decimal, counted from zero at the right.
-/

namespace Aperture.Decimal

/-- Ten to the `n`. -/
def power (n : Nat) : Nat := Nat.pow 10 n

@[simp] theorem power_zero : power 0 = 1 := rfl

theorem power_succ (n : Nat) : power (n + 1) = 10 * power n :=
  Nat.mul_comm _ _

theorem power_pos (n : Nat) : 0 < power n := by
  induction n with
  | zero => decide
  | succ n ih =>
    rw [power_succ]
    omega

end Aperture.Decimal
