import Aperture.Imaging.Stride
import Mathlib.Tactic.Common

/-!
# The turns of a walk

What one turn of a walk can do, said once (`Turn`, `turn_of_next?`), and the states that a walk
passes through.

* `after t n` is the walk after `n` turns; a walk that has ended stays where it is.
* `Reached t w` says that the walk along `t` passes through `w`.
* `along_eq_after`: the whole walk is the walk after enough turns, so a property of the start that
  every turn keeps is a property of the whole walk.
-/

namespace Aperture

namespace Walk

variable {R : Type} {t : Track R} {w w' : Walk R}

/-! ## One turn -/

/-- The ways in which a turn can leave a walk behind. -/
inductive Turn (t : Track R) (w : Walk R) : Walk R → Prop
  | interrupt : t.interrupted w.steps = true → Turn t w { w with halt := some .interrupted }
  /-- A leap landed on another cell than the one it started from. -/
  | back : 0 < w.ahead → t.cell w.position ≠ w.lastCell → Turn t w { w.look with ahead := 0 }
  /-- The track is outside the image. -/
  | leave : (w.ahead = 0 ∨ w.lastCell = none) → t.cell w.position = none →
      Turn t w { advance t w.look 1 with lastWrite := none }
  /-- The track is still in the cell written last. -/
  | stay (cell : Nat) : t.cell w.position = some cell → w.lastCell = some cell →
      Turn t w (advance t w.look 1)
  /-- The track enters a cell. -/
  | enter (cell : Nat) (value : R) : w.ahead = 0 → t.cell w.position = some cell →
      w.lastCell ≠ some cell → t.value w.position = some value →
      Turn t w { advance t w.look (guess t w.look) with
        lastWrite := some w.position
        lastCell := some cell
        writes := ⟨w.position, cell, value⟩ :: w.writes }
  | panic (cell : Nat) : w.ahead = 0 → t.cell w.position = some cell →
      w.lastCell ≠ some cell → t.value w.position = none →
      Turn t w { w.look with halt := some .panicked }

theorem turn_react (t : Track R) (w : Walk R) : Turn t w (react t w (t.cell w.position)) := by
  unfold react
  split
  · next h => exact .back h.1 h.2
  · next h =>
    have hback : 0 < w.ahead → t.cell w.position = w.lastCell := fun ha => by
      by_contra hne
      exact h ⟨ha, hne⟩
    cases hfound : t.cell w.position with
    | none =>
      refine .leave ?_ hfound
      rcases Nat.eq_zero_or_pos w.ahead with ha | ha
      · exact .inl ha
      · exact .inr ((hback ha).symm.trans hfound)
    | some cell =>
      by_cases hlast : w.lastCell = some cell
      · have hstep : accept t w.look (some cell) = advance t w.look 1 := if_pos hlast
        rw [hstep]
        exact .stay cell hfound hlast
      · have ha : w.ahead = 0 := by
          by_contra ha
          exact hlast ((hback (Nat.pos_of_ne_zero ha)).symm.trans hfound)
        have hstep : accept t w.look (some cell) = write t w.look cell := if_neg hlast
        rw [hstep]
        cases hvalue : t.value w.position with
        | none =>
          have hlook : t.value w.look.position = none := hvalue
          have hpanic : write t w.look cell = { w.look with halt := some .panicked } := by
            simp only [write, hlook]
          rw [hpanic]
          exact .panic cell ha hfound hlast hvalue
        | some value =>
          have hlook : t.value w.look.position = some value := hvalue
          have henter : write t w.look cell =
              { advance t w.look (guess t w.look) with
                lastWrite := some w.position
                lastCell := some cell
                writes := ⟨w.position, cell, value⟩ :: w.writes } := by
            simp only [write, hlook]
            rfl
          rw [henter]
          exact .enter cell value ha hfound hlast hvalue

theorem next?_eq_none_iff : next? t w = none ↔ w.halt.isSome ∨ t.total ≤ w.position := by
  unfold next?
  split_ifs <;> simp_all

/-- Everything a turn can do, and that it is only made by a walk that has not ended. -/
theorem turn_of_next? (h : next? t w = some w') :
    w.halt = none ∧ w.position < t.total ∧ Turn t w w' := by
  have hgoing : ¬(w.halt.isSome ∨ t.total ≤ w.position) := by
    rw [← next?_eq_none_iff, h]
    simp
  rw [not_or, Option.not_isSome_iff_eq_none, Nat.not_le] at hgoing
  refine ⟨hgoing.1, hgoing.2, ?_⟩
  unfold next? at h
  split_ifs at h with _ hasked
  · obtain rfl := Option.some.inj h
    exact .interrupt hasked
  · obtain rfl := Option.some.inj h
    exact turn_react t w

/-! ## Many turns -/

/-- The walk after `n` turns. -/
def after (t : Track R) : Nat → Walk R
  | 0 => {}
  | n + 1 => (next? t (after t n)).getD (after t n)

/-- The walk along `t` passes through `w`. -/
def Reached (t : Track R) (w : Walk R) : Prop := ∃ n, after t n = w

theorem after_succ_of_next? {n : Nat} (h : next? t (after t n) = some w') :
    after t (n + 1) = w' := by
  show (next? t (after t n)).getD (after t n) = w'
  rw [h]
  rfl

theorem after_succ_of_ended {n : Nat} (h : next? t (after t n) = none) :
    after t (n + 1) = after t n := by
  show (next? t (after t n)).getD (after t n) = after t n
  rw [h]
  rfl

theorem after_of_ended {n : Nat} (h : next? t (after t n) = none) (m : Nat) :
    after t (n + m) = after t n := by
  induction m with
  | zero => rfl
  | succ m ih =>
    rw [← ih] at h
    rw [← Nat.add_assoc, after_succ_of_ended h, ih]

/-- What holds after `n` turns and is kept by every turn holds after any number of further turns. -/
theorem after_induct {P : Walk R → Prop} {n : Nat} (hstart : P (after t n))
    (hturn : ∀ w w', P w → Turn t w w' → P w') (m : Nat) : P (after t (n + m)) := by
  induction m with
  | zero => exact hstart
  | succ m ih =>
    rw [← Nat.add_assoc]
    cases h : next? t (after t (n + m)) with
    | none => rwa [after_succ_of_ended h]
    | some w' =>
      rw [after_succ_of_next? h]
      exact hturn _ _ ih (turn_of_next? h).2.2

theorem reached_start (t : Track R) : Reached t {} := ⟨0, rfl⟩

theorem Reached.next (hw : Reached t w) (h : next? t w = some w') : Reached t w' := by
  obtain ⟨n, rfl⟩ := hw
  exact ⟨n + 1, after_succ_of_next? h⟩

/-- What holds at the start and is kept by every turn holds all along. -/
theorem Reached.induct {P : Walk R → Prop} (hstart : P {})
    (hturn : ∀ w w', Reached t w → P w → next? t w = some w' → P w') (hw : Reached t w) : P w := by
  obtain ⟨n, rfl⟩ := hw
  induction n with
  | zero => exact hstart
  | succ n ih =>
    cases h : next? t (after t n) with
    | none => rwa [after_succ_of_ended h]
    | some w' =>
      rw [after_succ_of_next? h]
      exact hturn _ _ ⟨n, rfl⟩ ih h

theorem reached_run (t : Track R) (w : Walk R) (hw : Reached t w) :
    Reached t (run t w) ∧ next? t (run t w) = none := by
  rw [run]
  split
  · next h => exact ⟨hw, h⟩
  · next w' h => exact reached_run t w' (hw.next h)
termination_by (w.remaining t, w.ahead)
decreasing_by exact next?_decreases (by assumption)

theorem reached_along (t : Track R) : Reached t (along t) :=
  (reached_run t {} (reached_start t)).1

theorem next?_along (t : Track R) : next? t (along t) = none :=
  (reached_run t {} (reached_start t)).2

/-- **The whole walk is the walk after enough turns.** -/
theorem along_eq_after {n : Nat} (h : next? t (after t n) = none) : along t = after t n := by
  obtain ⟨m, hm⟩ := reached_along t
  have hend := next?_along t
  rw [← hm] at hend
  rw [← hm, ← after_of_ended h m, Nat.add_comm, after_of_ended hend n]

/-- How many turns a walk still makes. -/
def turns (t : Track R) (w : Walk R) : Nat :=
  match _h : next? t w with
  | none => 0
  | some w' => turns t w' + 1
termination_by (w.remaining t, w.ahead)
decreasing_by exact next?_decreases _h

theorem turns_of_next? (h : next? t w = some w') : turns t w = turns t w' + 1 := by
  rw [turns]
  split
  · next hnone => exact absurd (hnone.symm.trans h) (by simp)
  · next hsome => rw [Option.some.inj (hsome.symm.trans h)]

/-- A walk that is passed through and ends there is the whole walk. -/
theorem Reached.eq_along (hw : Reached t w) (h : next? t w = none) : w = along t := by
  obtain ⟨n, rfl⟩ := hw
  exact (along_eq_after h).symm

/-- A walk that was halted makes no turn, so a walk whose end is not a halt was never halted. -/
theorem Reached.halt_eq_none (hw : Reached t w) (h : (along t).halt = none) : w.halt = none := by
  by_contra hhalt
  have hend : next? t w = none := next?_eq_none_iff.2 (.inl (Option.isSome_iff_ne_none.2 hhalt))
  exact hhalt (hw.eq_along hend ▸ h)

/-- The whole walk goes on from every state it passes through. -/
theorem Reached.along_eq (hw : Reached t w) :
    ∃ n m, after t n = w ∧ after t (n + m) = along t := by
  obtain ⟨n, hn⟩ := hw
  obtain ⟨m, hm⟩ := reached_along t
  have hend := next?_along t
  rw [← hm] at hend
  exact ⟨n, m, hn, by rw [Nat.add_comm, after_of_ended hend, hm]⟩

end Walk

end Aperture
