import Aperture.Proofs.Walk.Leaps
import Mathlib.Data.Nat.Find

/-!
# The work of a walk

How many steps a walk looks at. Going back makes the position fall, so the position itself bounds
nothing.

* A turn either **accepts** its step or **goes back** from it (`accepted`, `recalled`). Between two
  turns the base never falls, and an accepted step is below the base from then on, so accepted steps
  increase.
* **The charge** (`Charged`). A walk that goes back stands behind a leap, the leap starts at the
  last write, and no earlier turn went back to it. So the starts of the leaps that were walked back
  are a part of the steps that were written.
* `Counters` are the position and the length of the jump that led to it, with subtractions that
  fail below zero; `turn?_counters` says that none of them does.

Main results: `walk_work_is_bounded`.
-/

namespace Aperture

namespace Walk

variable {R : Type} {t : Track R} {w w' : Walk R}

/-! ## Turns that go back -/

/-- A leap landed on another cell than the one it started from. -/
def GoesBack (t : Track R) (w : Walk R) : Prop := 0 < w.ahead ∧ t.cell w.position ≠ w.lastCell

instance (t : Track R) : DecidablePred (GoesBack t) := fun _ => inferInstanceAs (Decidable (_ ∧ _))

/-- The steps that the first `n` turns look at and do not go back from. -/
def accepted (t : Track R) (n : Nat) : List Nat :=
  ((List.range n).filter fun i => ¬GoesBack t (after t i)).map fun i => (after t i).position

/-- The starts of the leaps that the first `n` turns go back to. -/
def recalled (t : Track R) (n : Nat) : List Nat :=
  ((List.range n).filter fun i => GoesBack t (after t i)).map fun i => (after t i).base - 1

theorem accepted_succ_of_goesBack {n : Nat} (h : GoesBack t (after t n)) :
    accepted t (n + 1) = accepted t n := by
  simp [accepted, List.range_succ, List.filter_append, h]

theorem accepted_succ {n : Nat} (h : ¬GoesBack t (after t n)) :
    accepted t (n + 1) = accepted t n ++ [(after t n).position] := by
  simp [accepted, List.range_succ, List.filter_append, h]

theorem recalled_succ_of_goesBack {n : Nat} (h : GoesBack t (after t n)) :
    recalled t (n + 1) = recalled t n ++ [(after t n).base - 1] := by
  simp [recalled, List.range_succ, List.filter_append, h]

theorem recalled_succ {n : Nat} (h : ¬GoesBack t (after t n)) :
    recalled t (n + 1) = recalled t n := by
  simp [recalled, List.range_succ, List.filter_append, h]

theorem length_accepted_add_length_recalled (t : Track R) (n : Nat) :
    (accepted t n).length + (recalled t n).length = n := by
  induction n with
  | zero => rfl
  | succ n ih =>
    by_cases h : GoesBack t (after t n)
    · rw [accepted_succ_of_goesBack h, recalled_succ_of_goesBack h, List.length_append,
        List.length_singleton, ← Nat.add_assoc, ih]
    · rw [accepted_succ h, recalled_succ h, List.length_append, List.length_singleton,
        Nat.add_right_comm, ih]

/-- A turn that does not go back settles its step. -/
theorem Turn.base_of_accepted (hturn : Turn t w w') (hhalt : w'.halt = none)
    (h : ¬GoesBack t w) : w'.base = w.position + 1 := by
  cases hturn with
  | interrupt _ => cases hhalt
  | back ha hne => exact absurd ⟨ha, hne⟩ h
  | panic _ _ _ _ _ => cases hhalt
  | _ => rfl

theorem Turn.base_le (hturn : Turn t w w') : w.base ≤ w'.base := by
  have hadvance (next : Nat) : w.base ≤ (advance t w.look next).base := by
    show w.base ≤ w.base + w.ahead + 1
    omega
  cases hturn with
  | leave _ _ => exact hadvance 1
  | stay _ _ _ => exact hadvance 1
  | enter _ _ _ _ _ _ => exact hadvance (guess t w.look)
  | _ => exact Nat.le_refl _

theorem base_after_le (t : Track R) {m n : Nat} (h : m ≤ n) :
    (after t m).base ≤ (after t n).base := by
  obtain ⟨d, rfl⟩ := Nat.exists_eq_add_of_le h
  exact after_induct (P := fun v => (after t m).base ≤ v.base) (Nat.le_refl _)
    (fun _ _ hbase hturn => Nat.le_trans hbase hturn.base_le) d

/-! ## Counting the turns -/

/-- The first `n` turns are made. -/
def Makes (t : Track R) (n : Nat) : Prop := ∀ i < n, (next? t (after t i)).isSome = true

theorem Makes.turn {n i : Nat} (hn : Makes t n) (hi : i < n) :
    (after t i).halt = none ∧ (after t i).position < t.total ∧
      Turn t (after t i) (after t (i + 1)) := by
  obtain ⟨w, hnext⟩ := Option.isSome_iff_exists.1 (hn i hi)
  rw [after_succ_of_next? hnext]
  exact turn_of_next? hnext

theorem Turn.steps_eq (hquiet : ∀ n, t.interrupted n = false) (hturn : Turn t w w') :
    w'.steps = w.steps + 1 := by
  cases hturn with
  | interrupt hasked => exact absurd hasked (by simp [hquiet])
  | _ => rfl

theorem Makes.steps_eq (hquiet : ∀ n, t.interrupted n = false) {n : Nat} (hn : Makes t n) :
    (after t n).steps = n := by
  induction n with
  | zero => rfl
  | succ n ih =>
    have hbefore : Makes t n := fun i hi => hn i (Nat.lt_succ_of_lt hi)
    rw [(hn.turn (Nat.lt_succ_self n)).2.2.steps_eq hquiet, ih hbefore]

/-- **A walk that is not interrupted makes as many turns as it looks at steps.** -/
theorem makes_steps (hquiet : ∀ n, t.interrupted n = false) :
    Makes t (along t).steps ∧ after t (along t).steps = along t := by
  have hends : ∃ n, next? t (after t n) = none := by
    obtain ⟨n, hn⟩ := reached_along t
    exact ⟨n, hn ▸ next?_along t⟩
  classical
  have hmakes : Makes t (Nat.find hends) := fun i hi =>
    Option.isSome_iff_ne_none.2 (Nat.find_min hends hi)
  have halong := along_eq_after (Nat.find_spec hends)
  have hcount : (along t).steps = Nat.find hends := by rw [halong, hmakes.steps_eq hquiet]
  rw [hcount]
  exact ⟨hmakes, halong.symm⟩

theorem Turn.halt_ne_interrupted (hquiet : ∀ n, t.interrupted n = false) (hturn : Turn t w w')
    (h : w.halt ≠ some .interrupted) : w'.halt ≠ some .interrupted := by
  cases hturn with
  | interrupt hasked => exact absurd hasked (by simp [hquiet])
  | panic _ _ _ _ _ => nofun
  | _ => exact h

theorem Reached.halt_ne_interrupted (hquiet : ∀ n, t.interrupted n = false) (hw : Reached t w) :
    w.halt ≠ some .interrupted :=
  hw.induct (P := fun w => w.halt ≠ some .interrupted) nofun
    fun _ _ _ ih h => (turn_of_next? h).2.2.halt_ne_interrupted hquiet ih

/-! ## Accepted steps -/

/-- A step that is accepted is passed for good. -/
theorem Makes.position_lt {n i j : Nat} (hn : Makes t n) (hij : i < j) (hj : j < n)
    (h : ¬GoesBack t (after t i)) : (after t i).position < (after t j).position := by
  have hi : i + 1 < n := Nat.lt_of_le_of_lt hij hj
  have hbase := (hn.turn (Nat.lt_of_succ_lt hi)).2.2.base_of_accepted (hn.turn hi).1 h
  have hle : (after t (i + 1)).base ≤ (after t j).base := base_after_le t hij
  have hpos : (after t j).base ≤ (after t j).position := Nat.le_add_right _ _
  omega

theorem Makes.pairwise_accepted {n : Nat} (hn : Makes t n) : (accepted t n).Pairwise (· < ·) := by
  rw [accepted, List.pairwise_map]
  refine (List.pairwise_lt_range.filter _).imp_of_mem fun {i j} hi hj hij => ?_
  have hback : ¬GoesBack t (after t i) := by simpa using (List.mem_filter.1 hi).2
  exact hn.position_lt hij (List.mem_range.1 (List.mem_filter.1 hj).1) hback

theorem Makes.lt_total {n k : Nat} (hn : Makes t n) (hk : k ∈ accepted t n) : k < t.total := by
  obtain ⟨i, hi, rfl⟩ := List.mem_map.1 hk
  exact (hn.turn (List.mem_range.1 (List.mem_filter.1 hi).1)).2.1

theorem Makes.length_accepted_le {n : Nat} (hn : Makes t n) :
    (accepted t n).length ≤ t.total := by
  have hsubset : accepted t n ⊆ List.range t.total := fun _ hk => List.mem_range.2 (hn.lt_total hk)
  have hnodup : (accepted t n).Nodup := hn.pairwise_accepted.imp Nat.ne_of_lt
  simpa using (hnodup.subperm hsubset).length_le

/-- Writes are made at accepted steps. -/
theorem Makes.writes_sublist {n : Nat} (hn : Makes t n) :
    ((after t n).writes.reverse.map Write.step).Sublist (accepted t n) := by
  induction n with
  | zero => exact List.Sublist.refl _
  | succ n ih =>
    have hsub := ih fun i hi => hn i (Nat.lt_succ_of_lt hi)
    have hlonger : (accepted t n).Sublist (accepted t (n + 1)) := by
      by_cases h : GoesBack t (after t n)
      · rw [accepted_succ_of_goesBack h]
      · rw [accepted_succ h]
        exact List.sublist_append_left _ _
    have hkept (hwrites : (after t (n + 1)).writes = (after t n).writes) :
        ((after t (n + 1)).writes.reverse.map Write.step).Sublist (accepted t (n + 1)) := by
      rw [hwrites]
      exact hsub.trans hlonger
    have hturn := (hn.turn (Nat.lt_succ_self n)).2.2
    generalize hafter : after t (n + 1) = w' at hturn hkept ⊢
    cases hturn with
    | enter cell value ha _ _ _ =>
      have hback : ¬GoesBack t (after t n) := fun h => absurd ha (Nat.ne_of_gt h.1)
      rw [accepted_succ hback, List.reverse_cons, List.map_append]
      exact hsub.append (List.Sublist.refl _)
    | _ => exact hkept rfl

/-- A walk that has to go back does so, unless it is interrupted. -/
theorem Turn.eq_of_goesBack (hturn : Turn t w w') (hhalt : w'.halt ≠ some .interrupted)
    (h : GoesBack t w) : w' = { w.look with ahead := 0 } := by
  obtain ⟨ha, hne⟩ := h
  cases hturn with
  | interrupt _ => exact absurd rfl hhalt
  | back _ _ => rfl
  | leave hout hfound =>
    rcases hout with hnot | hnone
    · exact absurd hnot (Nat.ne_of_gt ha)
    · exact absurd (hfound.trans hnone.symm) hne
  | stay cell hfound hlast => exact absurd (hfound.trans hlast.symm) hne
  | enter _ _ hnot _ _ _ => exact absurd hnot (Nat.ne_of_gt ha)
  | panic _ hnot _ _ _ => exact absurd hnot (Nat.ne_of_gt ha)

/-- A walk that went back is not at its end. -/
theorem Makes.not_goesBack_of_ended (hquiet : ∀ n, t.interrupted n = false) {n : Nat}
    (hn : Makes t (n + 1)) (hend : next? t (after t (n + 1)) = none) :
    ¬GoesBack t (after t n) := by
  intro hback
  obtain ⟨halive, hin, hturn⟩ := hn.turn (Nat.lt_succ_self n)
  have hgoing := Reached.halt_ne_interrupted hquiet ⟨n + 1, rfl⟩
  rw [hturn.eq_of_goesBack hgoing hback, next?_eq_none_iff] at hend
  rcases hend with hhalt | hpast
  · have hhalted : (after t n).halt.isSome = true := hhalt
    rw [halive] at hhalted
    cases hhalted
  · have hbase : t.total ≤ (after t n).base := hpast
    have hpos : (after t n).base ≤ (after t n).position := Nat.le_add_right _ _
    omega

/-- The last step that is accepted is the last step of the track. -/
theorem getLast?_accepted (hquiet : ∀ n, t.interrupted n = false)
    (hhalt : (along t).halt = none) (hpos : 0 < t.total) :
    (accepted t (along t).steps).getLast? = some (t.total - 1) := by
  obtain ⟨hmakes, hafter⟩ := makes_steps hquiet
  cases hsteps : (along t).steps with
  | zero =>
    rw [hsteps] at hafter
    have hbase := base_along hhalt
    rw [← hafter] at hbase
    exact absurd hbase (Nat.ne_of_lt hpos)
  | succ n =>
    rw [hsteps] at hmakes hafter
    have hback := hmakes.not_goesBack_of_ended hquiet (hafter ▸ next?_along t)
    have hbase := (hmakes.turn (Nat.lt_succ_self n)).2.2.base_of_accepted (hafter ▸ hhalt) hback
    rw [hafter, base_along hhalt] at hbase
    rw [accepted_succ hback, List.getLast?_append, List.getLast?_singleton, Option.some_or, hbase,
      Nat.add_sub_cancel]

/-! ## Charging the walks back -/

/-- After `n` turns, the leaps that were walked back started at writes, each at another one. A walk
behind a leap has its last write left to charge. -/
structure Charged (t : Track R) (n : Nat) (w : Walk R) : Prop where
  recalled : (recalled t n).Sublist (w.writes.reverse.map Write.step)
  leaping : 0 < w.ahead → ∃ e rest, w.writes = e :: rest ∧ w.base = e.step + 1 ∧
    (Walk.recalled t n).Sublist (rest.reverse.map Write.step)

theorem Charged.turn {n : Nat} (hw : Charged t n (after t n)) (hturn : Turn t (after t n) w')
    (hhalt : w'.halt ≠ some .interrupted) : Charged t (n + 1) w' := by
  by_cases hback : GoesBack t (after t n)
  · obtain ⟨e, rest, hwrites, hbase, hsub⟩ := hw.leaping hback.1
    rw [hturn.eq_of_goesBack hhalt hback]
    refine ⟨?_, fun ha => absurd ha (Nat.lt_irrefl 0)⟩
    show (Walk.recalled t (n + 1)).Sublist ((after t n).writes.reverse.map Write.step)
    rw [recalled_succ_of_goesBack hback, hwrites, hbase, List.reverse_cons, List.map_append]
    exact hsub.append (List.Sublist.refl _)
  · have hsub := hw.recalled
    have hone : ¬0 < (advance t (after t n).look 1).ahead := by
      rw [ahead_advance_one]
      exact Nat.lt_irrefl 0
    rw [← recalled_succ hback] at hsub
    cases hturn with
    | interrupt _ => exact absurd rfl hhalt
    | back ha hne => exact absurd ⟨ha, hne⟩ hback
    | leave _ _ => exact ⟨hsub, fun ha => absurd ha hone⟩
    | stay _ _ _ => exact ⟨hsub, fun ha => absurd ha hone⟩
    | enter cell value ha _ _ _ =>
      refine ⟨?_, fun _ => ⟨_, _, rfl, rfl, hsub⟩⟩
      rw [List.reverse_cons, List.map_append]
      exact hsub.trans (List.sublist_append_left _ _)
    | panic _ ha _ _ _ => exact ⟨hsub, fun hahead => absurd ha (Nat.ne_of_gt hahead)⟩

theorem Makes.charged (hquiet : ∀ n, t.interrupted n = false) {n : Nat} (hn : Makes t n) :
    Charged t n (after t n) := by
  induction n with
  | zero => exact ⟨List.Sublist.refl _, fun ha => absurd ha (Nat.lt_irrefl 0)⟩
  | succ n ih =>
    have hw := ih fun i hi => hn i (Nat.lt_succ_of_lt hi)
    exact hw.turn (hn.turn (Nat.lt_succ_self n)).2.2
      (Reached.halt_ne_interrupted hquiet ⟨n + 1, rfl⟩)

/-! ## The walk in counters -/

/-- Subtraction that fails where it would pass below zero. -/
def minus? (a b : Nat) : Option Nat := if b ≤ a then some (a - b) else none

theorem minus?_of_le {a b : Nat} (h : b ≤ a) : minus? a b = some (a - b) := if_pos h

/-- The step to look at, the length of the jump that led to it, and the last write. -/
structure Counters where
  step : Nat
  jump : Nat
  lastWrite : Option Nat
  lastCell : Option Nat

namespace Counters

/-- Jump `next` steps further, at least one and not past the last step. -/
def goOn? (t : Track R) (c : Counters) (next : Nat) : Option Counters := do
  let last ← minus? t.total 1
  let room ← minus? last c.step
  let jump := max 1 (min next room)
  some { c with step := c.step + jump, jump }

/-- How far to jump after a write: to the last step of the new cell if it is as long as the one
before. -/
def stride? (t : Track R) (c : Counters) : Option Nat :=
  match t.adaptive, c.lastWrite with
  | true, some previous => (minus? c.step previous).map fun length => max 1 (length - 1)
  | _, _ => some 1

/-- One turn in counters, `none` when a subtraction in it would pass below zero. -/
def turn? (t : Track R) (c : Counters) : Option Counters :=
  let found := t.cell c.step
  if 1 < c.jump ∧ found ≠ c.lastCell then do
    let excess ← minus? c.jump 1
    let step ← minus? c.step excess
    some { c with step, jump := 1 }
  else
    match found with
    | none => goOn? t { c with lastWrite := none } 1
    | some cell =>
      if c.lastCell = some cell then goOn? t c 1
      else do
        let next ← stride? t c
        goOn? t { c with lastWrite := some c.step, lastCell := some cell } next

end Counters

/-- The counters of a walk. -/
def counters (w : Walk R) : Counters := ⟨w.position, w.ahead + 1, w.lastWrite, w.lastCell⟩

/-- The last write is behind the base. -/
theorem Reached.lastWrite_lt (hw : Reached t w) {previous : Nat}
    (h : w.lastWrite = some previous) : previous < w.base := by
  refine hw.induct (P := fun w => w.lastWrite = some previous → previous < w.base) nofun ?_ h
  intro w w' _ ih h hlast
  have hturn := (turn_of_next? h).2.2
  have hbase := hturn.base_le
  cases hturn with
  | leave _ _ => cases hlast
  | enter _ _ _ _ _ _ =>
    obtain rfl := Option.some.inj hlast
    exact Nat.lt_succ_self w.position
  | _ => exact Nat.lt_of_lt_of_le (ih hlast) hbase

theorem goOn?_advance (hin : w.position < t.total) (next : Nat) (lastWrite lastCell : Option Nat) :
    Counters.goOn? t ⟨w.position, w.ahead + 1, lastWrite, lastCell⟩ next =
      some ⟨(advance t w next).position, (advance t w next).ahead + 1, lastWrite, lastCell⟩ := by
  have hroom : w.position ≤ t.total - 1 := by omega
  simp only [Counters.goOn?, minus?_of_le (Nat.one_le_of_lt hin), minus?_of_le hroom,
    Option.bind_eq_bind, Option.bind_some]
  simp only [advance, position]
  congr 2 <;> omega

theorem stride?_counters (hlast : ∀ previous, w.lastWrite = some previous → previous < w.base) :
    w.counters.stride? t = some (guess t w) := by
  simp only [Counters.stride?, guess, counters]
  cases t.adaptive with
  | false => rfl
  | true =>
    cases hprevious : w.lastWrite with
    | none => rfl
    | some previous =>
      have hle : previous ≤ w.position :=
        Nat.le_trans (Nat.le_of_lt (hlast previous hprevious)) (Nat.le_add_right _ _)
      simp only [minus?_of_le hle, Option.map_some]

/-- A turn in counters that does not go back. -/
theorem turn?_of_not_goesBack (h : ¬GoesBack t w) :
    w.counters.turn? t =
      match t.cell w.position with
      | none => Counters.goOn? t { w.counters with lastWrite := none } 1
      | some cell =>
        if w.lastCell = some cell then Counters.goOn? t w.counters 1
        else (w.counters.stride? t).bind (Counters.goOn? t
          { w.counters with lastWrite := some w.position, lastCell := some cell }) :=
  if_neg fun hback => h ⟨Nat.lt_of_succ_lt_succ hback.1, hback.2⟩

theorem turn?_of_goesBack (h : GoesBack t w) :
    w.counters.turn? t = some { w.look with ahead := 0 }.counters := by
  have hback : 1 < w.counters.jump ∧ t.cell w.counters.step ≠ w.counters.lastCell :=
    ⟨Nat.succ_lt_succ h.1, h.2⟩
  have hjump : minus? w.counters.jump 1 = some w.ahead := minus?_of_le (Nat.succ_pos w.ahead)
  have hstep : minus? w.counters.step w.ahead = some w.base := by
    show minus? (w.base + w.ahead) w.ahead = some w.base
    rw [minus?_of_le (Nat.le_add_left _ _), Nat.add_sub_cancel]
  simp only [Counters.turn?, if_pos hback, hjump, hstep, Option.bind_eq_bind, Option.bind_some]
  rfl

/-- **In counters, no subtraction passes below zero.** -/
theorem turn?_counters (hw : Reached t w) (h : next? t w = some w') (hhalt : w'.halt = none) :
    w.counters.turn? t = some w'.counters := by
  obtain ⟨-, hin, hturn⟩ := turn_of_next? h
  by_cases hback : GoesBack t w
  · rw [hturn.eq_of_goesBack (by simp [hhalt]) hback, turn?_of_goesBack hback]
  · rw [turn?_of_not_goesBack hback]
    cases hturn with
    | interrupt _ => cases hhalt
    | panic _ _ _ _ _ => cases hhalt
    | back ha hne => exact absurd ⟨ha, hne⟩ hback
    | leave _ hfound =>
      simp only [hfound]
      exact goOn?_advance hin 1 none w.lastCell
    | stay cell hfound hlast =>
      simp only [hfound, hlast, if_true]
      exact goOn?_advance hin 1 w.lastWrite w.lastCell
    | enter cell value ha hfound hlast hvalue =>
      simp only [hfound, if_neg hlast, stride?_counters fun _ => hw.lastWrite_lt, Option.bind_some]
      exact goOn?_advance hin _ (some w.position) (some cell)

/-! ## The bound -/

/-- **The work of a walk is bounded.** A walk that is not interrupted, with leaps or without:

* It ends, after as many turns as it looks at steps.
* Its turns are those in counters, in which no subtraction passes below zero.
* The steps that it accepts increase and are steps of the track, and its writes are made at some of
  them. The last one is the last step of the track, unless a value could not be computed.
* The starts of the leaps that it walks back are a part of the steps that it writes, and every turn
  either accepts or goes back. So it looks at no more steps than there are, and one for each write.
* Without leaps it looks at every step once. -/
theorem walk_work_is_bounded (t : Track R) (hquiet : ∀ n, t.interrupted n = false) :
    (after t (along t).steps = along t ∧ next? t (along t) = none) ∧
    (∀ w w', Reached t w → next? t w = some w' → w'.halt = none →
      w.counters.turn? t = some w'.counters) ∧
    ((accepted t (along t).steps).Pairwise (· < ·) ∧
      (∀ k ∈ accepted t (along t).steps, k < t.total) ∧
      ((along t).writes.reverse.map Write.step).Sublist (accepted t (along t).steps) ∧
      ((along t).isPanicked = false → 0 < t.total →
        (accepted t (along t).steps).getLast? = some (t.total - 1))) ∧
    ((∀ k < t.total, t.value k ≠ none) → (along t).isPanicked = false) ∧
    (along t).writes.length ≤ t.total ∧
    (t.adaptive = false → (along t).isPanicked = false → (along t).steps = t.total) ∧
    (recalled t (along t).steps).Sublist ((along t).writes.reverse.map Write.step) ∧
    (accepted t (along t).steps).length + (recalled t (along t).steps).length = (along t).steps ∧
    (along t).steps ≤ t.total + (along t).writes.length := by
  obtain ⟨hmakes, hafter⟩ := makes_steps hquiet
  have hhalt (hpanic : (along t).isPanicked = false) : (along t).halt = none := by
    have hgoing := (reached_along t).halt_ne_interrupted hquiet
    cases h : (along t).halt with
    | none => rfl
    | some halt =>
      cases halt with
      | interrupted => exact absurd h hgoing
      | panicked => simp [isPanicked, h] at hpanic
  have hlength := length_accepted_add_length_recalled t (along t).steps
  have hsteps := hmakes.length_accepted_le
  have hwritten := hmakes.writes_sublist
  have hcharged := (hmakes.charged hquiet).recalled
  rw [hafter] at hwritten hcharged
  have hwrites := hwritten.length_le
  have hback := hcharged.length_le
  simp only [List.length_map, List.length_reverse] at hwrites hback
  refine ⟨⟨hafter, next?_along t⟩, fun _ _ => turn?_counters,
    ⟨hmakes.pairwise_accepted, fun _ => hmakes.lt_total, hwritten, fun hpanic =>
      getLast?_accepted hquiet (hhalt hpanic)⟩, fun hvalues => ?_, by omega,
    fun hstep hpanic => (along_thorough hstep (hhalt hpanic)).steps, hcharged, hlength, by omega⟩
  by_contra hpanic
  obtain ⟨k, hk, -, -, hnone⟩ := (reached_along t).exists_panic (by simpa [isPanicked] using hpanic)
  exact hvalues k hk hnone

/-- A track whose third cell is shorter than the second, so that the leap over the second one lands
in the third. -/
def narrowing : Track Binary64 where
  total := 8
  adaptive := true
  cell k := [0, 0, 0, 1, 1, 2, 2, 2][k]?
  value _ := some Scalar.one
  interrupted _ := false

theorem along_narrowing : along narrowing = after narrowing 9 := along_eq_after rfl

/-- The leap from step `3` lands on step `5` and is walked back. -/
theorem walk_work_is_bounded_narrowing :
    (∀ n, narrowing.interrupted n = false) ∧ (along narrowing).steps = 9 ∧
    (along narrowing).marks = [(5, 2), (3, 1), (0, 0)] ∧
    accepted narrowing 9 = [0, 1, 2, 3, 4, 5, 6, 7] ∧ recalled narrowing 9 = [3] ∧
    (accepted narrowing 9).getLast? = some 7 ∧
    (along narrowing).steps ≤ narrowing.total + (along narrowing).writes.length := by
  have hquiet : ∀ n, narrowing.interrupted n = false := fun _ => rfl
  have hsteps : (along narrowing).steps = 9 := by
    rw [along_narrowing]
    rfl
  obtain ⟨-, -, ⟨-, -, -, hlast⟩, -, -, -, -, -, hbound⟩ := walk_work_is_bounded narrowing hquiet
  rw [hsteps] at hlast
  refine ⟨hquiet, hsteps, ?_, by decide, by decide, hlast ?_ (by decide), hbound⟩
  · rw [along_narrowing]
    rfl
  · rw [along_narrowing]
    rfl

end Walk

end Aperture
