import Aperture.Proofs.Walk.Work

/-!
# Interrupted walks

A walk asks its flag once a turn, before it looks at its position, and the answers may come and go.

* `Track.quiet` is the same track under a flag that is never set. A turn whose question was answered
  in the negative is a turn along the quiet track (`next?_quiet`).
* The walk along the quiet track looks at one step a turn, so the `n`-th question is asked in the
  state after `n` turns (`after_quiet`).

Main result: `along_cases`. Either no question of the walk along the quiet track was answered in the
affirmative, and both walks are the same, or the walk stops in the state of the quiet one in which
this happened first. `along_of_set` is the case of a flag that was set from the start.
-/

namespace Aperture

namespace Walk

variable {R : Type} {t : Track R} {w : Walk R}

/-! ## One turn -/

theorem next?_quiet (h : t.interrupted w.steps = false) : next? t w = next? t.quiet w := by
  simp only [next?, h]
  rfl

/-- Whether a walk has ended does not depend on the flag. -/
theorem next?_quiet_eq_none_iff : next? t.quiet w = none ↔ next? t w = none := by
  rw [next?_eq_none_iff, next?_eq_none_iff]
  rfl

theorem next?_of_interrupted (hgoing : next? t w ≠ none) (h : t.interrupted w.steps = true) :
    next? t w = some { w with halt := some .interrupted } := by
  rw [ne_eq, next?_eq_none_iff] at hgoing
  rw [next?, if_neg hgoing, if_pos h]

/-- As long as a walk goes on, it is the one along the quiet track. -/
theorem Reached.quiet (hw : Reached t w) (halive : w.halt = none) : Reached t.quiet w := by
  refine hw.induct (P := fun w => w.halt = none → Reached t.quiet w) (fun _ => reached_start _) ?_
    halive
  intro w w' _ ih hnext halive'
  have hgoing : next? t w ≠ none := by simp [hnext]
  refine (ih (turn_of_next? hnext).1).next ?_
  cases hasked : t.interrupted w.steps with
  | false => rw [← next?_quiet hasked, hnext]
  | true =>
    obtain rfl := Option.some.inj (hnext.symm.trans (next?_of_interrupted hgoing hasked))
    cases halive'

/-! ## Many turns -/

/-- A walk that still goes on has made all its turns. -/
theorem makes_of_going {n : Nat} (h : next? t (after t n) ≠ none) : Makes t n := by
  intro i hi
  by_contra hended
  rw [Option.not_isSome_iff_eq_none] at hended
  obtain ⟨d, rfl⟩ := Nat.exists_eq_add_of_lt hi
  rw [Nat.add_assoc, after_of_ended hended] at h
  exact h hended

/-- As long as no question was answered in the affirmative, a walk is the one along the quiet
track. -/
theorem after_quiet {n : Nat} (h : ∀ i < n, t.interrupted i = false) :
    after t n = after t.quiet n := by
  induction n with
  | zero => rfl
  | succ n ih =>
    have hsame := ih fun i hi => h i (Nat.lt_succ_of_lt hi)
    cases hnext : next? t.quiet (after t.quiet n) with
    | none =>
      have hended : next? t (after t n) = none := by
        rw [hsame, ← next?_quiet_eq_none_iff, hnext]
      rw [after_succ_of_ended hnext, after_succ_of_ended hended, hsame]
    | some w' =>
      have hsteps : (after t.quiet n).steps = n :=
        (makes_of_going (by simp [hnext])).steps_eq fun _ => rfl
      have hasked : t.interrupted (after t n).steps = false := by
        rw [hsame, hsteps]
        exact h n (Nat.lt_succ_self n)
      rw [after_succ_of_next? hnext, after_succ_of_next?]
      rw [next?_quiet hasked, hsame, hnext]

/-! ## The whole walk -/

/-- The walk is interrupted at its `n`-th question. -/
def InterruptedAt (t : Track R) (n : Nat) : Prop :=
  n < (along t.quiet).steps ∧ t.interrupted n = true ∧ ∀ i < n, t.interrupted i = false

theorem along_of_unset (h : ∀ i < (along t.quiet).steps, t.interrupted i = false) :
    along t = along t.quiet := by
  have hafter := (makes_steps (t := t.quiet) fun _ => rfl).2
  have hsame := (after_quiet h).trans hafter
  refine (along_eq_after ?_).trans hsame
  rw [hsame, ← next?_quiet_eq_none_iff]
  exact next?_along t.quiet

/-- The walk along the quiet track goes on where the walk is interrupted. -/
theorem InterruptedAt.going {n : Nat} (h : InterruptedAt t n) :
    next? t.quiet (after t.quiet n) ≠ none :=
  Option.isSome_iff_ne_none.1 ((makes_steps fun _ => rfl).1 n h.1)

theorem InterruptedAt.steps_after {n : Nat} (h : InterruptedAt t n) :
    (after t.quiet n).steps = n := (makes_of_going h.going).steps_eq fun _ => rfl

theorem InterruptedAt.along_eq {n : Nat} (h : InterruptedAt t n) :
    along t = { after t.quiet n with halt := some .interrupted } := by
  have hsame := after_quiet h.2.2
  have hgoing : next? t (after t n) ≠ none := by
    rw [hsame, ne_eq, ← next?_quiet_eq_none_iff]
    exact h.going
  have hnext := next?_of_interrupted hgoing (by rw [hsame, h.steps_after, h.2.1])
  have hafter : after t (n + 1) = { after t.quiet n with halt := some .interrupted } := by
    rw [after_succ_of_next? hnext, hsame]
  refine (along_eq_after ?_).trans hafter
  rw [hafter]
  exact next?_eq_none_iff.2 (.inl rfl)

theorem InterruptedAt.steps_eq {n : Nat} (h : InterruptedAt t n) : (along t).steps = n := by
  rw [h.along_eq]
  exact h.steps_after

/-- **How an interrupted walk ends.** -/
theorem along_cases (t : Track R) :
    ((∀ i < (along t.quiet).steps, t.interrupted i = false) ∧ along t = along t.quiet) ∨
      ∃ n, InterruptedAt t n := by
  by_cases hset : ∃ n, n < (along t.quiet).steps ∧ t.interrupted n = true
  · classical
    refine .inr ⟨Nat.find hset, (Nat.find_spec hset).1, (Nat.find_spec hset).2, fun i hi => ?_⟩
    have hmin := Nat.find_min hset hi
    have hlt := Nat.lt_trans hi (Nat.find_spec hset).1
    simpa [hlt] using hmin
  · have hunset : ∀ i < (along t.quiet).steps, t.interrupted i = false := by
      intro i hi
      by_contra htrue
      exact hset ⟨i, hi, by simpa using htrue⟩
    exact .inl ⟨hunset, along_of_unset hunset⟩

theorem InterruptedAt.isInterrupted {n : Nat} (h : InterruptedAt t n) :
    (along t).isInterrupted = true := by
  rw [h.along_eq]
  rfl

theorem isInterrupted_along_quiet (t : Track R) : (along t.quiet).isInterrupted = false := by
  have hgoing := (reached_along t.quiet).halt_ne_interrupted fun _ => rfl
  rw [isInterrupted, beq_eq_false_iff_ne]
  exact hgoing

theorem isInterrupted_along_iff : (along t).isInterrupted = true ↔ ∃ n, InterruptedAt t n := by
  refine ⟨fun h => ?_, fun ⟨n, hn⟩ => hn.isInterrupted⟩
  rcases along_cases t with ⟨-, hsame⟩ | hn
  · rw [hsame, isInterrupted_along_quiet] at h
    cases h
  · exact hn

/-- The questions of an interrupted walk are the first ones of the quiet one. -/
theorem isInterrupted_along_iff_exists_lt :
    (along t).isInterrupted = true ↔ ∃ n < (along t.quiet).steps, t.interrupted n = true := by
  rw [isInterrupted_along_iff]
  refine ⟨fun ⟨n, hn, hset, _⟩ => ⟨n, hn, hset⟩, fun ⟨n, hn, hset⟩ => ?_⟩
  rcases along_cases t with ⟨hunset, -⟩ | hfirst
  · rw [hunset n hn] at hset
    cases hset
  · exact hfirst

theorem along_of_isInterrupted (h : (along t).isInterrupted = false) : along t = along t.quiet := by
  rcases along_cases t with ⟨-, hsame⟩ | ⟨n, hn⟩
  · exact hsame
  · rw [hn.isInterrupted] at h
    cases h

/-- An interrupted walk has looked at fewer steps. -/
theorem steps_along_le (t : Track R) : (along t).steps ≤ (along t.quiet).steps := by
  rcases along_cases t with ⟨-, hsame⟩ | ⟨n, hn⟩
  · exact Nat.le_of_eq (congrArg Walk.steps hsame)
  · exact hn.steps_eq ▸ Nat.le_of_lt hn.1

/-- **What an interrupted walk has written, the quiet one writes first.** -/
theorem writes_along_suffix (t : Track R) : (along t).writes <:+ (along t.quiet).writes := by
  rcases along_cases t with ⟨-, hsame⟩ | ⟨n, hn⟩
  · exact hsame ▸ List.suffix_refl _
  · have hreached : Reached t.quiet (after t.quiet n) := ⟨n, rfl⟩
    rw [hn.along_eq]
    exact hreached.writes_suffix

/-- The head of a turn at which the flag is asked, and found set. -/
def FindsSet (t : Track R) (w : Walk R) : Prop :=
  w.halt = none ∧ w.position < t.total ∧ t.interrupted w.steps = true

/-- **A walk is interrupted exactly when one of its questions is answered in the affirmative.** -/
theorem isInterrupted_along_iff_findsSet :
    (along t).isInterrupted = true ↔ ∃ w, Reached t w ∧ FindsSet t w := by
  constructor
  · intro h
    obtain ⟨n, hn⟩ := isInterrupted_along_iff.1 h
    obtain ⟨halive, hin, -⟩ := (makes_steps (t := t.quiet) fun _ => rfl).1.turn hn.1
    refine ⟨after t n, ⟨n, rfl⟩, ?_⟩
    rw [after_quiet hn.2.2]
    exact ⟨halive, hin, hn.steps_after.symm ▸ hn.2.1⟩
  · rintro ⟨w, hw, halive, hin, hset⟩
    have hgoing : next? t w ≠ none := by
      rw [ne_eq, next?_eq_none_iff, halive]
      simpa using hin
    have hstop := hw.next (next?_of_interrupted hgoing hset)
    rw [← hstop.eq_along (next?_eq_none_iff.2 (.inl rfl))]
    rfl

/-- **A walk whose flag was set beforehand** looks at nothing; if it has no steps, it does not even
ask. -/
theorem along_of_set (hset : t.interrupted 0 = true) :
    along t = { halt := if 0 < t.total then some .interrupted else none } := by
  split_ifs with hpos
  · have hgoing : next? t {} ≠ none := by
      rw [ne_eq, next?_eq_none_iff]
      simpa [position] using Nat.ne_of_gt hpos
    have hstop := (reached_start t).next (next?_of_interrupted hgoing hset)
    exact (hstop.eq_along (next?_eq_none_iff.2 (.inl rfl))).symm
  · have hended : next? t {} = none := next?_eq_none_iff.2 (.inr (Nat.not_lt.1 hpos))
    exact ((reached_start t).eq_along hended).symm

end Walk

end Aperture
