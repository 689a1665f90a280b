import Aperture.Proofs.Walk.Interrupts

/-!
# Walks along limited tracks

A cell of a limited track has room for so many values, and a walk panics at a step whose cell is
full. Whether it is full is told by the walk along the quiet track, which takes the values of the
steps before.

* `Ascending`: a walk writes at increasing steps, all of them settled. So what the quiet walk takes
  before a step is what a walk has taken when it comes there (`takenBefore_eq`).
* `value_limited`: the limit takes a value away exactly if its cell is full, so no cell takes more
  than it has room for (`Reached.taken_le`).
* `along_limited`: a walk that does not panic is the one along the track without the limit.
-/

namespace Aperture

namespace Walk

variable {R : Type} {t : Track R} {room : Option Nat} {w w' : Walk R}

theorem value_of_limited {k : Nat} {x : R} (h : (t.limited room).value k = some x) :
    t.value k = some x := by
  simp only [Track.limited] at h
  split at h
  · exact h
  · cases h

/-- The limit changes nothing of what a walk does but a panic. -/
theorem react_limited (t : Track R) (room : Option Nat) (w : Walk R) (found : Option Nat) :
    react (t.limited room) w found = react t w found ∨
      (react (t.limited room) w found).halt = some .panicked := by
  unfold react accept
  split
  · exact .inl rfl
  · split
    · exact .inl rfl
    · split
      · exact .inl rfl
      · cases hvalue : (t.limited room).value w.look.position with
        | none =>
          right
          simp only [write, hvalue]
        | some x =>
          left
          simp only [write, hvalue, value_of_limited hvalue]
          rfl

theorem next?_of_limited (h : next? (t.limited room) w = some w')
    (hwell : w'.halt ≠ some .panicked) : next? t w = some w' := by
  have hsame : next? (t.limited room) w =
      if w.halt.isSome ∨ t.total ≤ w.position then none
      else if t.interrupted w.steps then some { w with halt := some .interrupted }
      else some (react (t.limited room) w (t.cell w.position)) := rfl
  rw [hsame] at h
  unfold next?
  split_ifs at h ⊢
  · exact h
  · obtain rfl := Option.some.inj h
    rcases react_limited t room w (t.cell w.position) with hreact | hpanic
    · rw [hreact]
    · exact absurd hpanic hwell

/-! ## Many turns -/

/-- As long as a walk does not panic, it is the one along the track without the limit. -/
theorem Reached.of_limited (hw : Reached (t.limited room) w) (hwell : w.halt ≠ some .panicked) :
    Reached t w := by
  refine hw.induct (P := fun w => w.halt ≠ some .panicked → Reached t w)
    (fun _ => reached_start t) (fun w w' _ ih hnext hwell' => ?_) hwell
  have halive := (turn_of_next? hnext).1
  exact (ih (by simp [halive])).next (next?_of_limited hnext hwell')

/-- A walk writes at increasing steps, all of which are settled. -/
structure Ascending (w : Walk R) : Prop where
  steps : w.writes.Pairwise fun later earlier => earlier.step < later.step
  below : ∀ e ∈ w.writes, e.step < w.base
  length_le : w.writes.length ≤ w.base

theorem Ascending.turn (hw : w.Ascending) (hturn : Turn t w w') : w'.Ascending := by
  have hsame (hwrites : w'.writes = w.writes) : w'.Ascending := by
    have hbase := hturn.base_le
    refine ⟨hwrites ▸ hw.steps, fun e he => ?_, ?_⟩
    · exact Nat.lt_of_lt_of_le (hw.below e (hwrites ▸ he)) hbase
    · exact Nat.le_trans (hwrites ▸ hw.length_le) hbase
  cases hturn with
  | enter cell value ha _ _ _ =>
    have hpos := position_of_not_ahead ha
    refine ⟨?_, fun e he => ?_, ?_⟩
    · refine List.pairwise_cons.2 ⟨fun e he => ?_, hw.steps⟩
      exact hpos ▸ hw.below e he
    · show e.step < w.position + 1
      rcases List.mem_cons.1 he with rfl | he
      · exact Nat.lt_succ_self _
      · exact Nat.lt_succ_of_lt (hpos ▸ hw.below e he)
    · show w.writes.length + 1 ≤ w.position + 1
      exact Nat.succ_le_succ (hpos ▸ hw.length_le)
  | _ => exact hsame rfl

theorem Reached.ascending (hw : Reached t w) : w.Ascending :=
  hw.induct (P := Ascending) ⟨.nil, fun _ he => (nomatch he), Nat.le_refl 0⟩
    fun _ _ _ ih hnext => ih.turn (turn_of_next? hnext).2.2

/-- What a walk writes later is not written below the steps that are settled now. -/
theorem Reached.exists_newer (hw : Reached t w) : ∃ newer,
    (along t).writes = newer ++ w.writes ∧ ∀ e ∈ newer, w.base ≤ e.step := by
  obtain ⟨n, m, rfl, hm⟩ := hw.along_eq
  have hlater := after_induct (t := t) (n := n) (P := fun v => (after t n).base ≤ v.base ∧
    ∃ newer, v.writes = newer ++ (after t n).writes ∧ ∀ e ∈ newer, (after t n).base ≤ e.step)
    ⟨Nat.le_refl _, [], rfl, fun _ he => nomatch he⟩ (fun v v' ih hturn => ?_) m
  · rw [hm] at hlater
    exact hlater.2
  · obtain ⟨hbase, newer, hwrites, hnewer⟩ := ih
    refine ⟨Nat.le_trans hbase hturn.base_le, ?_⟩
    cases hturn with
    | enter cell value _ _ _ _ =>
      refine ⟨⟨v.position, cell, value⟩ :: newer, ?_, ?_⟩
      · rw [hwrites]
        rfl
      · refine List.forall_mem_cons.2 ⟨?_, hnewer⟩
        exact Nat.le_trans hbase (Nat.le_add_right _ _)
    | _ => exact ⟨newer, hwrites, hnewer⟩

/-- **What is taken before the steps that are not settled is what was taken so far.** -/
theorem takenBefore_eq (hw : Reached t.quiet w) (cell : Nat) :
    t.takenBefore cell w.base = w.taken cell := by
  obtain ⟨newer, hwrites, hnewer⟩ := hw.exists_newer
  have hnone : newer.countP (fun e => e.cell == cell && decide (e.step < w.base)) = 0 := by
    refine List.countP_eq_zero.2 fun e he => ?_
    simp [Nat.not_lt.2 (hnewer e he)]
  have hsame : w.writes.countP (fun e => e.cell == cell && decide (e.step < w.base)) =
      w.taken cell := by
    refine List.countP_congr fun e he => ?_
    simp [hw.ascending.below e he]
  rw [Track.takenBefore, hwrites, List.countP_append, hnone, hsame, Nat.zero_add]

/-- **The limit takes a value away exactly if its cell is full.** -/
theorem value_limited (hw : Reached t.quiet w) (ha : w.ahead = 0) {cell n : Nat}
    (hcell : t.cell w.position = some cell) : (t.limited (some n)).value w.position =
      if w.taken cell < n then t.value w.position else none := by
  have hpos := position_of_not_ahead ha
  have hroom : t.hasRoom n w.position = true ↔ w.taken cell < n := by
    have hle : w.taken cell ≤ w.base := Nat.le_trans List.countP_le_length hw.ascending.length_le
    rw [Track.hasRoom, hcell, Option.all_some, hpos, takenBefore_eq hw]
    simp only [Bool.or_eq_true, decide_eq_true_eq]
    omega
  simp only [Track.limited, Option.all_some, hroom]

/-- **No cell takes more values than it has room for.** -/
theorem Reached.taken_le {n : Nat} (hw : Reached (t.limited (some n)) w) (cell : Nat) :
    w.taken cell ≤ n := by
  refine hw.induct (P := fun w => w.taken cell ≤ n) (Nat.zero_le n) fun w w' hw ih hnext => ?_
  obtain ⟨halive, -, hturn⟩ := turn_of_next? hnext
  cases hturn with
  | enter c value ha hcell _ hvalue =>
    show (⟨w.position, c, value⟩ :: w.writes).countP (fun e => e.cell == cell) ≤ n
    rw [List.countP_cons]
    split
    · next hc =>
      have hquiet : Reached t.quiet w := (hw.of_limited (by simp [halive])).quiet halive
      rw [value_limited hquiet ha hcell] at hvalue
      split at hvalue
      · next hlt => exact (beq_iff_eq.1 hc) ▸ hlt
      · cases hvalue
    · exact ih
  | _ => exact ih

end Walk

end Aperture
