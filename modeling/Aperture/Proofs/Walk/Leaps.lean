import Aperture.Binary64
import Aperture.Imaging.Plot
import Aperture.Proofs.Walk.Entries
import Mathlib.Data.List.Perm.Subperm

/-!
# Walks with leaps

A walk with leaps against the walk that looks at every step of the same track.

* `after_thorough`: a walk without leaps settles one step a turn and writes every entry.
* `mem_marks_or_leap`: an entry that a walk with leaps did not write lies behind the start of a leap
  and not behind its landing, and the leap landed on the cell that it started from.
* `NeverReturns`: a track that never comes back to a cell gives such a leap nothing to miss.

Main results: `leaping_walk_refines_thorough`, and `reentry_on_landing_is_missing` for a track on
which the step of the landing itself is an entry.
-/

namespace Aperture

/-! ## Tracks that do not come back -/

namespace Track

variable {R : Type} {t : Track R}

/-- Between two steps in one cell there is no step in another. -/
def NeverReturns (t : Track R) : Prop :=
  ∀ i j k c d, i < j → j < k → k < t.total → t.cell i = some c → t.cell j = some d →
    t.cell k = some c → d = c

/-- Between two steps in one cell, a track that does not come back holds that cell. -/
theorem NeverReturns.held_eq (ht : t.NeverReturns) {start landing k c : Nat}
    (hstart : t.cell start = some c) (hland : t.cell landing = some c) (hin : landing < t.total)
    (hlt : start < k) (hle : k ≤ landing) : t.held k = some c := by
  obtain ⟨d, hd⟩ : ∃ d, t.held k = some d := by
    clear hle
    induction k, hlt using Nat.le_induction with
    | base => exact ⟨c, held_succ_of_cell hstart⟩
    | succ k _ ih =>
      cases hcell : t.cell k with
      | none => exact held_succ_of_none hcell ▸ ih
      | some d => exact ⟨d, held_succ_of_cell hcell⟩
  obtain ⟨j, hjk, hj, hnone⟩ := exists_of_held hd
  rcases Nat.lt_trichotomy j start with hlt' | rfl | hgt
  · rw [hnone start hlt' hlt] at hstart
    cases hstart
  · rw [hd, ← hj, hstart]
  · rw [hd, ht start j landing c d hgt (by omega) hin hstart hj hland]

end Track

namespace Walk

variable {R : Type} {t : Track R} {w w' : Walk R}

open Track

/-! ## Looking at every step -/

/-- `w` has looked at the first `n` steps one by one and has written all their entries. -/
structure Thorough (t : Track R) (n : Nat) (w : Walk R) : Prop where
  base : w.base = n
  ahead : w.ahead = 0
  steps : w.steps = n
  marks : w.marks = t.entries n

theorem Thorough.position {n : Nat} (hw : Thorough t n w) : w.position = n := by
  rw [position_of_not_ahead hw.ahead, hw.base]

theorem Thorough.turn {n : Nat} (hstep : t.adaptive = false) (hw : Thorough t n w)
    (hs : Settled t w) (hturn : Turn t w w') (hhalt : w'.halt = none) :
    Thorough t (n + 1) w' := by
  have hpos := hw.position
  have hheld := hs.lastCell
  rw [hw.base] at hheld
  cases hturn with
  | interrupt _ => cases hhalt
  | panic _ _ _ _ _ => cases hhalt
  | back ha _ => exact absurd hw.ahead (Nat.pos_iff_ne_zero.1 ha)
  | leave _ hfound =>
    rw [hpos] at hfound
    refine ⟨congrArg (· + 1) hpos, ahead_advance_one _ _, congrArg (· + 1) hw.steps, ?_⟩
    rw [entries_succ_of_none hfound, ← hw.marks]
    rfl
  | stay cell hfound hlast =>
    rw [hpos] at hfound
    refine ⟨congrArg (· + 1) hpos, ahead_advance_one _ _, congrArg (· + 1) hw.steps, ?_⟩
    rw [entries_succ_of_held hfound (hheld ▸ hlast), ← hw.marks]
    rfl
  | enter cell value _ hfound hlast _ =>
    rw [hpos] at hfound
    have hguess : guess t w.look = 1 := by simp [guess, hstep]
    refine ⟨congrArg (· + 1) hpos, ?_, congrArg (· + 1) hw.steps, ?_⟩
    · rw [hguess]
      exact ahead_advance_one _ _
    · rw [entries_succ_of_enters ⟨hfound, hheld ▸ hlast⟩, ← hw.marks, ← hpos]
      rfl

/-- **Without leaps, a walk settles one step a turn and writes every entry.** -/
theorem after_thorough (hstep : t.adaptive = false) (hhalt : (along t).halt = none) {n : Nat}
    (hn : n ≤ t.total) : Thorough t n (after t n) := by
  induction n with
  | zero => exact ⟨rfl, rfl, rfl, rfl⟩
  | succ n ih =>
    have hw := ih (by omega)
    have hreached : Reached t (after t n) := ⟨n, rfl⟩
    have halive := hreached.halt_eq_none hhalt
    cases h : next? t (after t n) with
    | none =>
      rcases next?_eq_none_iff.1 h with hsome | hend
      · rw [halive] at hsome
        cases hsome
      · rw [hw.position] at hend
        omega
    | some w' =>
      rw [after_succ_of_next? h]
      exact hw.turn hstep (hreached.settled halive) (turn_of_next? h).2.2
        ((hreached.next h).halt_eq_none hhalt)

theorem along_thorough (hstep : t.adaptive = false) (hhalt : (along t).halt = none) :
    Thorough t t.total (along t) := by
  have hw := after_thorough hstep hhalt (Nat.le_refl t.total)
  have hend : next? t (after t t.total) = none :=
    next?_eq_none_iff.2 (.inr (Nat.le_of_eq hw.position.symm))
  rwa [along_eq_after hend]

/-! ## Leaps -/

/-- After step `start` the walk leaps to `landing` and settles all steps up to there. -/
def Leaps (t : Track R) (start landing : Nat) : Prop :=
  ∃ w w' : Walk R, Reached t w ∧ next? t w = some w' ∧ 0 < w.ahead ∧ w.base = start + 1 ∧
    w.position = landing ∧ w'.base = landing + 1

/-- What is written stays written. -/
theorem Reached.writes_suffix (hw : Reached t w) : w.writes <:+ (along t).writes := by
  obtain ⟨n, m, rfl, hm⟩ := hw.along_eq
  rw [← hm]
  refine after_induct (P := fun v => (after t n).writes <:+ v.writes) (List.suffix_refl _) ?_ m
  intro v v' hsuffix hturn
  cases hturn with
  | enter cell value => exact hsuffix.trans (List.suffix_cons _ _)
  | _ => exact hsuffix

theorem Reached.mem_marks (hw : Reached t w) {m : Nat × Nat} (hm : m ∈ w.marks) :
    m ∈ (along t).marks :=
  List.map_subset _ hw.writes_suffix.subset hm

/-- A leap starts at a write and lands on the cell that was written there. -/
theorem Leaps.cells {start landing : Nat} (h : Leaps t start landing) :
    start + 1 < landing ∧ landing < t.total ∧
      ∃ cell, (start, cell) ∈ (along t).marks ∧ t.cell start = some cell ∧
        t.cell landing = some cell := by
  obtain ⟨w, w', hw, hnext, ha, hbase, hland, hbase'⟩ := h
  obtain ⟨halive, -, hturn⟩ := turn_of_next? hnext
  have hs := hw.settled halive
  obtain ⟨start', cell, hmem, hbefore, hcell⟩ := hs.leaping ha
  obtain rfl : start' = start := by omega
  refine ⟨by simp only [Walk.position] at hland; omega, hland ▸ hs.inside ha, cell,
    hw.mem_marks hmem, (mem_entries.1 (hs.sublist.subset hmem)).2.1, ?_⟩
  -- Only a turn that stays in its cell settles the landing.
  cases hturn with
  | interrupt _ => simp only [Walk.position] at hbase' hland; omega
  | back _ _ => simp only [look, Walk.position] at hbase' hland; omega
  | leave hout _ => exact absurd (hs.not_ahead hout) (Nat.pos_iff_ne_zero.1 ha)
  | stay c hfound hlast => rw [← hland, hfound, ← hcell, hlast]
  | enter _ _ hnot => exact absurd hnot (Nat.pos_iff_ne_zero.1 ha)
  | panic _ hnot => exact absurd hnot (Nat.pos_iff_ne_zero.1 ha)

/-- **What a leap can miss.** An entry below the base was written, or it lies behind the start of a
leap and not behind its landing. -/
theorem Reached.mem_marks_or_leap (hw : Reached t w) (hhalt : w.halt = none) {k c : Nat}
    (he : (k, c) ∈ t.entries w.base) :
    (k, c) ∈ w.marks ∨ ∃ start landing, Leaps t start landing ∧ start < k ∧ k ≤ landing := by
  refine hw.induct (P := fun w => w.halt = none → (k, c) ∈ t.entries w.base → (k, c) ∈ w.marks ∨
    ∃ start landing, Leaps t start landing ∧ start < k ∧ k ≤ landing)
    (fun _ he => by cases he) ?_ hhalt he
  intro w w' hw ih h hhalt' he
  obtain ⟨halive, -, hturn⟩ := turn_of_next? h
  have hs := hw.settled halive
  cases hturn with
  | interrupt _ => cases hhalt'
  | panic _ _ _ _ _ => cases hhalt'
  | back _ _ => exact ih halive he
  | leave hout hfound =>
    change (k, c) ∈ t.entries (w.position + 1) at he
    rw [entries_succ_of_none hfound, position_of_not_ahead (hs.not_ahead hout)] at he
    exact ih halive he
  | stay cell hfound hlast =>
    change (k, c) ∈ t.entries (w.position + 1) at he
    rcases Nat.eq_zero_or_pos w.ahead with ha | ha
    · have hpos := position_of_not_ahead ha
      rw [entries_succ_of_held hfound (by rw [hpos, ← hs.lastCell, hlast]), hpos] at he
      exact ih halive he
    · obtain ⟨hlt, henters⟩ := mem_entries.1 he
      rcases Nat.lt_or_ge k w.base with hbelow | habove
      · exact ih halive (mem_entries.2 ⟨hbelow, henters⟩)
      · obtain ⟨start, _, -, hbase, -⟩ := hs.leaping ha
        exact .inr ⟨start, w.position, ⟨w, _, hw, h, ha, hbase, rfl, rfl⟩, by omega, by omega⟩
  | enter cell value ha hfound hlast hvalue =>
    change (k, c) ∈ t.entries (w.position + 1) at he
    rw [position_of_not_ahead ha, entries_succ_of_enters (hs.enters ha hfound hlast)] at he
    rcases List.mem_cons.1 he with heq | he
    · rw [heq, ← position_of_not_ahead ha]
      exact .inl List.mem_cons_self
    · exact (ih halive he).imp (fun hmem => List.mem_cons_of_mem _ hmem) id

theorem mem_marks_of_neverReturns (ht : t.NeverReturns) (hhalt : (along t).halt = none) {k c : Nat}
    (he : (k, c) ∈ t.entries t.total) : (k, c) ∈ (along t).marks := by
  rcases (reached_along t).mem_marks_or_leap hhalt (base_along hhalt ▸ he) with
    hmem | ⟨start, landing, hleap, hlt, hle⟩
  · exact hmem
  · obtain ⟨-, hin, cell, -, hstart, hland⟩ := hleap.cells
    obtain ⟨-, hcell, hheld⟩ := mem_entries.1 he
    have hsame : t.held k = some cell := ht.held_eq hstart hland hin hlt hle
    -- The cell in hand is the one of the step, so the step is no entry.
    refine absurd ?_ hheld
    rcases Nat.lt_or_eq_of_le hle with hlt' | rfl
    · rw [hsame, ht start k landing cell c hlt hlt' hin hstart hcell hland]
    · rw [hsame, ← hcell, hland]

/-- Along a track that does not come back, every entry is written. -/
theorem marks_of_neverReturns (ht : t.NeverReturns) (hhalt : (along t).halt = none) :
    (along t).marks = t.entries t.total := by
  have hsub := ((reached_along t).settled hhalt).sublist
  rw [base_along hhalt] at hsub
  have hsubset : t.entries t.total ⊆ (along t).marks := by
    rintro ⟨k, c⟩ he
    exact mem_marks_of_neverReturns ht hhalt he
  exact hsub.eq_of_length_le ((entries_nodup t t.total).subperm hsubset).length_le

/-! ## Panics -/

/-- A walk that panicked entered a cell without a value. -/
theorem Reached.exists_panic (hw : Reached t w) (hpanic : w.halt = some .panicked) :
    ∃ k < t.total, ∃ cell, t.Enters k cell ∧ t.value k = none := by
  refine hw.induct (P := fun w => w.halt = some .panicked →
    ∃ k < t.total, ∃ cell, t.Enters k cell ∧ t.value k = none) (fun h => by cases h) ?_ hpanic
  intro w w' hw ih h hpanic
  obtain ⟨halive, hin, hturn⟩ := turn_of_next? h
  cases hturn with
  | interrupt _ => cases hpanic
  | panic cell ha hfound hlast hvalue =>
    have hpos := position_of_not_ahead ha
    rw [hpos] at hin hvalue
    exact ⟨w.base, hin, cell, (hw.settled halive).enters ha hfound hlast, hvalue⟩
  | _ => exact ih hpanic

/-- If the walk that looks at every step comes to its end, no walk along the track panics. -/
theorem halt_ne_panicked (hthorough : (along (t.strided false)).halt = none) (adaptive : Bool) :
    (along (t.strided adaptive)).halt ≠ some .panicked := by
  intro hpanic
  obtain ⟨k, hk, cell, henters, hvalue⟩ := (reached_along _).exists_panic hpanic
  have hw := along_thorough (t := t.strided false) rfl hthorough
  have hentry : (k, cell) ∈ (along (t.strided false)).marks := by
    rw [hw.marks, entries_strided]
    refine mem_entries.2 ⟨hk, henters.1, ?_⟩
    simpa using henters.2
  obtain ⟨e, he, hmark⟩ := List.mem_map.1 hentry
  have hval := ((reached_along _).settled hthorough).valued e he
  rw [show e.step = k from congrArg Prod.fst hmark] at hval
  exact absurd (hval.symm.trans hvalue) (by simp)

/-! ## Leaps against single steps -/

/-- **Leaping refines looking at every step.** If the walk that looks at every step comes to its end
and the walk with leaps is not interrupted, then the latter comes to its end as well, and:

* its writes are a part of the other walk's, in the same order;
* whenever it settles a step, both walks hold the same cell behind that step;
* a write that it misses lies behind the start of a leap and not behind its landing; the leap
  starts at a write and lands on the cell written there;
* if the track never returns to a cell, both walks write the same and give the same image, in
  either way of accumulating and whatever the other workers write. -/
theorem leaping_walk_refines_thorough [Scalar R] (t : Track R)
    (hthorough : (along (t.strided false)).halt = none)
    (hquiet : (along (t.strided true)).isInterrupted = false) :
    (along (t.strided true)).halt = none ∧
    (along (t.strided true)).marks.reverse.Sublist (along (t.strided false)).marks.reverse ∧
    (∀ k ≤ t.total, (after (t.strided false) k).position = k) ∧
    (∀ w w', Reached (t.strided true) w → next? (t.strided true) w = some w' →
      w'.base = w.position + 1 →
      w'.lastCell = (after (t.strided false) (w.position + 1)).lastCell) ∧
    (∀ k c, (k, c) ∈ (along (t.strided false)).marks → (k, c) ∉ (along (t.strided true)).marks →
      ∃ start landing cell, Leaps (t.strided true) start landing ∧ start < k ∧ k ≤ landing ∧
        (start, cell) ∈ (along (t.strided true)).marks ∧ t.cell landing = some cell) ∧
    (t.NeverReturns → (along (t.strided true)).writes = (along (t.strided false)).writes ∧
      ∀ (plan : Plan R) (b : Baseline R) (before behind : List (WorkerRun R)),
        Plot.image plan (before ++ ⟨b, along (t.strided true)⟩ :: behind) =
          Plot.image plan (before ++ ⟨b, along (t.strided false)⟩ :: behind)) := by
  have hhalt : (along (t.strided true)).halt = none := by
    have hpanic := halt_ne_panicked hthorough true
    cases h : (along (t.strided true)).halt with
    | none => rfl
    | some halt =>
      cases halt with
      | interrupted => simp [isInterrupted, h] at hquiet
      | panicked => exact absurd h hpanic
  have hend := along_thorough (t := t.strided false) rfl hthorough
  have hentries : (t.strided true).entries (along (t.strided true)).base =
      (along (t.strided false)).marks := by
    rw [hend.marks, base_along hhalt, entries_strided, entries_strided]
    rfl
  refine ⟨hhalt, ?_, ?_, ?_, ?_, ?_⟩
  · rw [← hentries]
    exact ((reached_along (t.strided true)).settled hhalt).sublist.reverse
  · intro k hk
    exact (after_thorough rfl hthorough hk).position
  · intro w w' hw h hsettled
    have hin := (turn_of_next? h).2.1
    have hs := (hw.next h).settled ((hw.next h).halt_eq_none hhalt)
    have hreached : Reached (t.strided false) (after (t.strided false) (w.position + 1)) := ⟨_, rfl⟩
    have hs' := hreached.settled (hreached.halt_eq_none hthorough)
    rw [hs.lastCell, hs'.lastCell, hsettled,
      (after_thorough rfl hthorough (Nat.succ_le_of_lt hin)).base, held_strided, held_strided]
  · intro k c he hmissing
    rw [← hentries] at he
    rcases (reached_along (t.strided true)).mem_marks_or_leap hhalt he with
      hmem | ⟨start, landing, hleap, hlt, hle⟩
    · exact absurd hmem hmissing
    · obtain ⟨-, -, cell, hmem, -, hland⟩ := hleap.cells
      exact ⟨start, landing, cell, hleap, hlt, hle, hmem, hland⟩
  · intro ht
    have hmarks : (along (t.strided true)).marks = (along (t.strided false)).marks := by
      rw [← hentries, base_along hhalt]
      exact marks_of_neverReturns (t := t.strided true) ht hhalt
    have hsame : (along (t.strided true)).writes = (along (t.strided false)).writes :=
      writes_eq_of_marks_eq (s := t.strided true) (t := t.strided false) rfl
        ((reached_along _).settled hhalt).valued ((reached_along _).settled hthorough).valued hmarks
    refine ⟨hsame, ?_⟩
    intro plan b before behind
    have hwrites : WorkerRun.writes ⟨b, along (t.strided true)⟩ =
        WorkerRun.writes ⟨b, along (t.strided false)⟩ := congrArg List.reverse hsame
    have hevents : WorkerRun.events ⟨b, along (t.strided true)⟩ =
        WorkerRun.events ⟨b, along (t.strided false)⟩ := by
      simp only [WorkerRun.events, hwrites, isPanicked, hhalt, hthorough]
    have hmean (size : Nat) : WorkerRun.meanImage size ⟨b, along (t.strided true)⟩ =
        WorkerRun.meanImage size ⟨b, along (t.strided false)⟩ := by
      simp only [WorkerRun.meanImage, hwrites]
    simp only [Plot.image, WorkerRun.average, List.flatMap_append, List.flatMap_cons,
      List.mapM_append, List.mapM_cons, hevents, hmean]

/-- A track that leaves cell `1` for cell `2` and is back on its last step. -/
def roundTrip : Track Binary64 where
  total := 6
  adaptive := true
  cell k := [0, 0, 0, 1, 2, 1][k]?
  value _ := some Scalar.one
  interrupted _ := false

theorem along_roundTrip_false :
    along (roundTrip.strided false) = after (roundTrip.strided false) 6 := along_eq_after rfl

theorem along_roundTrip_true :
    along (roundTrip.strided true) = after (roundTrip.strided true) 5 := along_eq_after rfl

theorem leaping_walk_refines_thorough_roundTrip :
    (along (roundTrip.strided false)).halt = none ∧
    (along (roundTrip.strided true)).isInterrupted = false ∧
    (along (roundTrip.strided true)).marks = [(3, 1), (0, 0)] ∧
    (along (roundTrip.strided false)).marks = [(5, 1), (4, 2), (3, 1), (0, 0)] ∧
    (along (roundTrip.strided true)).marks.reverse.Sublist
      (along (roundTrip.strided false)).marks.reverse := by
  have hthorough : (along (roundTrip.strided false)).halt = none := by
    rw [along_roundTrip_false]
    rfl
  have hquiet : (along (roundTrip.strided true)).isInterrupted = false := by
    rw [along_roundTrip_true]
    rfl
  refine ⟨hthorough, hquiet, ?_, ?_,
    (leaping_walk_refines_thorough roundTrip hthorough hquiet).2.1⟩
  · rw [along_roundTrip_true]
    rfl
  · rw [along_roundTrip_false]
    rfl

/-- The step of a landing can be missing itself, so missing writes need not lie strictly inside a
leap: on the round trip, the leap from step `3` lands on step `5`, where the track enters cell `1`
again. -/
theorem reentry_on_landing_is_missing :
    ¬∀ k c, (k, c) ∈ (along (roundTrip.strided false)).marks →
      (k, c) ∉ (along (roundTrip.strided true)).marks →
      ∃ start landing, Leaps (roundTrip.strided true) start landing ∧ start < k ∧ k < landing := by
  intro hinside
  have hmem : (5, 1) ∈ (along (roundTrip.strided false)).marks := by
    rw [along_roundTrip_false]
    exact List.mem_cons_self
  have hmissing : (5, 1) ∉ (along (roundTrip.strided true)).marks := by
    have hmarks : (along (roundTrip.strided true)).marks = [(3, 1), (0, 0)] := by
      rw [along_roundTrip_true]
      rfl
    rw [hmarks]
    decide
  obtain ⟨start, landing, hleap, -, hlt⟩ := hinside 5 1 hmem hmissing
  -- Nothing lies strictly inside a leap that ends on the last step.
  have hin : landing < 6 := hleap.cells.2.1
  omega

end Walk

end Aperture
