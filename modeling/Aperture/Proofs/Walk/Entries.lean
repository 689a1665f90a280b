import Aperture.Proofs.Walk.Turn
import Mathlib.Data.List.Nodup
import Mathlib.Data.Nat.Init

/-!
# The entries of a track

What a walk has to write, told without the walk.

* `held t k` is the cell in hand before step `k`: the last one visited inside the image.
* A track **enters** a cell at a step when it is in that cell and holds another one or none.
  `entries t k` lists the entries below step `k`.

**The invariant of a walk** (`Settled`). A walk that was not halted holds the cell that was visited
last before its base, and has written a part of the entries below its base, in order. A walk that is
ahead of its base wrote at the step before the base.
-/

namespace Aperture

namespace Track

variable {R : Type} {t : Track R}

/-- The same steps, walked with or without leaps. -/
def strided (t : Track R) (adaptive : Bool) : Track R := { t with adaptive }

/-- The cell in hand before a step. -/
def held (t : Track R) : Nat → Option Nat
  | 0 => none
  | k + 1 => (t.cell k).or (t.held k)

/-- The track enters a cell at step `k`. -/
def Enters (t : Track R) (k cell : Nat) : Prop := t.cell k = some cell ∧ t.held k ≠ some cell

/-- Step and cell of the entries below a step, the last one first. -/
def entries (t : Track R) : Nat → List (Nat × Nat)
  | 0 => []
  | k + 1 =>
    match t.cell k with
    | none => t.entries k
    | some cell => if t.held k = some cell then t.entries k else (k, cell) :: t.entries k

/-! ## The cell in hand -/

@[simp] theorem held_strided (t : Track R) (adaptive : Bool) (k : Nat) :
    (t.strided adaptive).held k = t.held k := by
  induction k with
  | zero => rfl
  | succ k ih =>
    show (t.cell k).or ((t.strided adaptive).held k) = (t.cell k).or (t.held k)
    rw [ih]

theorem held_succ_of_cell {k c : Nat} (h : t.cell k = some c) : t.held (k + 1) = some c := by
  simp [held, h]

theorem held_succ_of_none {k : Nat} (h : t.cell k = none) : t.held (k + 1) = t.held k := by
  simp [held, h]

/-- The cell in hand was visited, and no other one since. -/
theorem exists_of_held {n c : Nat} (h : t.held n = some c) :
    ∃ k < n, t.cell k = some c ∧ ∀ j, k < j → j < n → t.cell j = none := by
  induction n with
  | zero => cases h
  | succ n ih =>
    cases hcell : t.cell n with
    | some d =>
      rw [held_succ_of_cell hcell] at h
      exact ⟨n, Nat.lt_succ_self n, hcell.trans h, fun j _ _ => by omega⟩
    | none =>
      rw [held_succ_of_none hcell] at h
      obtain ⟨k, hk, hc, hnone⟩ := ih h
      refine ⟨k, by omega, hc, ?_⟩
      intro j hkj hj
      rcases Nat.lt_succ_iff_lt_or_eq.1 hj with hj | rfl
      · exact hnone j hkj hj
      · exact hcell

/-! ## Entries -/

@[simp] theorem entries_strided (t : Track R) (adaptive : Bool) (n : Nat) :
    (t.strided adaptive).entries n = t.entries n := by
  induction n with
  | zero => rfl
  | succ n ih =>
    simp only [entries, held_strided, ih]
    rfl

theorem entries_succ_of_enters {k c : Nat} (h : t.Enters k c) :
    t.entries (k + 1) = (k, c) :: t.entries k := by
  simp [entries, h.1, h.2]

theorem entries_succ_of_none {k : Nat} (h : t.cell k = none) :
    t.entries (k + 1) = t.entries k := by
  simp [entries, h]

theorem entries_succ_of_held {k c : Nat} (h : t.cell k = some c) (hheld : t.held k = some c) :
    t.entries (k + 1) = t.entries k := by
  simp [entries, h, hheld]

theorem mem_entries {n k c : Nat} : (k, c) ∈ t.entries n ↔ k < n ∧ t.Enters k c := by
  induction n with
  | zero => simp [entries]
  | succ n ih =>
    have hcases : t.Enters k c → k < n + 1 → k < n ∨ t.Enters n c := by
      intro h hlt
      rcases Nat.lt_succ_iff_lt_or_eq.1 hlt with hlt | rfl
      · exact .inl hlt
      · exact .inr h
    cases hcell : t.cell n with
    | none =>
      rw [entries_succ_of_none hcell, ih]
      constructor
      · rintro ⟨hlt, h⟩
        exact ⟨by omega, h⟩
      · rintro ⟨hlt, h⟩
        rcases hcases h hlt with hlt | hn
        · exact ⟨hlt, h⟩
        · exact absurd (hcell.symm.trans hn.1) (by simp)
    | some d =>
      by_cases hheld : t.held n = some d
      · rw [entries_succ_of_held hcell hheld, ih]
        constructor
        · rintro ⟨hlt, h⟩
          exact ⟨by omega, h⟩
        · rintro ⟨hlt, h⟩
          rcases hcases h hlt with hlt | hn
          · exact ⟨hlt, h⟩
          · exact absurd (hheld.trans (hcell.symm.trans hn.1)) hn.2
      · rw [entries_succ_of_enters ⟨hcell, hheld⟩, List.mem_cons, ih, Prod.mk.injEq]
        constructor
        · rintro (⟨rfl, rfl⟩ | h)
          · exact ⟨Nat.lt_succ_self k, hcell, hheld⟩
          · exact ⟨by omega, h.2⟩
        · rintro ⟨hlt, h⟩
          rcases Nat.lt_succ_iff_lt_or_eq.1 hlt with hlt | rfl
          · exact .inr ⟨hlt, h⟩
          · exact .inl ⟨rfl, Option.some.inj (h.1.symm.trans hcell)⟩

theorem entries_suffix_succ (t : Track R) (n : Nat) : t.entries n <:+ t.entries (n + 1) := by
  simp only [entries]
  split
  · exact List.suffix_refl _
  · split
    · exact List.suffix_refl _
    · exact List.suffix_cons _ _

theorem entries_sublist {m n : Nat} (h : m ≤ n) : (t.entries m).Sublist (t.entries n) := by
  induction n, h using Nat.le_induction with
  | base => exact List.Sublist.refl _
  | succ n _ ih => exact ih.trans (entries_suffix_succ t n).sublist

theorem entries_nodup (t : Track R) (n : Nat) : (t.entries n).Nodup := by
  induction n with
  | zero => exact List.nodup_nil
  | succ n ih =>
    have hnew (c : Nat) : (n, c) ∉ t.entries n := by
      intro h
      exact absurd (mem_entries.1 h).1 (Nat.lt_irrefl n)
    simp only [entries]
    split
    · exact ih
    · split
      · exact ih
      · exact List.nodup_cons.2 ⟨hnew _, ih⟩

/-- Every visit of a cell goes back to an entry: since then the track was in no other cell. -/
theorem exists_entry_of_visit {n k c : Nat} (hk : k < n) (hcell : t.cell k = some c) :
    ∃ i ≤ k, (i, c) ∈ t.entries n ∧ ∀ j d, i ≤ j → j ≤ k → t.cell j = some d → d = c := by
  induction k using Nat.strong_induction_on with
  | _ k ih =>
    by_cases hheld : t.held k = some c
    · obtain ⟨l, hlk, hl, hnone⟩ := exists_of_held hheld
      obtain ⟨i, hil, hi, hbetween⟩ := ih l hlk (by omega) hl
      refine ⟨i, by omega, hi, ?_⟩
      intro j d hij hjk hd
      rcases Nat.lt_or_ge l j with hlj | hjl
      · rcases Nat.lt_or_eq_of_le hjk with hjk | rfl
        · rw [hnone j hlj hjk] at hd
          cases hd
        · exact Option.some.inj (hd.symm.trans hcell)
      · exact hbetween j d hij hjl hd
    · refine ⟨k, Nat.le_refl k, mem_entries.2 ⟨hk, hcell, hheld⟩, ?_⟩
      intro j d hij hjk hd
      obtain rfl : j = k := Nat.le_antisymm hjk hij
      exact Option.some.inj (hd.symm.trans hcell)

end Track

/-- Step and cell of a write. -/
def Write.mark {R : Type} (e : Write R) : Nat × Nat := (e.step, e.cell)

namespace Walk

variable {R : Type} {t : Track R} {w w' : Walk R}

open Track

/-- Step and cell of the writes, the last one first. -/
def marks (w : Walk R) : List (Nat × Nat) := w.writes.map Write.mark

/-! ## The invariant -/

/-- What a walk that was not halted has settled. -/
structure Settled (t : Track R) (w : Walk R) : Prop where
  base_le : w.base ≤ t.total
  inside : 0 < w.ahead → w.position < t.total
  lastCell : w.lastCell = t.held w.base
  leaping : 0 < w.ahead → ∃ start cell, (start, cell) ∈ w.marks ∧ w.base = start + 1 ∧
    w.lastCell = some cell
  sublist : w.marks.Sublist (t.entries w.base)
  valued : ∀ e ∈ w.writes, t.value e.step = some e.value

theorem settled_start (t : Track R) : Settled t {} :=
  ⟨Nat.zero_le _, fun h => absurd h (Nat.lt_irrefl 0), rfl, fun h => absurd h (Nat.lt_irrefl 0),
    List.Sublist.refl _, fun _ he => by cases he⟩

theorem position_of_not_ahead (h : w.ahead = 0) : w.position = w.base := by
  simp [position, h]

/-- Without a leap the walk goes on to the next step. -/
theorem ahead_advance_one (t : Track R) (w : Walk R) : (advance t w 1).ahead = 0 := by
  simp only [advance]
  omega

/-- A walk outside the image is not on a leap: leaps start from a cell. -/
theorem Settled.not_ahead (hw : Settled t w) (h : w.ahead = 0 ∨ w.lastCell = none) :
    w.ahead = 0 := by
  rcases h with h | h
  · exact h
  · by_contra ha
    obtain ⟨_, _, -, -, hcell⟩ := hw.leaping (Nat.pos_of_ne_zero ha)
    rw [h] at hcell
    cases hcell

/-- A walk that holds another cell than it finds enters that cell. -/
theorem Settled.enters (hw : Settled t w) (ha : w.ahead = 0) {cell : Nat}
    (hfound : t.cell w.position = some cell) (hlast : w.lastCell ≠ some cell) :
    t.Enters w.base cell := by
  rw [position_of_not_ahead ha] at hfound
  exact ⟨hfound, hw.lastCell ▸ hlast⟩

theorem Settled.turn (hw : Settled t w) (hin : w.position < t.total) (hturn : Turn t w w')
    (hhalt : w'.halt = none) : Settled t w' := by
  have hone : ¬0 < (advance t w.look 1).ahead := by
    rw [ahead_advance_one]
    exact Nat.lt_irrefl 0
  cases hturn with
  | interrupt _ => cases hhalt
  | panic _ _ _ _ _ => cases hhalt
  | back _ _ =>
    exact ⟨hw.base_le, fun ha => absurd ha (Nat.lt_irrefl 0), hw.lastCell,
      fun ha => absurd ha (Nat.lt_irrefl 0), hw.sublist, hw.valued⟩
  | leave hout hfound =>
    have hpos := position_of_not_ahead (hw.not_ahead hout)
    refine ⟨hin, fun ha => absurd ha hone, ?_, fun ha => absurd ha hone, ?_, hw.valued⟩
    · show w.lastCell = t.held (w.position + 1)
      rw [held_succ_of_none hfound, hpos, hw.lastCell]
    · show w.marks.Sublist (t.entries (w.position + 1))
      rw [entries_succ_of_none hfound, hpos]
      exact hw.sublist
  | stay cell hfound hlast =>
    refine ⟨hin, fun ha => absurd ha hone, ?_, fun ha => absurd ha hone, ?_, hw.valued⟩
    · show w.lastCell = t.held (w.position + 1)
      rw [held_succ_of_cell hfound, hlast]
    · refine hw.sublist.trans (entries_sublist ?_)
      show w.base ≤ w.base + w.ahead + 1
      omega
  | enter cell value ha hfound hlast hvalue =>
    have hpos := position_of_not_ahead ha
    refine ⟨hin, fun hahead => ?_, (held_succ_of_cell hfound).symm,
      fun _ => ⟨w.position, cell, List.mem_cons_self, rfl, rfl⟩, ?_, fun e he => ?_⟩
    · -- A leap is cut so that it does not pass the last step.
      simp only [advance, position, look] at hahead ⊢
      omega
    · show ((w.position, cell) :: w.marks).Sublist (t.entries (w.position + 1))
      rw [hpos, entries_succ_of_enters (hw.enters ha hfound hlast)]
      exact hw.sublist.cons_cons _
    · rcases List.mem_cons.1 he with rfl | he
      · exact hvalue
      · exact hw.valued e he

theorem Reached.settled (hw : Reached t w) (hhalt : w.halt = none) : Settled t w := by
  refine hw.induct (P := fun w => w.halt = none → Settled t w) (fun _ => settled_start t) ?_ hhalt
  intro w w' _ ih h hhalt'
  obtain ⟨halive, hin, hturn⟩ := turn_of_next? h
  exact (ih halive).turn hin hturn hhalt'

/-- Whatever becomes of a walk, it writes the values of steps of its track into their cells. -/
theorem Reached.placed (hw : Reached t w) : ∀ e ∈ w.writes,
    e.step < t.total ∧ t.cell e.step = some e.cell ∧ t.value e.step = some e.value := by
  refine hw.induct (P := fun w => ∀ e ∈ w.writes,
    e.step < t.total ∧ t.cell e.step = some e.cell ∧ t.value e.step = some e.value)
    (fun _ he => by cases he) ?_
  intro w w' _ ih h
  obtain ⟨-, hin, hturn⟩ := turn_of_next? h
  cases hturn with
  | enter cell value _ hcell _ hvalue =>
    intro e he
    rcases List.mem_cons.1 he with rfl | he
    · exact ⟨hin, hcell, hvalue⟩
    · exact ih e he
  | _ => exact ih

theorem Reached.written (hw : Reached t w) :
    ∀ e ∈ w.writes, e.step < t.total ∧ t.value e.step = some e.value := by
  intro e he
  obtain ⟨hstep, -, hvalue⟩ := hw.placed e he
  exact ⟨hstep, hvalue⟩

/-- At its end, a walk that was not halted has settled all steps. -/
theorem base_along (hhalt : (along t).halt = none) : (along t).base = t.total := by
  have hs := (reached_along t).settled hhalt
  rcases next?_eq_none_iff.1 (next?_along t) with hsome | hend
  · rw [hhalt] at hsome
    cases hsome
  · rcases Nat.eq_zero_or_pos (along t).ahead with ha | ha
    · rw [position_of_not_ahead ha] at hend
      exact Nat.le_antisymm hs.base_le hend
    · exact absurd (hs.inside ha) (Nat.not_lt.2 hend)

/-- Writes at the same steps have the same values. -/
theorem writes_eq_of_marks_eq {s : Track R} {v : Walk R} (hsame : s.value = t.value)
    (hv : ∀ e ∈ v.writes, s.value e.step = some e.value)
    (hw : ∀ e ∈ w.writes, t.value e.step = some e.value) (h : v.marks = w.marks) :
    v.writes = w.writes := by
  simp only [marks] at h
  generalize v.writes = vs at hv h ⊢
  generalize w.writes = ws at hw h ⊢
  induction vs generalizing ws with
  | nil => exact (List.map_eq_nil_iff.1 h.symm).symm
  | cons d vs ih =>
    obtain ⟨e, ws, rfl⟩ : ∃ e ws', ws = e :: ws' := by
      cases ws with
      | nil => cases h
      | cons e ws => exact ⟨e, ws, rfl⟩
    obtain ⟨hmark, hrest⟩ := List.cons.inj h
    obtain ⟨hstep, hcell⟩ := Prod.mk.inj hmark
    have hvalue : d.value = e.value := by
      have hd := hv d List.mem_cons_self
      rw [hsame, show d.step = e.step from hstep, hw e List.mem_cons_self] at hd
      exact (Option.some.inj hd).symm
    have hde : d = e := by
      obtain ⟨_, _, _⟩ := d
      obtain ⟨_, _, _⟩ := e
      simp_all
    rw [hde, ih (fun e he => hv e (List.mem_cons_of_mem _ he)) ws
      (fun e he => hw e (List.mem_cons_of_mem _ he)) hrest]

end Walk

end Aperture
