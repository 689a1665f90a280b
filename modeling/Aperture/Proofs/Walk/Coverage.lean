import Aperture.Proofs.Walk.Leaps

/-!
# Which cells a walk writes

A step is **skipped** when a walk leaps over it and lands on the cell that the leap started from.

Main results: `written_iff_visited_unskipped`. A walk that comes to its end writes exactly the cells
that are visited at a step that is not skipped, so it writes every visited cell if and only if no
cell has all its visits skipped. `turning_point_is_not_written` is a track on which one has.
-/

namespace Aperture

namespace Walk

variable {R : Type} {t : Track R} {w w' : Walk R}

open Track

/-- Step `k` lies strictly inside a leap. -/
def Skips (t : Track R) (k : Nat) : Prop :=
  ∃ start landing, Leaps t start landing ∧ start < k ∧ k < landing

/-- The track visits a cell. -/
def Visits (t : Track R) (cell : Nat) : Prop := ∃ k < t.total, t.cell k = some cell

/-- The walk along the track writes a cell. -/
def Writes (t : Track R) (cell : Nat) : Prop := ∃ e ∈ (along t).writes, e.cell = cell

theorem writes_iff {cell : Nat} : Writes t cell ↔ ∃ k, (k, cell) ∈ (along t).marks := by
  constructor
  · rintro ⟨e, he, rfl⟩
    exact ⟨e.step, List.mem_map.2 ⟨e, he, rfl⟩⟩
  · rintro ⟨k, hk⟩
    obtain ⟨e, he, hmark⟩ := List.mem_map.1 hk
    exact ⟨e, he, congrArg Prod.snd hmark⟩

/-! ## Skipped steps are not written -/

/-- Of the steps below the base, those that are ever written are written already. -/
theorem Reached.mem_marks_of_lt (hw : Reached t w) {k c : Nat} (hmem : (k, c) ∈ (along t).marks)
    (hlt : k < w.base) : (k, c) ∈ w.marks := by
  obtain ⟨n, m, rfl, hm⟩ := hw.along_eq
  -- From here on the base only grows, and a write is made at the base or behind it.
  have hkeep : (after t n).base ≤ (after t (n + m)).base ∧
      ((k, c) ∈ (after t (n + m)).marks → (k, c) ∈ (after t n).marks) := by
    refine after_induct (P := fun v => (after t n).base ≤ v.base ∧
      ((k, c) ∈ v.marks → (k, c) ∈ (after t n).marks)) ⟨Nat.le_refl _, id⟩ ?_ m
    rintro v v' ⟨hbase, hmarks⟩ hturn
    cases hturn with
    | interrupt _ => exact ⟨hbase, hmarks⟩
    | back _ _ => exact ⟨hbase, hmarks⟩
    | panic _ _ _ _ _ => exact ⟨hbase, hmarks⟩
    | leave _ _ => exact ⟨by simp only [advance, look, position]; omega, hmarks⟩
    | stay _ _ _ => exact ⟨by simp only [advance, look, position]; omega, hmarks⟩
    | enter cell value _ _ _ _ =>
      refine ⟨by simp only [advance, look, position]; omega, fun h => ?_⟩
      rcases List.mem_cons.1 h with heq | h
      · have hk : k = v.position := congrArg Prod.fst heq
        simp only [position] at hk
        omega
      · exact hmarks h
  exact hkeep.2 (hm ▸ hmem)

theorem not_skips_of_mem_marks {k c : Nat} (hmem : (k, c) ∈ (along t).marks) : ¬Skips t k := by
  rintro ⟨start, landing, ⟨w, w', hw, h, ha, hbase, hland, hbase'⟩, hlt, hgt⟩
  obtain ⟨halive, -, hturn⟩ := turn_of_next? h
  -- The turn that settles the landing writes nothing, so the write would be older than the leap.
  have hmem' := (hw.next h).mem_marks_of_lt hmem (by omega)
  have hold : (k, c) ∈ w.marks := by
    cases hturn with
    | enter _ _ hnot => exact absurd hnot (Nat.pos_iff_ne_zero.1 ha)
    | _ => exact hmem'
  have hbelow := (mem_entries.1 ((hw.settled halive).sublist.subset hold)).1
  omega

/-! ## Written cells -/

/-- A walk that comes to its end writes the cells that are visited at a step that is not skipped. -/
theorem writes_iff_unskipped (hhalt : (along t).halt = none) (cell : Nat) :
    Writes t cell ↔ ∃ k < t.total, t.cell k = some cell ∧ ¬Skips t k := by
  have hsub := ((reached_along t).settled hhalt).sublist
  rw [base_along hhalt] at hsub
  rw [writes_iff]
  constructor
  · rintro ⟨k, hmem⟩
    obtain ⟨hlt, hcell, -⟩ := mem_entries.1 (hsub.subset hmem)
    exact ⟨k, hlt, hcell, not_skips_of_mem_marks hmem⟩
  · rintro ⟨k, hk, hcell, hskip⟩
    obtain ⟨i, hik, he, hbetween⟩ := exists_entry_of_visit hk hcell
    rw [← base_along hhalt] at he
    rcases (reached_along t).mem_marks_or_leap hhalt he with
      hmem | ⟨start, landing, hleap, hlt, hle⟩
    · exact ⟨i, hmem⟩
    · obtain ⟨-, -, c, hmem, -, hland⟩ := hleap.cells
      rcases Nat.lt_or_ge k landing with hk' | hk'
      · exact absurd ⟨start, landing, hleap, by omega, hk'⟩ hskip
      · -- The track stayed in the cell from the entry on, so the leap landed on it.
        obtain rfl := hbetween landing c hle hk' hland
        exact ⟨start, hmem⟩

theorem writes_iff_visits_of_neverReturns (ht : t.NeverReturns) (hhalt : (along t).halt = none)
    (cell : Nat) : Writes t cell ↔ Visits t cell := by
  rw [writes_iff, marks_of_neverReturns ht hhalt]
  constructor
  · rintro ⟨k, hmem⟩
    obtain ⟨hlt, hcell, -⟩ := mem_entries.1 hmem
    exact ⟨k, hlt, hcell⟩
  · rintro ⟨k, hk, hcell⟩
    obtain ⟨i, -, he, -⟩ := exists_entry_of_visit hk hcell
    exact ⟨i, he⟩

/-- **When every visited cell is written.** A walk with leaps that comes to its end writes exactly
the cells that are visited at a step that is not skipped. So the written cells are the visited ones
if and only if every cell with a skipped visit has another one that is not skipped. A skipped step
lies between two steps in one cell, and a track that never returns to a cell has all its visited
cells written. -/
theorem written_iff_visited_unskipped (t : Track R)
    (hhalt : (along (t.strided true)).halt = none) :
    (∀ cell, Writes (t.strided true) cell ↔
      ∃ k < t.total, t.cell k = some cell ∧ ¬Skips (t.strided true) k) ∧
    ((∀ cell, Writes (t.strided true) cell ↔ Visits t cell) ↔
      ∀ k < t.total, ∀ cell, t.cell k = some cell → Skips (t.strided true) k →
        ∃ j < t.total, t.cell j = some cell ∧ ¬Skips (t.strided true) j) ∧
    (∀ k, Skips (t.strided true) k → ∃ start landing cell, start < k ∧ k < landing ∧
      landing < t.total ∧ t.cell start = some cell ∧ t.cell landing = some cell) ∧
    (t.NeverReturns → ∀ cell, Writes (t.strided true) cell ↔ Visits t cell) := by
  have hwritten (cell : Nat) : Writes (t.strided true) cell ↔
      ∃ k < t.total, t.cell k = some cell ∧ ¬Skips (t.strided true) k :=
    writes_iff_unskipped hhalt cell
  refine ⟨hwritten, ⟨?_, ?_⟩, ?_, ?_⟩
  · intro h k hk cell hcell _
    exact (hwritten cell).1 ((h cell).2 ⟨k, hk, hcell⟩)
  · intro h cell
    rw [hwritten]
    constructor
    · rintro ⟨k, hk, hcell, -⟩
      exact ⟨k, hk, hcell⟩
    · rintro ⟨k, hk, hcell⟩
      by_cases hskip : Skips (t.strided true) k
      · exact h k hk cell hcell hskip
      · exact ⟨k, hk, hcell, hskip⟩
  · rintro k ⟨start, landing, hleap, hlt, hgt⟩
    obtain ⟨-, hin, cell, -, hstart, hland⟩ := hleap.cells
    exact ⟨start, landing, cell, hlt, hgt, hin, hstart, hland⟩
  · intro ht cell
    exact writes_iff_visits_of_neverReturns (t := t.strided true) ht hhalt cell

theorem written_iff_visited_unskipped_roundTrip :
    (along (roundTrip.strided true)).halt = none ∧
    (Writes (roundTrip.strided true) 1 ↔
      ∃ k < roundTrip.total, roundTrip.cell k = some 1 ∧ ¬Skips (roundTrip.strided true) k) := by
  have hhalt : (along (roundTrip.strided true)).halt = none := by
    rw [along_roundTrip_true]
    rfl
  exact ⟨hhalt, (written_iff_visited_unskipped roundTrip hhalt).1 1⟩

/-- A visited cell can be lost: on the round trip, cell `2` is visited at step `4` only, and the
leap from step `3` to step `5` skips it. -/
theorem turning_point_is_not_written :
    Visits roundTrip 2 ∧ ¬Writes (roundTrip.strided true) 2 := by
  refine ⟨⟨4, by decide, rfl⟩, ?_⟩
  have hcells : (along (roundTrip.strided true)).marks.map Prod.snd = [1, 0] := by
    rw [along_roundTrip_true]
    rfl
  rw [writes_iff]
  rintro ⟨k, hmem⟩
  have h2 : 2 ∈ (along (roundTrip.strided true)).marks.map Prod.snd :=
    List.mem_map.2 ⟨(k, 2), hmem, rfl⟩
  rw [hcells] at h2
  exact absurd h2 (by decide)

end Walk

end Aperture
