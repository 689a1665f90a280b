import Aperture.Proofs.Plot.Covered
import Aperture.Proofs.Plot.Reference
import Aperture.Proofs.Walk.Interrupts

/-!
# Interrupted plots

What becomes of a plot when its flag is set, from the outset or at any time. The workers ask the
flag each for itself and in any order, so every worker has answers of its own.

* An interrupted worker has written the first values of the worker that is left alone
  (`Worker.writes_prefix_quiet`), and one that was not interrupted is that worker
  (`Worker.run_quiet`).
* An interruption is no panic: the worker ends, so of a complete crew nobody is counted as active
  but the workers that panicked (`Crew.Reaches.active_of_complete`).
* Workers that write nothing leave an image of zeros in both modes, however they interleave
  (`Crew.Reaches.image_of_silent`).

Main result: `interrupted_runs_are_prefixes`.
-/

namespace Aperture

open Exact Timeline

section

variable {R : Type} [Scalar R]

/-- The same plan without an interrupt flag. -/
def Plan.quiet (p : Plan R) : Plan R := { p with interrupt := none }

/-! ## Images without values -/

/-- An image without values takes no part in an average. -/
theorem MeanImage.merge_blank (means : MeanImage R) (size : Nat) :
    merge means (.blank size) = .ok means := by
  have hjoin (cell : Nat) (m : Mean R) :
      m.join (blank size : MeanImage R).cells[cell]? = .ok m := by
    rw [getElem?_blank]
    split <;> rfl
  have hcells : (means.cells.toList.mapIdx fun cell m =>
      m.join (blank size : MeanImage R).cells[cell]?) = means.cells.toList.map .ok := by
    simp only [hjoin]
    exact List.ext_getElem (by simp) (by simp)
  have hmerged : (means.cells.toList.mapIdx fun cell m =>
      m.join (blank size : MeanImage R).cells[cell]?).mapM id = .ok means.cells.toList :=
    mapM_eq_ok_iff.2 (by rw [List.map_id, hcells])
  rw [merge, hmerged]
  rfl

/-- The average of workers that wrote nothing. -/
theorem WorkerRun.average_of_silent {runs : List (WorkerRun R)} (h : ∀ r ∈ runs, r.writes = [])
    (size : Nat) : average size runs = .ok (Array.replicate size Scalar.zero) := by
  have himages : runs.mapM (meanImage size) = .ok (runs.map fun _ => .blank size) := by
    rw [mapM_eq_ok_iff, List.map_map]
    refine List.map_congr_left fun r hr => ?_
    rw [meanImage, h r hr]
    rfl
  have hmeans : (runs.map fun _ => (.blank size : MeanImage R)).foldlM MeanImage.merge
      (.blank size) = .ok (.blank size) := by
    clear himages h
    induction runs with
    | nil => rfl
    | cons r runs ih =>
      rw [List.map_cons, List.foldlM_cons, MeanImage.merge_blank]
      exact ih
  simp only [average, MeanImage.average, himages, hmeans, bind, Except.bind]
  rw [MeanImage.blank, Array.map_replicate]
  rfl

/-- As long as no value was written, the shared image is blank. -/
theorem Timeline.cells_of_silent (size : Nat) {s : Timeline R}
    (h : ∀ e ∈ s, e.2 = .start ∨ e.2 = .finish) :
    (image size s).cells = Array.replicate size Scalar.zero := by
  induction s using List.reverseRecOn with
  | nil => rfl
  | append_singleton s e ih =>
    obtain ⟨i, e⟩ := e
    have hlast : e = .start ∨ e = .finish := h (i, e) (List.mem_append_right _ List.mem_cons_self)
    rw [image_concat, ← ih fun e he => h e (List.mem_append_left _ he)]
    rcases hlast with rfl | rfl <;> rfl

/-! ## Workers -/

variable [Trig R] {plan : Plan R} {view : View R} {b : Baseline R}

namespace Worker

/-- **An interrupted worker has written the first values of the quiet one.** -/
theorem writes_prefix_quiet (plan : Plan R) (view : View R) (b : Baseline R) :
    (run plan view b).writes <+: (run plan.quiet view b).writes :=
  List.reverse_prefix.2 (Walk.writes_along_suffix (track plan view b))

/-- **A worker that was not interrupted is the quiet one.** -/
theorem run_quiet (h : (run plan view b).walk.isInterrupted = false) :
    run plan view b = run plan.quiet view b := by
  have hwalk : Walk.along (track plan view b) = Walk.along (track plan.quiet view b) :=
    Walk.along_of_isInterrupted h
  simp only [run, hwalk]
  rfl

/-- A worker that was interrupted starts, writes its values and ends. -/
theorem events_of_interrupted (h : (run plan view b).walk.isInterrupted = true) :
    (run plan view b).events =
      .start :: ((run plan view b).writes.map fun w => .write w.cell w.value) ++ [.finish] := by
  have hhalt : (run plan view b).walk.halt = some .interrupted := by
    simpa [Walk.isInterrupted] using h
  rw [WorkerRun.events, Walk.isPanicked, hhalt]
  rfl

/-- **A worker whose flag was set beforehand** looks at nothing. -/
theorem walk_of_set (hset : plan.isInterrupted b.name 0 = true) :
    (run plan view b).walk =
      { halt := if 0 < (track plan view b).total then some .interrupted else none } :=
  Walk.along_of_set hset

end Worker

/-! ## Crews -/

namespace Crew

variable {ceiling : Nat} {baselines : List (Baseline R)} {c : Crew R}

/-- **All workers end but those that panicked.** -/
theorem Reaches.active_of_complete (hc : Reaches plan view ceiling baselines c)
    (hdone : c.Complete) : c.shared.active = baselines.countP (Panics plan view) := by
  have hcount (l : List (Baseline R)) :
      (l.map (Thread.counted ∘ gone plan view)).sum = l.countP (Panics plan view) := by
    induction l with
    | nil => rfl
    | cons b l ih =>
      rw [List.map_cons, List.sum_cons, ih, List.countP_cons, Nat.add_comm]
      show _ + (Panics plan view b).toNat = _
      cases Panics plan view b <;> rfl
  rw [hc.balanced.active, counted, hc.threads_eq_of_complete hdone, List.map_map, hcount]

/-- Workers that write nothing leave an image of zeros. -/
theorem Reaches.image_of_silent (hfits : Extent.Fits plan.width plan.height)
    (hc : Reaches plan view ceiling baselines c) (hdone : c.Complete)
    (hsilent : ∀ b ∈ baselines, (Worker.run plan view b).writes = []) :
    c.image plan = .ok (Array.replicate (plan.width * plan.height) Scalar.zero) := by
  cases hmode : plan.accumulation with
  | deterministic =>
    rw [image_of_deterministic hfits hmode hc hdone, Plot.image_of_fits hfits, hmode]
    exact WorkerRun.average_of_silent (List.forall_mem_map.2 hsilent) _
  | interleaved =>
    obtain ⟨s, haccount⟩ := hc.exists_account hmode
    rw [image, hmode, haccount.shared]
    refine congrArg Except.ok (cells_of_silent _ fun e he => ?_)
    obtain ⟨i, e⟩ := e
    obtain ⟨r, hr, he⟩ := haccount.interleaving.mem_iff.1 he
    obtain ⟨b, hb, rfl⟩ := List.mem_map.1 (List.mem_of_getElem? hr)
    obtain ⟨k, hk⟩ := List.mem_iff_getElem?.1 (List.mem_of_mem_take he)
    rcases WorkerRun.getElem?_events hk with ⟨-, h⟩ | ⟨-, -, w, hw, -⟩ | ⟨-, h⟩
    · exact .inl h
    · rw [hsilent b hb] at hw
      cases hw
    · exact .inr h

end Crew

/-! ## Plots -/

namespace Network

variable {n : Network R} {ceiling : Nat} {c : Crew R}

/-- A plot none of whose workers was interrupted is the plot without a flag. -/
theorem plot_quiet (hfits : n.Fits plan) (h : ∀ b ∈ (n.configured plan).baselines.toList,
    (Worker.run plan n.settle.1.view b).walk.isInterrupted = false) :
    n.plot plan = n.plot plan.quiet := by
  have hquiet : n.Fits plan.quiet := hfits
  have hruns : (n.configured plan).baselines.map (Worker.run plan n.settle.1.view) =
      (n.configured plan).baselines.map (Worker.run plan.quiet n.settle.1.view) :=
    Roster.map_congr fun b hb => Worker.run_quiet (h b hb)
  have hconfigured : n.configured plan.quiet = n.configured plan := rfl
  rw [plot, plot, onBaselines_configure hfits, onBaselines_configure hquiet, hconfigured,
    Plot.integrate, Plot.integrate, Call.on_bind, Call.on_bind, Call.on_get]
  dsimp only
  rw [hruns]
  rfl

omit [Scalar R] [Trig R] in
theorem interrupted_outcome_iff {f : Baseline R → WorkerRun R} {l : List (Baseline R)} :
    (Plot.outcome (l.map f)).interrupted = true ↔ ∃ b ∈ l, (f b).walk.isInterrupted = true := by
  simp only [Plot.outcome, List.any_map, List.any_eq_true, Function.comp_apply]

/-- A plot that was not interrupted is the plot without a flag. -/
theorem Interleaves.plot_of_not_interrupted (hc : n.Interleaves plan ceiling c)
    (hdone : c.Complete) {cube : Cube R} {o : Outcome}
    (hresult : c.result plan (n.configured plan) = .ok (cube, o)) (hnot : o.interrupted = false) :
    (n.plot plan.quiet).2.map Prod.snd = .ok o ∧
      (plan.accumulation = .deterministic → (n.plot plan.quiet).2 = .ok (cube, o)) := by
  have hplot : n.plot plan = n.plot plan.quiet := plot_quiet hc.fits fun b hb => by
    by_contra hset
    rw [← (hc.eq_of_result hdone hresult).2,
      interrupted_outcome_iff.2 ⟨b, hb, by simpa using hset⟩] at hnot
    cases hnot
  refine ⟨?_, fun hmode => ?_⟩
  · rw [← hplot, ← hc.outcome_eq_plot hdone, hresult]
    rfl
  · rw [← hplot, ← hc.result_eq_of_image hdone (hc.image_eq hdone (.inl hmode)), hresult]

/-- Interrupted workers look at no more steps and write no more values. -/
theorem outcome_le_quiet (plan : Plan R) (view : View R) (l : List (Baseline R)) :
    let o := Plot.outcome (l.map (Worker.run plan view))
    let quiet := Plot.outcome (l.map (Worker.run plan.quiet view))
    o.steps ≤ quiet.steps ∧ o.pixels ≤ quiet.pixels := by
  simp only [Plot.outcome, Plot.total_eq_sum, List.map_map]
  refine ⟨List.sum_le_sum fun b _ => ?_, List.sum_le_sum fun b _ => ?_⟩
  · exact Walk.steps_along_le (Worker.track plan view b)
  · exact (Worker.writes_prefix_quiet plan view b).length_le

/-- **A plot whose flag was set beforehand.** -/
theorem Interleaves.result_of_set (hc : n.Interleaves plan ceiling c) (hdone : c.Complete)
    (hset : ∀ b ∈ (n.configured plan).baselines.toList, plan.isInterrupted b.name 0 = true) :
    let baselines := (n.configured plan).baselines.toList
    c.shared.active = 0 ∧
    ∃ cube, c.result plan (n.configured plan) = .ok (cube,
        { baselines := baselines.length, steps := 0, pixels := 0
          interrupted := baselines.any fun b =>
            0 < (Worker.track plan n.settle.1.view b).total }) ∧
      cube.samples = Array.replicate (plan.width * plan.height) Scalar.zero := by
  intro baselines
  have hwalk (b) (hb : b ∈ baselines) :
      (Worker.run plan n.settle.1.view b).walk = { halt := if 0 <
        (Worker.track plan n.settle.1.view b).total then some .interrupted else none } :=
    Worker.walk_of_set (hset b hb)
  have hcalm (b) (hb : b ∈ baselines) : Crew.Panics plan n.settle.1.view b = false := by
    show (Worker.run plan n.settle.1.view b).walk.isPanicked = false
    rw [hwalk b hb, Walk.isPanicked]
    split_ifs <;> rfl
  have hsilent (b) (hb : b ∈ baselines) : (Worker.run plan n.settle.1.view b).writes = [] := by
    rw [WorkerRun.writes, hwalk b hb]
    rfl
  have hnone : baselines.find? (Crew.Panics plan n.settle.1.view) = none :=
    List.find?_eq_none.2 fun b hb => by simp [hcalm b hb]
  have houtcome : Plot.outcome (baselines.map (Worker.run plan n.settle.1.view)) =
      { baselines := baselines.length, steps := 0, pixels := 0
        interrupted := baselines.any fun b =>
          0 < (Worker.track plan n.settle.1.view b).total } := by
    simp only [Plot.outcome, Plot.total_eq_sum, List.map_map, List.length_map, List.any_map,
      Outcome.mk.injEq, true_and]
    refine ⟨List.sum_eq_zero fun k hk => ?_, List.sum_eq_zero fun k hk => ?_, ?_⟩
    · obtain ⟨b, hb, rfl⟩ := List.mem_map.1 hk
      rw [Function.comp_apply, WorkerRun.steps, hwalk b hb]
    · obtain ⟨b, hb, rfl⟩ := List.mem_map.1 hk
      rw [Function.comp_apply, hsilent b hb, List.length_nil]
    · rw [Bool.eq_iff_iff, List.any_eq_true, List.any_eq_true]
      refine exists_congr fun b => and_congr_right fun hb => ?_
      rw [Function.comp_apply, hwalk b hb, Walk.isInterrupted]
      split_ifs with hpos <;> simp [hpos]
  have hthreads := hc.reaches.threads_eq_of_complete hdone
  have himage := hc.reaches.image_of_silent hc.fits.2 hdone hsilent
  obtain ⟨cube, hanswer, hsamples, -⟩ := Plot.exists_answer (s := n.configured plan) hc.fits.2
    (hc.size_image himage) (Plot.outcome (baselines.map (Worker.run plan n.settle.1.view)))
  refine ⟨?_, cube, ?_, hsamples⟩
  · rw [hc.reaches.active_of_complete hdone, List.countP_eq_zero]
    exact fun b hb => by simp [hcalm b hb]
  · rw [Crew.result_of_no_panic _ hthreads hnone, himage, hanswer, houtcome]

/-- **Interrupted runs are prefixes.** Along any track, with leaps or without, and whatever a walk
is answered when it asks its flag:

* Its writes are the first ones of the walk along the same track under a flag that is never set, and
  it looks at no more steps and writes no more values than that walk.
* It is interrupted exactly when the flag was set at a turn that it passes through, before the last
  step; these turns are as many as the steps that the quiet walk looks at. If it is not interrupted,
  it is the quiet walk.

So a worker that was interrupted has written the first values of the quiet one, and then ends; a
worker that was not interrupted is the quiet one. For a plot whose workers interleave in any way:

* Of the shared image, nobody is counted as active in the end but the workers that panicked.
* The plot was interrupted exactly when one of its workers was. It looks at no more steps and writes
  no more values than the quiet workers. If it was not interrupted, it ends with the outcome of the
  plot without a flag, in the deterministic mode with its image as well.
* When the flag was set beforehand, nobody panics and all workers end, no step is looked at, and the
  image has nothing but zeros in both modes. -/
theorem interrupted_runs_are_prefixes :
    (∀ t : Track R,
      (Walk.along t).writes.reverse <+: (Walk.along t.quiet).writes.reverse ∧
      (Walk.along t).steps ≤ (Walk.along t.quiet).steps ∧
      (Walk.along t).writes.length ≤ (Walk.along t.quiet).writes.length ∧
      ((Walk.along t).isInterrupted = true ↔ ∃ w, Walk.Reached t w ∧ Walk.FindsSet t w) ∧
      ((Walk.along t).isInterrupted = true ↔
        ∃ k < (Walk.along t.quiet).steps, t.interrupted k = true) ∧
      ((Walk.along t).isInterrupted = false → Walk.along t = Walk.along t.quiet)) ∧
    (∀ (plan : Plan R) (view : View R) (b : Baseline R),
      let r := Worker.run plan view b
      r.writes <+: (Worker.run plan.quiet view b).writes ∧
      (r.walk.isInterrupted = false → r = Worker.run plan.quiet view b) ∧
      (r.walk.isInterrupted = true → r.events =
        .start :: (r.writes.map fun w => .write w.cell w.value) ++ [.finish])) ∧
    ∀ (n : Network R) (plan : Plan R) (ceiling : Nat) (c : Crew R),
      n.Interleaves plan ceiling c → c.Complete →
      let baselines := (n.configured plan).baselines.toList
      let run := Worker.run plan n.settle.1.view
      let quiet := Plot.outcome (baselines.map (Worker.run plan.quiet n.settle.1.view))
      c.shared.active = baselines.countP (Crew.Panics plan n.settle.1.view) ∧
      (∀ cube o, c.result plan (n.configured plan) = .ok (cube, o) →
        (o.interrupted = true ↔ ∃ b ∈ baselines, (run b).walk.isInterrupted = true) ∧
        o.steps ≤ quiet.steps ∧ o.pixels ≤ quiet.pixels ∧
        (o.interrupted = false →
          (n.plot plan.quiet).2.map Prod.snd = .ok o ∧
          (plan.accumulation = .deterministic → (n.plot plan.quiet).2 = .ok (cube, o)))) ∧
      ((∀ b ∈ baselines, plan.isInterrupted b.name 0 = true) →
        c.shared.active = 0 ∧
        ∃ cube, c.result plan (n.configured plan) = .ok (cube,
            { baselines := baselines.length, steps := 0, pixels := 0
              interrupted := baselines.any fun b =>
                0 < (Worker.track plan n.settle.1.view b).total }) ∧
          cube.samples = Array.replicate (plan.width * plan.height) Scalar.zero) := by
  refine ⟨fun t => ?_, fun plan view b => ?_, fun n plan ceiling c hc hdone => ?_⟩
  · have hsuffix := Walk.writes_along_suffix t
    exact ⟨List.reverse_prefix.2 hsuffix, Walk.steps_along_le t, hsuffix.length_le,
      Walk.isInterrupted_along_iff_findsSet, Walk.isInterrupted_along_iff_exists_lt,
      Walk.along_of_isInterrupted⟩
  · exact ⟨Worker.writes_prefix_quiet plan view b, Worker.run_quiet, Worker.events_of_interrupted⟩
  · intro baselines run quiet
    refine ⟨hc.reaches.active_of_complete hdone, fun cube o hresult => ?_,
      hc.result_of_set hdone⟩
    obtain ⟨-, rfl⟩ := hc.eq_of_result hdone hresult
    obtain ⟨hsteps, hpixels⟩ := outcome_le_quiet plan n.settle.1.view baselines
    exact ⟨interrupted_outcome_iff, hsteps, hpixels,
      hc.plot_of_not_interrupted hdone hresult⟩

end Network

end

/-- The flag is set for one question, asked between a leap and the way back. -/
def Walk.halfway : Track Binary64 := { narrowing with interrupted := fun n => n == 5 }

/-- A flag that was set before the plot. -/
def Plan.halted : Plan ℚ :=
  { Plan.hourly with accumulation := .interleaved, interrupt := some fun _ _ => true }

theorem Network.interrupted_runs_are_prefixes_halfway :
    (Walk.along Walk.halfway).marks = [(3, 1), (0, 0)] ∧
    (Walk.along Walk.halfway.quiet).marks = [(5, 2), (3, 1), (0, 0)] ∧
    (Walk.along Walk.halfway).writes.reverse <+: (Walk.along Walk.halfway.quiet).writes.reverse ∧
    (Walk.along Walk.halfway).isInterrupted = true ∧ (Walk.along Walk.halfway).steps = 5 ∧
    ∃ c, returning.Interleaves .halted 2 c ∧ c.Complete ∧ c.shared.active = 0 ∧
      ∃ cube, c.result .halted (returning.configured .halted) =
          .ok (cube, { baselines := 3, steps := 0, pixels := 0, interrupted := true }) ∧
        cube.samples = Array.replicate 16 0 := by
  obtain ⟨htracks, -, -⟩ := interrupted_runs_are_prefixes (R := Binary64)
  obtain ⟨-, -, hplots⟩ := interrupted_runs_are_prefixes (R := ℚ)
  obtain ⟨hstart, -, -, -, hasked, -⟩ := htracks Walk.halfway
  have hstop : Walk.along Walk.halfway = Walk.after Walk.halfway 6 := Walk.along_eq_after rfl
  have hquiet : Walk.along Walk.halfway.quiet = Walk.after Walk.halfway.quiet 9 :=
    Walk.along_eq_after rfl
  have hfits : returning.Fits .halted := by decide +kernel
  obtain ⟨c, hc, hdone, -⟩ := exists_interleaving hfits 2
  obtain ⟨hactive, cube, hresult, hcells⟩ :=
    (hplots returning .halted 2 c hc hdone).2.2 fun _ _ => rfl
  have hlength : (returning.configured .halted).baselines.toList.length = 3 := by decide +kernel
  have hsteps : ((returning.configured .halted).baselines.toList.any fun b =>
      0 < (Worker.track .halted returning.settle.1.view b).total) = true := by decide +kernel
  rw [hlength, hsteps] at hresult
  refine ⟨?_, ?_, hstart, hasked.2 ⟨5, ?_, rfl⟩, ?_, c, hc, hdone, hactive, cube, hresult, ?_⟩
  · rw [hstop]
    rfl
  · rw [hquiet]
    rfl
  · rw [hquiet]
    decide
  · rw [hstop]
    rfl
  · rw [hcells]
    rfl

end Aperture
