import Aperture.Binary64
import Aperture.Proofs.Plot.Crew
import Aperture.Proofs.Plot.Parts

/-!
# Plots do not depend on the schedule

A complete crew has no freedom left but in the cells of the shared image
(`Reaches.threads_eq_of_complete`), so the answer of a plot is the one of `Network.plot`, where the
workers run one after the other.

Main results: `plot_of_any_schedule`. Every run of the crew can be completed and none is endless;
when it is complete, the outcome is that of the plot, in the deterministic mode the image is too,
and a panic is reported for the first baseline in the order of the baselines. The schedule that
spawns a thread when the one before is gone gives the answer of the plot in the interleaved mode as
well.
-/

namespace Aperture

namespace Crew

variable {R : Type}

/-! ## Threads in order -/

/-- Before a thread is spawned, those before it are gone. -/
def InOrder (c : Crew R) : Prop :=
  ∀ (i j : Nat) (th th' : Thread R), i < j → c.threads[i]? = some th →
    c.threads[j]? = some th' → th'.phase ≠ .waiting → th.phase = .gone

theorem InOrder.set {c : Crew R} (hinorder : c.InOrder) {i : Nat} {th' : Thread R}
    (hbefore : ∀ j th, j < i → c.threads[j]? = some th → th.phase = .gone)
    (hbehind : ∀ j th, i < j → c.threads[j]? = some th → th.phase = .waiting) :
    InOrder { c with threads := c.threads.set i th' } := by
  intro j k th d hjk hj hk hspawned
  simp only [List.getElem?_set] at hj hk
  split at hj
  · next hij =>
    rw [if_neg (by omega)] at hk
    exact absurd (hbehind k d (by omega) hk) hspawned
  · split at hk
    · next hik => exact hbefore j th (by omega) hj
    · exact hinorder j k th d hjk hj hk hspawned

variable [Scalar R]

/-- What the threads did to the shared image, as if they had done it in their order. -/
def Ordered (plan : Plan R) (c : Crew R) : Prop :=
  c.shared = (c.threads.flatMap (Thread.events plan)).foldl SharedImage.apply
    (.blank (plan.width * plan.height))

theorem inOrder_start (plan : Plan R) (ceiling : Nat) (baselines : List (Baseline R)) :
    (start plan ceiling baselines).InOrder := by
  intro i j th th' _ _ hj hspawned
  simp only [start, List.getElem?_map, Option.map_eq_some_iff] at hj
  obtain ⟨b, -, rfl⟩ := hj
  exact absurd rfl hspawned

theorem ordered_start (plan : Plan R) (ceiling : Nat) (baselines : List (Baseline R)) :
    (start plan ceiling baselines).Ordered plan := by
  have hnone : (baselines.map (Thread.new plan)).flatMap (Thread.events plan) = [] := by
    refine List.flatMap_eq_nil_iff.2 fun th hmem => ?_
    obtain ⟨b, -, rfl⟩ := List.mem_map.1 hmem
    rfl
  show SharedImage.blank _ = _
  rw [start, hnone]
  rfl

/-! ## The answer of a crew -/

/-- What the workers report, in the order of the baselines. -/
def reports (c : Crew R) : List (WorkerRun R) := c.threads.map fun th => ⟨th.baseline, th.walk⟩

/-- The image of a crew whose threads are gone. -/
def image (plan : Plan R) (c : Crew R) : Result (Array R) :=
  match plan.accumulation with
  | .interleaved => .ok c.shared.cells
  | .deterministic =>
    MeanImage.average (c.threads.filterMap Thread.own) (plan.width * plan.height)

/-- What the main thread answers when all threads are gone. -/
def result (plan : Plan R) (set : BaselineSet R) (c : Crew R) : Result (Cube R × Outcome) :=
  match c.threads.find? fun th => th.walk.isPanicked with
  | some th => fail (.workerPanicked th.baseline.name)
  | none => ((Plot.answer (c.image plan) (Plot.outcome c.reports)).on set).1

theorem failsOnOverflow_image (plan : Plan R) (c : Crew R) : FailsOnOverflow (c.image plan) := by
  unfold image
  split
  · exact .ok _
  · exact MeanImage.failsOnOverflow_average _ _

variable [Trig R] {plan : Plan R} {view : View R} {ceiling : Nat}
  {baselines : List (Baseline R)} {c c' : Crew R}

/-! ## Complete crews -/

/-- The thread of a baseline when it is gone. -/
def gone (plan : Plan R) (view : View R) (b : Baseline R) : Thread R where
  baseline := b
  phase := .gone
  walk := Walk.along (Worker.track plan view b)
  own := (Thread.gathered plan (Walk.along (Worker.track plan view b)).writes).bind
    Except.toOption

theorem eq_gone_of_sound {th : Thread R} (hth : th.Sound plan view) (hphase : th.phase = .gone) :
    th = gone plan view th.baseline := by
  obtain ⟨hnext, hpending⟩ := hth.ended (.inr hphase)
  have hwalk := hth.reached.eq_along hnext
  have hown : th.own = (Thread.gathered plan th.stored).bind Except.toOption := by
    rw [← hth.own]
    cases th.own <;> rfl
  rw [Thread.stored_of_none hpending, hwalk] at hown
  obtain ⟨b, phase, walk, own, pending⟩ := th
  simp only at hphase hpending hwalk hown
  rw [hphase, hpending, hown, hwalk]
  rfl

/-- **The threads of a complete crew are known.** -/
theorem Reaches.threads_eq_of_complete (hc : Reaches plan view ceiling baselines c)
    (hdone : c.Complete) : c.threads = baselines.map (gone plan view) := by
  have hgone (th) (hmem : th ∈ c.threads) : gone plan view th.baseline = th :=
    (eq_gone_of_sound (hc.sound th hmem) (hdone.2.2 th hmem)).symm
  calc c.threads = c.threads.map fun th => gone plan view th.baseline := by
        rw [List.map_congr_left hgone, List.map_id']
    _ = baselines.map (gone plan view) := by rw [← hc.baselines_eq, List.map_map]; rfl

/-- A thread that shares its values did to the shared image what its worker does. -/
theorem events_gone (hmode : plan.accumulation = .interleaved) (b : Baseline R) :
    (gone plan view b).events plan = (Worker.run plan view b).events := by
  simp only [Thread.events, gone, Thread.sharing, hmode]
  rfl

/-- The first thread that panicked is that of the first baseline concerned. -/
theorem find?_threads (hthreads : c.threads = baselines.map (gone plan view)) :
    (c.threads.find? fun th => th.walk.isPanicked) =
      (baselines.find? (Panics plan view)).map (gone plan view) := by
  rw [hthreads, List.find?_map]
  rfl

theorem result_of_panic (set : BaselineSet R)
    (hthreads : c.threads = baselines.map (gone plan view)) {b : Baseline R}
    (h : baselines.find? (Panics plan view) = some b) :
    c.result plan set = fail (.workerPanicked b.name) := by
  simp only [result, find?_threads hthreads, h, Option.map_some]
  rfl

theorem outcome_reports (hthreads : c.threads = baselines.map (gone plan view)) :
    Plot.outcome c.reports = Plot.outcome (baselines.map (Worker.run plan view)) := by
  simp only [reports, hthreads, List.map_map, Plot.outcome, Plot.total, List.length_map,
    List.foldl_map, List.any_map]
  rfl

theorem result_of_no_panic (set : BaselineSet R)
    (hthreads : c.threads = baselines.map (gone plan view))
    (h : baselines.find? (Panics plan view) = none) :
    c.result plan set = ((Plot.answer (c.image plan)
      (Plot.outcome (baselines.map (Worker.run plan view)))).on set).1 := by
  simp only [result, find?_threads hthreads, h, Option.map_none, outcome_reports hthreads]

/-- The image of a thread that is gone is that of its worker. -/
theorem own_of_gone {th : Thread R} (hth : th.Sound plan view)
    (hphase : th.phase = .gone) (hmode : plan.accumulation = .deterministic) : ∃ own,
      th.own = some own ∧ WorkerRun.meanImage (plan.width * plan.height)
        (Worker.run plan view th.baseline) = .ok own := by
  obtain ⟨hnext, hpending⟩ := hth.ended (.inr hphase)
  have hown := hth.own
  rw [Thread.stored_of_none hpending, hth.reached.eq_along hnext] at hown
  simp only [Thread.gathered, hmode] at hown
  obtain ⟨own, hthread, hworker⟩ := Option.map_eq_some_iff.1 hown
  exact ⟨own, hthread, hworker.symm⟩

/-- In the deterministic mode nothing of the image is left to the schedule. -/
theorem image_of_deterministic (hfits : Extent.Fits plan.width plan.height)
    (hmode : plan.accumulation = .deterministic) (hc : Reaches plan view ceiling baselines c)
    (hdone : c.Complete) :
    c.image plan = Plot.image plan (baselines.map (Worker.run plan view)) := by
  have hown : (baselines.map (Worker.run plan view)).map
      (WorkerRun.meanImage (plan.width * plan.height)) =
        (c.threads.filterMap Thread.own).map .ok := by
    have hsound := hc.sound
    have hgone := hdone.2.2
    rw [← hc.baselines_eq]
    generalize c.threads = threads at hsound hgone ⊢
    induction threads with
    | nil => rfl
    | cons th threads ih =>
      rw [List.forall_mem_cons] at hsound hgone
      obtain ⟨own, hthread, hworker⟩ := own_of_gone hsound.1 hgone.1 hmode
      rw [List.filterMap_cons_some hthread, List.map_cons, List.map_cons, List.map_cons,
        List.map_cons, hworker, ih hsound.2 hgone.2]
  rw [Plot.image_of_fits hfits]
  simp only [image, hmode, WorkerRun.average, mapM_eq_ok_iff.2 hown]
  rfl

/-! ## One thread after the other -/

/-- When a thread moves while those before it are gone, all threads behind it wait. -/
theorem Ordered.move (hordered : c.Ordered plan) (hinorder : c.InOrder) {i : Nat}
    {th th' : Thread R} {a : Thread.Action R} (hth : c.threads[i]? = some th)
    (hsound : th.Sound plan view) (hphase : th.phase ≠ .gone)
    (hmove : Thread.Move plan view th a th') :
    Ordered plan { c.act a with threads := c.threads.set i th' } := by
  obtain ⟨hi, hget⟩ := List.getElem?_eq_some_iff.1 hth
  have hsplit : c.threads = c.threads.take i ++ th :: c.threads.drop (i + 1) := by
    rw [← hget, List.getElem_cons_drop, List.take_append_drop]
  have hbehind : (c.threads.drop (i + 1)).flatMap (Thread.events plan) = [] := by
    refine List.flatMap_eq_nil_iff.2 fun d hmem => ?_
    obtain ⟨j, hj⟩ := List.mem_iff_getElem?.1 hmem
    rw [List.getElem?_drop] at hj
    refine Thread.events_of_waiting (by_contra fun hwaits => hphase ?_)
    exact hinorder i (i + 1 + j) th d (by omega) hth hj hwaits
  have hbefore : c.threads.flatMap (Thread.events plan) =
      (c.threads.take i).flatMap (Thread.events plan) ++ th.events plan := by
    conv_lhs => rw [hsplit]
    simp [hbehind]
  have hafter : (c.threads.set i th').flatMap (Thread.events plan) =
      c.threads.flatMap (Thread.events plan) ++ a.events := by
    rw [hbefore, List.set_eq_take_append_cons_drop, if_pos hi]
    simp [hbehind, hsound.events_move hmove]
  show (c.act a).shared = _
  rw [shared_act, hafter, List.foldl_append, ← hordered]

/-- A thread that is spawned while no thread has a slot comes behind all others. -/
theorem Reaches.inOrder_spawn (hc : Reaches plan view ceiling baselines c)
    (hP : c.InOrder ∧ c.Ordered plan) (hidle : ∀ th ∈ c.threads, th.slots = 0) {th : Thread R}
    (hth : c.threads[c.spawned]? = some th) :
    let d := { c with
      threads := c.threads.set c.spawned { th with phase := .spawned }
      spawned := c.spawned + 1
      ready := false }
    d.InOrder ∧ d.Ordered plan := by
  obtain ⟨hinorder, hordered⟩ := hP
  refine ⟨?_, ?_⟩
  · apply hinorder.set
    · intro j d hj hd
      apply Thread.gone_of_slots (hidle d (List.mem_of_getElem? hd))
      intro hwaits
      exact absurd ((hc.balanced.waiting j d hd).1 hwaits) (Nat.not_le.2 hj)
    · intro j d hj hd
      exact (hc.balanced.waiting j d hd).2 (Nat.le_of_lt hj)
  · have hnone : { th with phase := Thread.Phase.spawned }.events plan = th.events plan := by
      simp only [Thread.events, hc.balanced.next_waits hth]
    unfold Ordered at hordered ⊢
    rw [List.flatMap_def] at hordered ⊢
    rw [map_set_of_eq hth hnone]
    exact hordered

/-- A thread that moves comes behind those that are gone, and the others wait. -/
theorem Reaches.inOrder_move (hc : Reaches plan view ceiling baselines c)
    (hP : c.InOrder ∧ c.Ordered plan) {i : Nat} {th th' : Thread R} {a : Thread.Action R}
    (hth : c.threads[i]? = some th) (hmove : Thread.Move plan view th a th') :
    let d := { c.act a with threads := c.threads.set i th' }
    d.InOrder ∧ d.Ordered plan := by
  obtain ⟨hinorder, hordered⟩ := hP
  have hhere := Thread.not_gone_of_slots hmove.slots_ne_zero
  have hsound := hc.sound th (List.mem_of_getElem? hth)
  refine ⟨?_, hordered.move hinorder hth hsound hhere hmove⟩
  have hset : InOrder { c with threads := c.threads.set i th' } := by
    apply hinorder.set
    · intro j d hj hd
      exact hinorder j i d th hj hd hth hmove.not_waiting.1
    · intro j d hj hd
      by_contra hwaits
      exact hhere (hinorder i j th d hj hth hd hwaits)
  exact hset

/-- Threads that run one after the other are not stuck. -/
theorem Reaches.inOrder_step (hc : Reaches plan view ceiling baselines c)
    (hP : c.InOrder ∧ c.Ordered plan) :
    c.Complete ∨ ∃ d, Step plan view c d ∧ d.InOrder ∧ d.Ordered plan := by
  by_cases hidle : ∀ th ∈ c.threads, th.slots = 0
  · rcases hc.balanced.complete_or_main hidle with hdone | ⟨_, -, hstep⟩ | ⟨th, hready, hth⟩
    · exact .inl hdone
    · exact .inr ⟨_, hstep, hP⟩
    · exact .inr ⟨_, .spawn hready hth, hc.inOrder_spawn hP hidle hth⟩
  · obtain ⟨i, th, a, th', hi, -, hmove⟩ := exists_move_of_busy hc.sound hidle
    exact .inr ⟨_, .move hi hmove, hc.inOrder_move hP hi hmove⟩

/-- Under a ceiling of one, threads cannot but run one after the other. -/
theorem Reaches.inOrder_of_one (hone : Slots.atLeastOne ceiling = 1)
    (hc : Reaches plan view ceiling baselines c) : c.InOrder ∧ c.Ordered plan := by
  induction hc with
  | refl => exact ⟨inOrder_start plan ceiling baselines, ordered_start plan ceiling baselines⟩
  | @tail c _ hprev hstep ih =>
    have hc : Reaches plan view ceiling baselines c := hprev
    cases hstep with
    | acquire _ _ _ => exact ih
    | spawn hready hth =>
      -- The main thread holds the only slot, so no thread has one.
      have hslots := hc.balanced.slots
      rw [hc.balanced.ceiling, hone, held, hready, Bool.toNat_true] at hslots
      have hnone : (c.threads.map Thread.slots).sum = 0 := by omega
      refine hc.inOrder_spawn ih (fun th hmem => ?_) hth
      exact List.sum_eq_zero_iff_forall_eq_nat.1 hnone _ (List.mem_map_of_mem hmem)
    | move hth hmove => exact hc.inOrder_move ih hth hmove

/-- In the order of the threads, the shared image is that of the workers one after the other. -/
theorem image_of_ordered (hfits : Extent.Fits plan.width plan.height) (hordered : c.Ordered plan)
    (hc : Reaches plan view ceiling baselines c) (hdone : c.Complete) :
    c.image plan = Plot.image plan (baselines.map (Worker.run plan view)) := by
  cases hmode : plan.accumulation with
  | deterministic => exact image_of_deterministic hfits hmode hc hdone
  | interleaved =>
    rw [Plot.image_of_fits hfits]
    simp only [image, hmode]
    rw [hordered, hc.threads_eq_of_complete hdone, List.flatMap_map, List.flatMap_map]
    simp only [events_gone hmode]

theorem exists_inOrder (plan : Plan R) (view : View R) (ceiling : Nat)
    (baselines : List (Baseline R)) :
    ∃ c, Relation.ReflTransGen (fun c d => Step plan view c d ∧ d.InOrder)
        (start plan ceiling baselines) c ∧ c.Complete ∧ c.Ordered plan := by
  have hstart : Reaches plan view ceiling baselines (start plan ceiling baselines) := .refl
  obtain ⟨c, hrun, hdone, -, hordered⟩ := hstart.exists_complete
    (P := fun c => c.InOrder ∧ c.Ordered plan) (fun c hc hP => hc.inOrder_step hP)
    ⟨inOrder_start plan ceiling baselines, ordered_start plan ceiling baselines⟩
  exact ⟨c, Relation.ReflTransGen.mono (fun _ _ h => ⟨h.1, h.2.1⟩) _ _ hrun, hdone, hordered⟩

end Crew

/-! ## Plots -/

section

variable {R : Type} [Scalar R] {n : Network R} {plan : Plan R} {ceiling : Nat} {c d : Crew R}

/-- An interleaving of the workers of a plot comes to `c`. There are no workers before the image of
the plot has its size. -/
structure Network.Interleaves [Trig R] (n : Network R) (plan : Plan R) (ceiling : Nat)
    (c : Crew R) : Prop where
  fits : n.Fits plan
  reaches : Crew.Reaches plan n.settle.1.view ceiling (n.configured plan).baselines.toList c

namespace Network

variable [Trig R]

theorem Interleaves.result_eq_of_image (hc : n.Interleaves plan ceiling c)
    (hdone : c.Complete) (himage : c.image plan = Plot.image plan
      ((n.configured plan).baselines.toList.map (Worker.run plan n.settle.1.view))) :
    c.result plan (n.configured plan) = (n.plot plan).2 := by
  have hthreads := hc.reaches.threads_eq_of_complete hdone
  cases hpanic : (n.configured plan).baselines.toList.find? (Crew.Panics plan n.settle.1.view) with
  | some b => rw [Crew.result_of_panic _ hthreads hpanic, plot_of_panic hc.fits hpanic]
  | none => rw [Crew.result_of_no_panic _ hthreads hpanic, himage, plot_of_no_panic hc.fits hpanic]

/-- The cells have no freedom in the deterministic mode, and none under a ceiling of one. -/
theorem Interleaves.image_eq (hc : n.Interleaves plan ceiling c) (hdone : c.Complete)
    (hfixed : plan.accumulation = .deterministic ∨ ceiling ≤ 1) :
    c.image plan = Plot.image plan
      ((n.configured plan).baselines.toList.map (Worker.run plan n.settle.1.view)) := by
  rcases hfixed with hmode | hone
  · exact Crew.image_of_deterministic hc.fits.2 hmode hc.reaches hdone
  · have hceiling : Slots.atLeastOne ceiling = 1 := by
      rw [Slots.atLeastOne]
      omega
    exact Crew.image_of_ordered hc.fits.2 (hc.reaches.inOrder_of_one hceiling).2 hc.reaches hdone

theorem exists_sequential (hfits : n.Fits plan) (ceiling : Nat) :
    ∃ c, Relation.ReflTransGen (fun c d => Crew.Step plan n.settle.1.view c d ∧ d.InOrder)
        (Crew.start plan ceiling (n.configured plan).baselines.toList) c ∧
      c.Complete ∧ c.result plan (n.configured plan) = (n.plot plan).2 := by
  obtain ⟨c, hrun, hdone, hordered⟩ :=
    Crew.exists_inOrder plan n.settle.1.view ceiling (n.configured plan).baselines.toList
  have hc : n.Interleaves plan ceiling c :=
    ⟨hfits, Relation.ReflTransGen.mono (fun _ _ h => h.1) _ _ hrun⟩
  have himage := Crew.image_of_ordered hfits.2 hordered hc.reaches hdone
  exact ⟨c, hrun, hdone, hc.result_eq_of_image hdone himage⟩

/-- Some interleaving answers like the plot. -/
theorem exists_interleaving (hfits : n.Fits plan) (ceiling : Nat) :
    ∃ c, n.Interleaves plan ceiling c ∧ c.Complete ∧
      c.result plan (n.configured plan) = (n.plot plan).2 := by
  obtain ⟨c, hrun, hdone, hresult⟩ := exists_sequential hfits ceiling
  exact ⟨c, ⟨hfits, Relation.ReflTransGen.mono (fun _ _ h => h.1) _ _ hrun⟩, hdone, hresult⟩

/-- The cells may depend on the schedule, but not how many there are. -/
theorem Interleaves.size_image (hc : n.Interleaves plan ceiling c) {image : Array R}
    (himage : c.image plan = .ok image) :
    image.size = (n.configured plan).width * (n.configured plan).height := by
  unfold Crew.image at himage
  split at himage
  · obtain rfl := Except.ok.inj himage
    exact hc.reaches.size
  · exact MeanImage.size_average himage

/-- What a crew answers is made of its image and its workers. -/
theorem Interleaves.eq_of_result (hc : n.Interleaves plan ceiling c) (hdone : c.Complete)
    {cube : Cube R} {o : Outcome} (h : c.result plan (n.configured plan) = .ok (cube, o)) :
    c.image plan = .ok cube.samples ∧ Plot.outcome ((n.configured plan).baselines.toList.map
      (Worker.run plan n.settle.1.view)) = o := by
  have hthreads := hc.reaches.threads_eq_of_complete hdone
  cases hpanic : (n.configured plan).baselines.toList.find? (Crew.Panics plan n.settle.1.view) with
  | some b =>
    rw [Crew.result_of_panic _ hthreads hpanic] at h
    cases h
  | none =>
    rw [Crew.result_of_no_panic _ hthreads hpanic] at h
    obtain ⟨himage, houtcome, -⟩ :=
      Plot.eq_of_answer hc.fits.2 (fun _ himage => hc.size_image himage) h
    exact ⟨himage, houtcome⟩

theorem Interleaves.outcome_eq (hc : n.Interleaves plan ceiling c) (hdone : c.Complete)
    (hd : n.Interleaves plan ceiling d) (hdone' : d.Complete) :
    (c.result plan (n.configured plan)).map Prod.snd =
      (d.result plan (n.configured plan)).map Prod.snd := by
  cases hmode : plan.accumulation with
  | deterministic =>
    rw [hc.result_eq_of_image hdone (hc.image_eq hdone (.inl hmode)),
      hd.result_eq_of_image hdone' (hd.image_eq hdone' (.inl hmode))]
  | interleaved =>
    have hthreads := hc.reaches.threads_eq_of_complete hdone
    have hthreads' := hd.reaches.threads_eq_of_complete hdone'
    have himage (c : Crew R) : c.image plan = .ok c.shared.cells := by rw [Crew.image, hmode]
    cases hpanic : (n.configured plan).baselines.toList.find?
        (Crew.Panics plan n.settle.1.view) with
    | some b =>
      rw [Crew.result_of_panic _ hthreads hpanic, Crew.result_of_panic _ hthreads' hpanic]
    | none =>
      rw [Crew.result_of_no_panic _ hthreads hpanic, Crew.result_of_no_panic _ hthreads' hpanic,
        himage c, himage d, Plot.answer_map_snd hc.fits.2 (hc.size_image (himage c)),
        Plot.answer_map_snd hd.fits.2 (hd.size_image (himage d))]

/-- All complete crews have one outcome, and one of them answers like the plot. -/
theorem Interleaves.outcome_eq_plot (hc : n.Interleaves plan ceiling c) (hdone : c.Complete) :
    (c.result plan (n.configured plan)).map Prod.snd = (n.plot plan).2.map Prod.snd := by
  obtain ⟨d, hd, hdone', hresult⟩ := exists_interleaving hc.fits ceiling
  rw [hc.outcome_eq hdone hd hdone', hresult]

end Network

/-- **A plot does not depend on the schedule.** However the main thread and the workers interleave
under any ceiling, they are never stuck before all workers are gone, and no run goes on for ever.
When all workers are gone, all slots are free, and the outcome is that of the workers run one after
the other; in the deterministic mode the image is too. When workers panicked, the first of them in
the order of the baselines is reported. The workers run one after the other are themselves one of
the interleavings, with the image of the plot in both modes. A plot whose image does not fit into
the memory has no workers; it stops before. -/
theorem plot_of_any_schedule [Trig R] (n : Network R) (plan : Plan R) (ceiling : Nat) :
    (∀ c, n.Interleaves plan ceiling c →
      c.Complete ∨ ∃ d, Crew.Step plan n.settle.1.view c d) ∧
    (¬∃ f : Nat → Crew R, f 0 = Crew.start plan ceiling (n.configured plan).baselines.toList ∧
      ∀ k, Crew.Step plan n.settle.1.view (f k) (f (k + 1))) ∧
    (∀ c, n.Interleaves plan ceiling c → c.Complete →
      c.slots = .new ceiling ∧
      (c.result plan (n.configured plan)).map Prod.snd = (n.plot plan).2.map Prod.snd ∧
      (plan.accumulation = .deterministic →
        c.result plan (n.configured plan) = (n.plot plan).2) ∧
      ∀ before b behind, (n.configured plan).baselines.toList = before ++ b :: behind →
        Crew.Panics plan n.settle.1.view b = true →
        (∀ a ∈ before, Crew.Panics plan n.settle.1.view a = false) →
        c.result plan (n.configured plan) = fail (.workerPanicked b.name)) ∧
    (n.Fits plan →
      ∃ c, Relation.ReflTransGen (fun c d => Crew.Step plan n.settle.1.view c d ∧ d.InOrder)
          (Crew.start plan ceiling (n.configured plan).baselines.toList) c ∧
        c.Complete ∧ c.result plan (n.configured plan) = (n.plot plan).2) ∧
    (¬n.Fits plan → (n.plot plan).2 = abort .overflow) := by
  refine ⟨fun c hc => hc.reaches.complete_or_step, ?_, ?_,
    fun hfits => n.exists_sequential hfits ceiling, Network.plot_of_not_fits⟩
  · rintro ⟨f, hstart, hstep⟩
    exact Crew.no_endless_run f hstart hstep
  · intro c hc hdone
    have hthreads := hc.reaches.threads_eq_of_complete hdone
    refine ⟨hc.reaches.slots_of_complete hdone, hc.outcome_eq_plot hdone, ?_, ?_⟩
    · intro hmode
      exact hc.result_eq_of_image hdone (hc.image_eq hdone (.inl hmode))
    · intro before b behind hsplit hpanics hfirst
      apply Crew.result_of_panic _ hthreads
      rw [List.find?_eq_some_iff_append]
      exact ⟨hpanics, before, behind, hsplit, fun a ha => by simp [hfirst a ha]⟩

end

/-- Three stations with one sample each. -/
def Network.trio : Network Binary64 :=
  let station (name : String) (index : Nat) : Station Binary64 :=
    { name, index, recording := Cube.ofSamples #[Scalar.one] }
  { Network.empty with
    stations := .ofList [station "a" 0, station "b" 1, station "c" 2] }

/-- The default plan in the deterministic mode. -/
def Plan.averaging : Plan Binary64 := { Plan.default with accumulation := .deterministic }

theorem plot_of_any_schedule_trio :
    Network.trio.settle.2.baselines.toList.map Baseline.name = ["a_b", "a_c", "b_c"] ∧
    Network.trio.Fits .averaging ∧
    ∃ c, Network.trio.Interleaves .averaging 2 c ∧ c.Complete ∧
      c.result .averaging (Network.trio.configured .averaging) =
        (Network.trio.plot .averaging).2 := by
  have hfits : Network.trio.Fits .averaging := by decide
  refine ⟨by decide +kernel, hfits, ?_⟩
  obtain ⟨-, -, hcomplete, hsequential, -⟩ := plot_of_any_schedule Network.trio .averaging 2
  obtain ⟨c, hrun, hdone, -⟩ := hsequential hfits
  have hc : Network.trio.Interleaves .averaging 2 c :=
    ⟨hfits, Relation.ReflTransGen.mono (fun _ _ h => h.1) _ _ hrun⟩
  exact ⟨c, hc, hdone, (hcomplete c hc hdone).2.2.1 rfl⟩

end Aperture
