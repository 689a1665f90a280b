import Aperture.Proofs.Network.Reachable
import Aperture.Proofs.Plot.Means
import Aperture.Proofs.Roster.Indexed

/-!
# The parts of a plot

A plot sizes its image and applies the settings of its plan (`Plot.configure`), lets the workers run
(`Plot.integrate`) and stores their image (`Plot.answer`). What each part does:

* **Sizing** fails if the image does not fit into the memory, or does not fit with the height of the
  plot before, since the width is set first (`Plot.Fits`). Else the baselines are those of
  `Plot.configured`.
* **The workers** are followed by the report of the first panic, in the order of the baselines, or
  by the answer.
* **The answer** is a cube if there is an image of the size that was asked for.

Main results: `Network.plot_of_not_fits`, `Network.plot_of_panic` and `Network.plot_of_no_panic`,
which together say what a plot answers, and `Network.eq_of_plot`, which goes back from an answer.
-/

namespace Aperture

variable {R : Type} [Scalar R]

namespace Plot

/-! ## Sizing -/

/-- The image of a plan fits into the memory, also with the height that the baselines had. -/
def Fits (plan : Plan R) (s : BaselineSet R) : Prop :=
  Extent.Fits plan.width s.height ∧ Extent.Fits plan.width plan.height

instance (plan : Plan R) (s : BaselineSet R) : Decidable (Fits plan s) :=
  inferInstanceAs (Decidable (_ ∧ _))

/-- The baselines with the settings of a plan, and a blank image of its size. -/
def configured (plan : Plan R) (s : BaselineSet R) : BaselineSet R :=
  dress plan { s with width := plan.width, height := plan.height }.cleared

variable {plan : Plan R} {s : BaselineSet R}

theorem on_configure (h : Fits plan s) :
    (configure plan).on s = (.ok (), configured plan s) := by
  have hheight := (BaselineSet.on_setHeight plan.height
    { s with width := plan.width }.cleared).trans (if_pos h.2)
  rw [configure, Call.on_bind, BaselineSet.on_setWidth, if_pos h.1]
  dsimp only
  rw [Call.on_bind, hheight]
  rfl

/-- Sizing fails before the settings are applied, and it would fail again. -/
theorem on_configure_of_not_fits (h : ¬Fits plan s) :
    ∃ t, (configure plan).on s = (abort .overflow, t) ∧ ¬Fits plan t := by
  by_cases hfirst : Extent.Fits plan.width s.height
  · have hsecond : ¬Extent.Fits plan.width plan.height := fun hsecond => h ⟨hfirst, hsecond⟩
    have hheight := (BaselineSet.on_setHeight plan.height
      { s with width := plan.width }.cleared).trans (if_neg hsecond)
    refine ⟨{ { s with width := plan.width }.cleared with height := plan.height }, ?_,
      fun hfits => hsecond hfits.2⟩
    rw [configure, Call.on_bind, BaselineSet.on_setWidth, if_pos hfirst]
    dsimp only
    rw [Call.on_bind, hheight]
    rfl
  · refine ⟨{ s with width := plan.width }, ?_, fun hfits => hfirst hfits.1⟩
    rw [configure, Call.on_bind, BaselineSet.on_setWidth, if_neg hfirst]
    rfl

theorem image_of_fits (h : Extent.Fits plan.width plan.height) (runs : List (WorkerRun R)) :
    image plan runs =
      match plan.accumulation with
      | .interleaved => .ok ((runs.flatMap WorkerRun.events).foldl SharedImage.apply
          (.blank (plan.width * plan.height))).cells
      | .deterministic => WorkerRun.average (plan.width * plan.height) runs := by
  rw [image, SharedImage.new_of_fits h, Extent.cells_of_fits h]
  rfl

theorem failsOnOverflow_image (plan : Plan R) (runs : List (WorkerRun R)) :
    FailsOnOverflow (image plan runs) := by
  have hnew : FailsOnOverflow (SharedImage.new plan.width plan.height : Result (SharedImage R)) :=
    (Extent.failsOnOverflow_zeros _ _).map _
  refine hnew.bind fun blank => ?_
  split
  · exact .ok _
  · exact (failsOnOverflow_inWord _).bind fun size => WorkerRun.failsOnOverflow_average size runs

theorem size_image (h : Extent.Fits plan.width plan.height) {runs : List (WorkerRun R)}
    {cells : Array R} (hcells : image plan runs = .ok cells) :
    cells.size = plan.width * plan.height := by
  rw [image_of_fits h] at hcells
  split at hcells
  · obtain rfl := Except.ok.inj hcells
    refine List.foldlRecOn (motive := fun s : SharedImage R =>
      s.cells.size = plan.width * plan.height) _ _ Array.size_replicate fun s hs e _ => ?_
    rw [SharedImage.size_apply, hs]
  · exact WorkerRun.size_average hcells

/-! ## Answers -/

/-- An image of the right size makes an answer, and the baselines keep it. -/
theorem exists_answer (hfits : Extent.Fits s.width s.height) {image : Array R}
    (h : image.size = s.width * s.height) (o : Outcome) :
    ∃ cube, (answer (.ok image) o).on s = (.ok (cube, o), { s with image }) ∧
      cube.samples = image ∧ cube.shape = [s.width, s.height] := by
  have hset : s.setImage image = .ok { s with image } := by
    simp only [BaselineSet.setImage, Extent.cells_of_fits hfits, bind, Except.bind, if_pos h]
  obtain ⟨cube, hcube, hsamples, hshape, -⟩ :=
    BaselineSet.exists_imageCube (s := { s with image }) hfits h
  refine ⟨cube, ?_, hsamples, hshape⟩
  simp only [answer, Call.on_bind, Call.on_result, Call.on_update, hset, Call.on_query, hcube,
    Call.on_pure]

theorem answer_map_snd (hfits : Extent.Fits s.width s.height) {image : Array R}
    (h : image.size = s.width * s.height) (o : Outcome) :
    ((answer (.ok image) o).on s).1.map Prod.snd = .ok o := by
  obtain ⟨cube, hanswer, -⟩ := exists_answer hfits h o
  rw [hanswer]
  rfl

/-- What answers had an image to answer with. -/
theorem eq_of_answer (hfits : Extent.Fits s.width s.height) {image : Result (Array R)}
    (hsize : ∀ cells, image = .ok cells → cells.size = s.width * s.height) {o o' : Outcome}
    {cube : Cube R} (h : ((answer image o).on s).1 = .ok (cube, o')) :
    image = .ok cube.samples ∧ o = o' ∧ cube.shape = [s.width, s.height] := by
  cases image with
  | error e => cases h
  | ok cells =>
    obtain ⟨cube', hanswer, hsamples, hshape⟩ := exists_answer hfits (hsize cells rfl) o
    rw [hanswer] at h
    obtain ⟨rfl, rfl⟩ := Prod.mk.inj (Except.ok.inj h)
    exact ⟨congrArg Except.ok hsamples.symm, rfl, hshape⟩

/-- The groups have no part in the answer. -/
theorem answer_groups (image : Result (Array R)) (o : Outcome) (s : BaselineSet R)
    (baselines : Roster (Baseline R)) (order : Nat) :
    ((answer image o).on { s with baselines, order }).1 = ((answer image o).on s).1 := by
  cases image with
  | error e => rfl
  | ok image =>
    simp only [answer, Call.on_bind, Call.on_result, Call.on_update, BaselineSet.setImage]
    cases Extent.cells s.width s.height with
    | error e => rfl
    | ok size =>
      have hcube : BaselineSet.imageCube { s with baselines, order, image } =
          BaselineSet.imageCube { s with image } := rfl
      by_cases hsize : image.size = size
      · simp only [bind, Except.bind, if_pos hsize, Call.on_query, hcube]
        cases BaselineSet.imageCube { s with image } <;> rfl
      · simp only [bind, Except.bind, if_neg hsize]
        rfl

end Plot

/-! ## Networks -/

namespace Network

/-- The image of a plan fits into the memory, also with the height that the baselines had. -/
def Fits (n : Network R) (plan : Plan R) : Prop := Plot.Fits plan n.settle.2

instance (n : Network R) (plan : Plan R) : Decidable (n.Fits plan) :=
  inferInstanceAs (Decidable (Plot.Fits plan n.settle.2))

/-- The baselines of a network with the settings of a plan. -/
def configured (n : Network R) (plan : Plan R) : BaselineSet R := Plot.configured plan n.settle.2

variable {n : Network R} {plan : Plan R}

/-- A call behind the sizing starts from the baselines with the settings of the plan. -/
theorem onBaselines_configure {α : Type} (hfits : n.Fits plan)
    (call : View R → Call (BaselineSet R) α) :
    n.onBaselines (fun view => do Plot.configure plan; call view) =
      ({ n.settle.1 with
          baselines := some ((call n.settle.1.view).on (n.configured plan)).2 },
        ((call n.settle.1.view).on (n.configured plan)).1) := by
  simp only [onBaselines, Call.on_bind, Plot.on_configure hfits]
  rfl

theorem onBaselines_of_not_fits {α : Type} (hlarge : ¬n.Fits plan)
    (call : View R → Call (BaselineSet R) α) :
    ∃ set, (n.onBaselines fun view => do Plot.configure plan; call view) =
        ({ n.settle.1 with baselines := some set }, abort .overflow) ∧ ¬Plot.Fits plan set := by
  obtain ⟨set, hset, hagain⟩ := Plot.on_configure_of_not_fits hlarge
  refine ⟨set, ?_, hagain⟩
  simp only [onBaselines, Call.on_bind, hset]
  rfl

end Network

/-! ## Workers -/

variable [Trig R]

/-- The worker of a baseline panics. -/
def Crew.Panics (plan : Plan R) (view : View R) (b : Baseline R) : Bool :=
  (Walk.along (Worker.track plan view b)).isPanicked

namespace Plot

variable {plan : Plan R} {view : View R} {s : BaselineSet R}

theorem find?_runs (plan : Plan R) (view : View R) (l : List (Baseline R)) :
    ((l.map (Worker.run plan view)).find? fun r => r.walk.isPanicked) =
      (l.find? (Crew.Panics plan view)).map (Worker.run plan view) := by
  rw [List.find?_map]
  rfl

/-- The baselines as their workers leave them. -/
def worked (plan : Plan R) (view : View R) (s : BaselineSet R) : BaselineSet R :=
  { s with baselines := s.baselines.map fun b => (Worker.run plan view b).baseline }

theorem on_integrate_of_panic {b : Baseline R}
    (h : s.baselines.toList.find? (Crew.Panics plan view) = some b) :
    (integrate plan view).on s = (fail (.workerPanicked b.name), worked plan view s) := by
  have hfound := (find?_runs plan view _).trans (congrArg (Option.map (Worker.run plan view)) h)
  rw [Option.map_some] at hfound
  simp only [integrate, Call.on_bind, Call.on_get, Call.on_modify, Roster.toList_map, hfound,
    Roster.map_map, Worker.name_run]
  rfl

theorem on_integrate_of_no_panic (h : s.baselines.toList.find? (Crew.Panics plan view) = none) :
    let runs := s.baselines.toList.map (Worker.run plan view)
    (integrate plan view).on s =
      (answer (image plan runs) (outcome runs)).on (worked plan view s) := by
  have hfound := (find?_runs plan view _).trans (congrArg (Option.map (Worker.run plan view)) h)
  rw [Option.map_none] at hfound
  simp only [integrate, Call.on_bind, Call.on_get, Call.on_modify, Roster.toList_map, hfound,
    Roster.map_map]
  rfl

end Plot

/-! ## Plots -/

namespace Network

variable {n : Network R} {plan : Plan R}

theorem plot_of_not_fits (hlarge : ¬n.Fits plan) : (n.plot plan).2 = abort .overflow := by
  obtain ⟨set, hplot, -⟩ := onBaselines_of_not_fits hlarge fun view => Plot.integrate plan view
  rw [plot, hplot]

theorem plot_of_panic (hfits : n.Fits plan) {b : Baseline R}
    (h : (n.configured plan).baselines.toList.find? (Crew.Panics plan n.settle.1.view) = some b) :
    (n.plot plan).2 = fail (.workerPanicked b.name) := by
  rw [plot, onBaselines_configure hfits, Plot.on_integrate_of_panic h]

theorem plot_of_no_panic (hfits : n.Fits plan)
    (h : (n.configured plan).baselines.toList.find? (Crew.Panics plan n.settle.1.view) = none) :
    let runs := (n.configured plan).baselines.toList.map (Worker.run plan n.settle.1.view)
    (n.plot plan).2 =
      ((Plot.answer (Plot.image plan runs) (Plot.outcome runs)).on (n.configured plan)).1 := by
  rw [plot, onBaselines_configure hfits, Plot.on_integrate_of_no_panic h]
  exact Plot.answer_groups _ _ _ _ _

end Network

end Aperture
