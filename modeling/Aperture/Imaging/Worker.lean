import Aperture.Imaging.Accumulator
import Aperture.Imaging.Plan
import Aperture.Imaging.Stride

/-!
# Workers

A worker integrates one baseline: it walks along the track of the baseline through the image, from
the start of the common window in steps of one over the sample rate of the plan, and correlates the
members wherever it enters a cell.

Nothing a worker computes depends on the other workers, so its whole run is a function of the
baseline, the view and the plan. What it does to the image is a list of events.
-/

namespace Aperture

open Scalar

/-- The run of one worker. -/
structure WorkerRun (R : Type) where
  /-- The baseline as the run leaves it. -/
  baseline : Baseline R
  walk : Walk R

namespace Worker

variable {R : Type} [Scalar R] [Trig R]

/-- Number of steps in a window: the first one is at its start, and an exact multiple of the step is
not counted in. -/
def stepCount (plan : Plan R) (start stop : R) : Nat :=
  toNat (greatest (ceil ((stop - start) * plan.rate - ofDecimal 1 (-9))) zero)

/-- Time of step `k` of a window. -/
def stepTime (plan : Plan R) (start : R) (k : Nat) : R := start + ofNat k * (one / plan.rate)

/-- The baseline pointed for a time, when the plan asks for that. -/
def aim (plan : Plan R) (view : View R) (b : Baseline R) (t : R) : Baseline R :=
  if plan.moving then b.pointAt t view else b

/-- The value of a baseline at a time. -/
def valueAt (plan : Plan R) (view : View R) (b : Baseline R) (t : R) : Result R :=
  let b := aim plan view b t
  b.correlate t (b.sampleTimes t view plan.synced) view

/-- The course of a baseline through the image; a baseline without a window has none. -/
def course (plan : Plan R) (view : View R) (b : Baseline R) : Track R :=
  let (start, total) := match b.window view with
    | some (start, stop) => (start, stepCount plan start stop)
    | none => (zero, 0)
  { total
    adaptive := plan.adaptive
    cell := fun k =>
      let t := stepTime plan start k
      ((aim plan view b t).uvAt t view).cell? plan.width plan.height
    value := fun k => (valueAt plan view b (stepTime plan start k)).toOption
    interrupted := plan.isInterrupted b.name }

/-- How many values a worker can write into one cell, if it is limited: an image of means counts
them. -/
def room (plan : Plan R) : Option Nat :=
  match plan.accumulation with
  | .interleaved => none
  | .deterministic => some Mean.room

/-- The course of a baseline as its worker can follow it. -/
def track (plan : Plan R) (view : View R) (b : Baseline R) : Track R :=
  (course plan view b).limited (room plan)

/-- Integrate a baseline. It keeps the pointing and the projection of the step looked at last. -/
def run (plan : Plan R) (view : View R) (b : Baseline R) : WorkerRun R :=
  let walk := Walk.along (track plan view b)
  let seen := match walk.latest, b.window view with
    | some k, some (start, _) =>
      let t := stepTime plan start k
      (aim plan view b t).observe t view
    | _, _ => b
  ⟨seen, walk⟩

@[simp] theorem name_aim (plan : Plan R) (view : View R) (b : Baseline R) (t : R) :
    (aim plan view b t).name = b.name := by
  unfold aim
  split <;> rfl

@[simp] theorem members_aim (plan : Plan R) (view : View R) (b : Baseline R) (t : R) :
    (aim plan view b t).members = b.members := by
  unfold aim
  split <;> rfl

@[simp] theorem name_run (plan : Plan R) (view : View R) (b : Baseline R) :
    (run plan view b).baseline.name = b.name := by
  simp only [run]
  split
  · exact name_aim plan view b _
  · rfl

@[simp] theorem members_run (plan : Plan R) (view : View R) (b : Baseline R) :
    (run plan view b).baseline.members = b.members := by
  simp only [run]
  split
  · exact members_aim plan view b _
  · rfl

end Worker

namespace WorkerRun

variable {R : Type}

/-- Steps the worker looked at. -/
def steps (r : WorkerRun R) : Nat := r.walk.steps

/-- Values the worker wrote. -/
def writes (r : WorkerRun R) : List (Write R) := r.walk.writes.reverse

/-- What the worker does to the shared image. A worker that panicked never ends. -/
def events (r : WorkerRun R) : List (Event R) :=
  .start :: (r.writes.map fun w => .write w.cell w.value) ++
    (if r.walk.isPanicked then [] else [.finish])

/-- The image of the worker's own values. -/
def meanImage [Scalar R] (size : Nat) (r : WorkerRun R) : Result (MeanImage R) :=
  r.writes.foldlM (fun p w => p.write w.cell w.value) (.blank size)

/-- The average of the images of the workers' own values. -/
def average [Scalar R] (size : Nat) (runs : List (WorkerRun R)) : Result (Array R) := do
  let images ← runs.mapM (meanImage size)
  MeanImage.average images size

end WorkerRun

end Aperture
