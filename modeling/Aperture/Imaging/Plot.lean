import Aperture.Imaging.Worker
import Aperture.Network.Basic

/-!
# Plots

Aperture synthesis: every baseline of a network is integrated over its window, and the values are
accumulated into the image of the UV plane.

The settings of the plan are applied to the baselines first. The workers run one after the other in
the order of the baselines; as no worker depends on another, only the cells of an interleaved image
could tell another order apart. When a correlation gave up, the first baseline concerned is
reported, and the baselines keep what the run did to them. When the thread of a worker is refused,
there is no image either, and the baselines keep what the workers before it did to them.

An image that does not fit into the memory is found out before the workers run. The width is set
first, so it has to fit with the height of the plot before as well.
-/

namespace Aperture

/-- Summary of a run. -/
structure Outcome where
  baselines : Nat
  /-- Steps looked at by all workers. -/
  steps : Nat
  /-- Values written by all workers. -/
  pixels : Nat
  interrupted : Bool
deriving DecidableEq, Repr

namespace Plot

variable {R : Type} [Scalar R]

/-- Apply the settings of a plan to the baselines and clear their pointing. -/
def dress (plan : Plan R) (set : BaselineSet R) : BaselineSet R :=
  let set := (set.setTarget plan.target).setFrequency plan.frequency
  let set := (set.setRate plan.rate).setCorrelator plan.correlator
  { set with baselines := set.baselines.map Baseline.unpoint }

/-- Size the image and apply the settings of a plan to the baselines. -/
def configure (plan : Plan R) : Call (BaselineSet R) Unit := do
  BaselineSet.setWidth plan.width
  BaselineSet.setHeight plan.height
  modify (dress plan)

/-- A count added up over the workers. -/
def total (count : WorkerRun R → Nat) (runs : List (WorkerRun R)) : Nat :=
  runs.foldl (fun n r => n + count r) 0

/-- Summary of the runs of all workers. -/
def outcome (runs : List (WorkerRun R)) : Outcome where
  baselines := runs.length
  steps := total WorkerRun.steps runs
  pixels := total (fun r => r.writes.length) runs
  interrupted := runs.any fun r => r.walk.isInterrupted

/-- The image of the runs of all workers. -/
def image (plan : Plan R) (runs : List (WorkerRun R)) : Result (Array R) := do
  let blank ← SharedImage.new plan.width plan.height
  match plan.accumulation with
  | .interleaved => .ok ((runs.flatMap WorkerRun.events).foldl SharedImage.apply blank).cells
  | .deterministic => do
    let size ← Extent.cells plan.width plan.height
    WorkerRun.average size runs

/-- The image as the answer of a plot. The set keeps it. -/
def answer (image : Result (Array R)) (outcome : Outcome) :
    Call (BaselineSet R) (Cube R × Outcome) := do
  let image ← image
  .update fun set => set.setImage image
  let cube ← .query BaselineSet.imageCube
  return (cube, outcome)

/-- Let all workers run and store their image. -/
def integrate [Trig R] (plan : Plan R) (view : View R) :
    Call (BaselineSet R) (Cube R × Outcome) := do
  let done := (← get).baselines.map (Worker.run plan view)
  let runs := done.toList
  modify fun set => { set with baselines := done.map WorkerRun.baseline }
  match runs.find? fun r => r.walk.isPanicked with
  | some r => fail (.workerPanicked r.baseline.name)
  | none => answer (image plan runs) (outcome runs)

end Plot

/-! ## Threads that cannot be created -/

/-- The refusal of a thread: the number of the worker that it was for, and the reason. -/
structure Refusal where
  worker : Nat
  reason : String
deriving DecidableEq, Repr

/-- Let the workers run when a thread may be refused. The workers before the one concerned run to
their end, the others never begin, and there is no image. -/
def Plot.integrateUnder {R : Type} [Scalar R] [Trig R] (plan : Plan R) (view : View R) :
    Option Refusal → Call (BaselineSet R) (Cube R × Outcome)
  | none => integrate plan view
  | some refusal => do
    let set ← get
    match set.baselines.at? refusal.worker with
    | none => integrate plan view
    | some refused =>
      let begun := set.baselines.names.take refusal.worker
      modify fun set => { set with
        baselines := set.baselines.map fun b =>
          if b.name ∈ begun then (Worker.run plan view b).baseline else b }
      fail (.workerSpawn (refused.name ++ ": " ++ refusal.reason))

/-! ## Plots of a network -/

namespace Network

variable {R : Type} [Scalar R]

/-- Carry out a call on the baselines, formed when they are not up to date. -/
def onBaselines {α : Type} (n : Network R) (call : View R → Call (BaselineSet R) α) :
    Network R × Result α :=
  let (n, set) := n.settle
  let (answer, set) := (call n.view).on set
  ({ n with baselines := some set }, answer)

variable [Trig R]

/-- Integrate every baseline of a network into an image. -/
def plot (n : Network R) (plan : Plan R) : Network R × Result (Cube R × Outcome) :=
  n.onBaselines fun view => do
    Plot.configure plan
    Plot.integrate plan view

/-- Integrate a network when a thread may be refused. -/
def plotUnder (n : Network R) (plan : Plan R) (refusal : Option Refusal) :
    Network R × Result (Cube R × Outcome) :=
  n.onBaselines fun view => do
    Plot.configure plan
    Plot.integrateUnder plan view refusal

end Network

end Aperture
