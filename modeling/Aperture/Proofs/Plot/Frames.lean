import Aperture.Proofs.Geometry.Additive
import Aperture.Proofs.Plot.Reference

/-!
# The frame does not change the geometry

Over exact scalars and with any circle functions, a network whose positions are taken relative to
the reference looks like the same network with Earth-fixed positions.

* A position in the relative frame is the Earth-fixed one less that of the reference. The reduced
  vector of a group is made of differences, so it is the same (`Group.vector_map_sub`).
* A projection is additive (`Baseline.project_add`). Delays are measured against the reference in
  the one frame and against the first station in the other, so the times at which the members are
  sampled differ by the delay between these two (`Baseline.getElem?_sampleTimes_relative`).

**Theorem (`frames_share_geometry`).** Vector, projection and pointing of a baseline are the same in
both frames, and so are plots of aligned recordings, however their workers interleave.
-/

namespace Aperture

open Exact

/-! ## Plots that look at the same tracks -/

section

variable {R : Type} [Scalar R] [Trig R] {plan : Plan R} {v w : View R}

theorem Thread.Move.congr (htrack : Worker.track plan w = Worker.track plan v) {th th' : Thread R}
    {a : Thread.Action R} (h : Move plan v th a th') : Move plan w th a th' := by
  cases h with
  | start hphase => exact .start hphase
  | turn hphase hstored hnext => exact .turn hphase hstored (htrack ▸ hnext)
  | keep hphase hpending hown hwrite => exact .keep hphase hpending hown hwrite
  | share hphase hpending hown => exact .share hphase hpending hown
  | finish hphase hstored hnext hwell => exact .finish hphase hstored (htrack ▸ hnext) hwell
  | unwind hphase hstored hpanic => exact .unwind hphase hstored hpanic
  | release hphase => exact .release hphase

/-- Threads see of the stations nothing but the tracks of their baselines. -/
theorem Crew.Reaches.congr (htrack : Worker.track plan w = Worker.track plan v) {ceiling : Nat}
    {baselines : List (Baseline R)} {c : Crew R} (h : Reaches plan v ceiling baselines c) :
    Reaches plan w ceiling baselines c := by
  refine Relation.ReflTransGen.mono (fun c d hstep => ?_) _ _ h
  cases hstep with
  | acquire hready hnext htake => exact .acquire hready hnext htake
  | spawn hready hth => exact .spawn hready hth
  | move hth hmove => exact .move hth (hmove.congr htrack)

/-! ## Frames -/

/-- The view with the positions in a frame. -/
def View.inFrame (v : View R) (frame : Frame) : View R := { v with frame }

theorem Baseline.project_inFrame (b : Baseline R) (p : Vec3 R) (t : R) (v : View R)
    (frame : Frame) : b.project p t (v.inFrame frame) = b.project p t v := rfl

omit [Trig R] in
theorem Baseline.window_inFrame (b : Baseline R) (v : View R) (frame : Frame) :
    b.window (v.inFrame frame) = b.window v := rfl

theorem Worker.aim_inFrame (plan : Plan R) (v : View R) (frame : Frame) (b : Baseline R) (t : R) :
    aim plan (v.inFrame frame) b t = aim plan v b t := rfl

omit [Scalar R] [Trig R] in
theorem Network.view_setRelative (n : Network R) (relative : Bool) :
    (n.setRelative relative).view = n.view.inFrame (if relative then .relative else .geographic) :=
  rfl

omit [Trig R] in
/-- The groups do not depend on the frame. -/
theorem Network.settle_setRelative (n : Network R) (relative : Bool) :
    (n.setRelative relative).settle = (n.settle.1.setRelative relative, n.settle.2) := by
  obtain ⟨stations, reference, frame, requested, created, baselines⟩ := n
  cases baselines <;> rfl

omit [Trig R] in
/-- A call that does not see the frame does not depend on it. -/
theorem Network.onBaselines_setRelative {α : Type} (n : Network R) (relative : Bool)
    (call : View R → Call (BaselineSet R) α)
    (h : call (n.settle.1.setRelative relative).view = call n.settle.1.view) :
    (n.setRelative relative).onBaselines call =
      ((n.onBaselines call).1.setRelative relative, (n.onBaselines call).2) := by
  simp only [onBaselines, settle_setRelative, h]
  rfl

/-- Of the stations, plots see nothing but what their workers do. -/
theorem Plot.integrateUnder_congr (hrun : Worker.run plan w = Worker.run plan v)
    (refusal : Option Refusal) : integrateUnder plan w refusal = integrateUnder plan v refusal := by
  have hall : integrate plan w = integrate plan v := by simp only [integrate, hrun]
  cases refusal with
  | none => exact hall
  | some refusal => simp only [integrateUnder, hrun, hall]

end

variable {K : Type} [Field K] [LinearOrder K] [FloorRing K] [Trig K]

/-! ## Positions -/

theorem View.position?_relative (v : View K) (slot : Nat) :
    (v.inFrame .relative).position? slot = ((v.inFrame .geographic).position? slot).map fun p =>
      p - v.reference.position v.reference := by
  simp only [position?, Option.map_map]
  rfl

theorem Baseline.positions_relative (b : Baseline K) (v : View K) :
    b.positions (v.inFrame .relative) = (b.positions (v.inFrame .geographic)).map fun p =>
      p - v.reference.position v.reference := by
  rw [positions, positions, List.map_filterMap]
  exact List.filterMap_congr fun slot _ => v.position?_relative slot

/-- **The vector of a baseline is the same in both frames.** -/
theorem Baseline.vector_inFrame (b : Baseline K) (v : View K) (frame : Frame) :
    Group.vector (b.positions (v.inFrame frame)) = Group.vector (b.positions v) := by
  have hgeographic (frame : Frame) : Group.vector (b.positions (v.inFrame frame)) =
      Group.vector (b.positions (v.inFrame .geographic)) := by
    cases frame with
    | geographic => rfl
    | relative => rw [positions_relative, Group.vector_map_sub]
  exact (hgeographic frame).trans (hgeographic v.frame).symm

theorem Baseline.uvAt_inFrame (b : Baseline K) (t : K) (v : View K) (frame : Frame) :
    b.uvAt t (v.inFrame frame) = b.uvAt t v := by
  rw [uvAt, vector_inFrame, project_inFrame, uvAt]

theorem Baseline.observe_inFrame (b : Baseline K) (t : K) (v : View K) (frame : Frame) :
    b.observe t (v.inFrame frame) = b.observe t v := by
  rw [observe, measure, vector_inFrame, uvAt_inFrame, observe, measure]

/-! ## Delays -/

theorem Baseline.getElem?_sampleTimes {b : Baseline K} {v : View K} {i : Nat} {s : Station K}
    (h : b.members[i]?.bind v.station? = some s) (t : K) :
    (b.sampleTimes t v false)[i]? = some (t -
      (b.project (s.position v.frame v.reference - v.delayCenter) t v).z /
        Constant.speedOfLight) := by
  obtain ⟨slot, hslot, hs⟩ := Option.bind_eq_some_iff.1 h
  simp only [sampleTimes, Bool.false_eq_true, if_false, List.getElem?_map, hslot, Option.map_some,
    View.position?, hs]

/-- The delay of a station against the reference. -/
def Baseline.delayOf (b : Baseline K) (t : K) (v : View K) (s : Station K) : K :=
  (b.project (s.position .geographic v.reference - v.reference.position v.reference) t v).z /
    Constant.speedOfLight

/-- Seen from the reference, a station is where it is seen from another station, and that one from
the reference. -/
theorem Station.position_relative (s first : Station K) (reference : Location K) :
    s.position .relative reference - Vec3.zero =
      (s.position .geographic reference - first.position .geographic reference) +
        (first.position .geographic reference - reference.position reference) := by
  ext <;> simp [position, Vec3.zero]

theorem Baseline.getElem?_sampleTimes_relative {b : Baseline K} {v : View K} {i : Nat}
    {s first : Station K} (h : b.members[i]?.bind v.station? = some s)
    (hfirst : v.stations.toList.head? = some first) (t : K) :
    ∃ x, (b.sampleTimes t (v.inFrame .geographic) false)[i]? = some x ∧
      (b.sampleTimes t (v.inFrame .relative) false)[i]? = some (x - b.delayOf t v first) := by
  refine ⟨_, getElem?_sampleTimes (v := v.inFrame .geographic) h t,
    (getElem?_sampleTimes (v := v.inFrame .relative) h t).trans (congrArg some ?_)⟩
  have hcenter : (v.inFrame .geographic).delayCenter = first.position .geographic v.reference := by
    simp only [View.delayCenter, View.inFrame, hfirst]
  rw [hcenter]
  show t - (b.project (s.position .relative v.reference - Vec3.zero) t v).z / _ =
    t - (b.project (s.position .geographic v.reference - _) t v).z / _ - _
  rw [Station.position_relative s first, project_add, delayOf, Vec3.add_z]
  ring

/-! ## Plots -/

theorem Worker.track_inFrame {plan : Plan K} (hsynced : plan.synced = true) (v : View K)
    (frame : Frame) : track plan (v.inFrame frame) = track plan v := by
  funext b
  have hcourse : course plan (v.inFrame frame) b = course plan v b := by
    simp only [course, valueAt, Baseline.window_inFrame, aim_inFrame, Baseline.uvAt_inFrame,
      Baseline.sampleTimes, hsynced, if_true]
    rfl
  rw [track, track, hcourse]

theorem Worker.run_inFrame {plan : Plan K} (hsynced : plan.synced = true) (v : View K)
    (frame : Frame) : run plan (v.inFrame frame) = run plan v := by
  funext b
  simp only [run, track_inFrame hsynced, Baseline.window_inFrame, aim_inFrame,
    Baseline.observe_inFrame]

namespace Network

/-- **A plot of aligned recordings does not see the frame.** -/
theorem plotUnder_setRelative (n : Network K) {plan : Plan K} (hsynced : plan.synced = true)
    (refusal : Option Refusal) (relative : Bool) :
    (n.setRelative relative).plotUnder plan refusal =
      ((n.plotUnder plan refusal).1.setRelative relative, (n.plotUnder plan refusal).2) := by
  have hrun : Worker.run plan (n.settle.1.setRelative relative).view =
      Worker.run plan n.settle.1.view := by
    rw [view_setRelative, Worker.run_inFrame hsynced]
  refine n.onBaselines_setRelative relative _ ?_
  simp only [Plot.integrateUnder_congr hrun]

omit [Trig K] in
theorem configured_setRelative (n : Network K) (plan : Plan K) (relative : Bool) :
    (n.setRelative relative).configured plan = n.configured plan := by
  rw [configured, settle_setRelative, configured]

theorem interleaves_setRelative (n : Network K) {plan : Plan K} (hsynced : plan.synced = true)
    (relative : Bool) (ceiling : Nat) (c : Crew K) :
    (n.setRelative relative).Interleaves plan ceiling c ↔ n.Interleaves plan ceiling c := by
  have htrack : Worker.track plan (n.settle.1.setRelative relative).view =
      Worker.track plan n.settle.1.view := by
    rw [view_setRelative, Worker.track_inFrame hsynced]
  have hconfigured := n.configured_setRelative plan relative
  have hfits : (n.setRelative relative).Fits plan ↔ n.Fits plan := by
    rw [Fits, Fits, settle_setRelative]
  constructor
  · rintro ⟨hlarge, hreaches⟩
    rw [settle_setRelative, hconfigured] at hreaches
    exact ⟨hfits.1 hlarge, hreaches.congr htrack.symm⟩
  · rintro ⟨hlarge, hreaches⟩
    refine ⟨hfits.2 hlarge, ?_⟩
    rw [settle_setRelative, hconfigured]
    exact hreaches.congr htrack

/-- **The frame does not change the geometry.** Whatever the circle functions are, of a network with
Earth-fixed positions and the same one with positions relative to the reference:

* A baseline that is observed has the same vector, projection and delay in both, and it is pointed
  alike. The times at which its members are sampled differ by the delay of the first station against
  the reference, the same for all members.
* When the recordings are aligned, a plot has the same answer and leaves the same baselines, and the
  same interleavings of its workers have the same results. -/
theorem frames_share_geometry (n : Network K) :
    let geographic := n.setRelative false
    let relative := n.setRelative true
    (∀ (b : Baseline K) (t : K),
      b.observe t relative.view = b.observe t geographic.view ∧
      b.pointAt t relative.view = b.pointAt t geographic.view ∧
      ∀ first, n.stations.toList.head? = some first →
        ∀ (i : Nat) (s : Station K), b.members[i]?.bind n.view.station? = some s →
          ∃ x, (b.sampleTimes t geographic.view false)[i]? = some x ∧
            (b.sampleTimes t relative.view false)[i]? = some (x - b.delayOf t n.view first)) ∧
    ∀ plan, plan.synced = true →
      (∀ refusal, relative.plotUnder plan refusal =
        ((geographic.plotUnder plan refusal).1.setRelative true,
          (geographic.plotUnder plan refusal).2)) ∧
      ∀ ceiling c, (relative.Interleaves plan ceiling c ↔ geographic.Interleaves plan ceiling c) ∧
        c.result plan (relative.configured plan) = c.result plan (geographic.configured plan) := by
  intro geographic relative
  refine ⟨fun b t => ⟨?_, rfl, fun first hfirst i s hs => ?_⟩, fun plan hsynced => ⟨?_, ?_⟩⟩
  · exact (b.observe_inFrame t n.view .relative).trans (b.observe_inFrame t n.view .geographic).symm
  · exact Baseline.getElem?_sampleTimes_relative hs hfirst t
  · exact fun refusal => geographic.plotUnder_setRelative hsynced refusal true
  · intro ceiling c
    exact ⟨geographic.interleaves_setRelative hsynced true ceiling c,
      by rw [configured_setRelative, configured_setRelative]⟩

end Network

/-- One station with a location of its own between two that are placed by an offset. -/
def Network.mixed : Network ℚ :=
  let recording (location : Location ℚ) (samples : Array ℚ) : Cube ℚ :=
    { Cube.ofSamples samples with location, rate := 1 / 3600 }
  { Network.empty with
    reference := .geographic 40 0 0
    requestedOrder := 3
    stations := .ofList [
      { name := "a", index := 0, recording := recording (.relative 0 1 2) #[1, 2, 3] },
      { name := "b", index := 1, recording := recording (.geographic 41 1 0) #[1, 1, 2] },
      { name := "c", index := 2, recording := recording (.relative 2 1 0) #[3, 1, 4] }] }

theorem Network.frames_share_geometry_mixed :
    let geographic := Network.mixed.setRelative false
    let relative := Network.mixed.setRelative true
    let plan := Plan.hourly
    plan.synced = true ∧ (relative.plot plan).2 = (geographic.plot plan).2 ∧
    (Network.mixed.configured plan).baselines.names = ["a_b_c"] ∧
    ∀ b ∈ (Network.mixed.configured plan).baselines.toList,
      (b.observe 3600 relative.view).uv = (b.observe 3600 geographic.view).uv ∧
      (b.observe 3600 geographic.view).uv.delay ≠ 0 ∧
      ∀ first ∈ Network.mixed.stations.toList.head?,
        b.delayOf 3600 Network.mixed.view first ≠ 0 ∧
        ∃ x, (b.sampleTimes 3600 geographic.view false)[2]? = some x ∧
          (b.sampleTimes 3600 relative.view false)[2]? =
            some (x - b.delayOf 3600 Network.mixed.view first) := by
  intro geographic relative plan
  obtain ⟨hgeometry, hplots⟩ := frames_share_geometry Network.mixed
  obtain ⟨hplot, -⟩ := hplots plan rfl
  have hsame : (relative.plotUnder plan none).2 = (geographic.plotUnder plan none).2 := by
    rw [hplot none]
  refine ⟨rfl, hsame, by decide +kernel, fun b hb => ?_⟩
  obtain ⟨hobserve, -, htimes⟩ := hgeometry b 3600
  have hall : ∀ b ∈ (Network.mixed.configured plan).baselines.toList,
      (b.observe 3600 geographic.view).uv.delay ≠ 0 ∧
      (b.members[2]?.bind Network.mixed.view.station?).isSome ∧
      ∀ first ∈ Network.mixed.stations.toList.head?,
        b.delayOf 3600 Network.mixed.view first ≠ 0 := by decide +kernel
  obtain ⟨hdelay, hlive, hshift⟩ := hall b hb
  obtain ⟨s, hs⟩ := Option.isSome_iff_exists.1 hlive
  refine ⟨congrArg Baseline.uv hobserve, hdelay, fun first hfirst => ?_⟩
  exact ⟨hshift first hfirst, htimes first hfirst 2 s hs⟩

end Aperture
