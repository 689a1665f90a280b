import Aperture.Proofs.Plot.Frames
import Mathlib.Algebra.BigOperators.Ring.List

/-!
# Sampling times compensate the delay

Over exact scalars and with any circle functions, the times at which the members of a baseline are
sampled make up for the delay that its projection reports.

* A member is sampled earlier by the delay of its own position against a reference
  (`Baseline.timesAgainst`); the program takes the delay center of its view
  (`Baseline.sampleTimes_eq`).
* The projection is additive, so two members differ by the projection of their difference and the
  reference cancels (`Baseline.lag_timesAgainst`).

**Theorem (`sampleTimes_compensate`).** Against whatever reference, the first member is sampled
after the others by the delay of the baseline in total.
-/

namespace Aperture

open Exact

variable {K : Type} [Field K] [LinearOrder K] [FloorRing K]

/-- How long the first of some times comes after the others in total. -/
def lag : List K → K
  | [] => 0
  | first :: rest => (rest.map fun x => first - x).sum

variable [Trig K]

namespace Baseline

/-! ## Any reference -/

/-- When every member recorded the wavefront that reaches `center` at a time. -/
def timesAgainst (b : Baseline K) (center : Vec3 K) (t : K) (v : View K) : List K :=
  b.members.map fun slot =>
    match v.position? slot with
    | some p => t - (b.project (p - center) t v).z / Constant.speedOfLight
    | none => t

/-- The program measures delays against the delay center of the view. -/
theorem sampleTimes_eq (b : Baseline K) (t : K) (v : View K) :
    b.sampleTimes t v false = b.timesAgainst v.delayCenter t v := rfl

variable {b : Baseline K} {v : View K}

theorem timesAgainst_of_live (hlive : ∀ slot ∈ b.members, (v.station? slot).isSome)
    (center : Vec3 K) (t : K) : b.timesAgainst center t v =
      (b.positions v).map fun p => t - (b.project (p - center) t v).z / Constant.speedOfLight := by
  rw [positions, List.map_filterMap, timesAgainst, ← List.filterMap_eq_map]
  refine List.filterMap_congr fun slot hslot => ?_
  obtain ⟨s, hs⟩ := Option.isSome_iff_exists.1 (hlive slot hslot)
  simp [View.position?, hs]

/-- A member at the reference is sampled at the time itself. -/
theorem getElem?_timesAgainst_self {i slot : Nat} {center : Vec3 K}
    (hslot : b.members[i]? = some slot) (hcenter : v.position? slot = some center) (t : K) :
    (b.timesAgainst center t v)[i]? = some t := by
  have hzero : (b.project (center - center) t v).z = 0 := by rw [project_sub_z, sub_self]
  simp only [timesAgainst, List.getElem?_map, hslot, Option.map_some, hcenter, hzero, zero_div,
    sub_zero]

/-- **The reference cancels:** the members are sampled apart by the delay of the baseline. -/
theorem lag_timesAgainst (hlive : ∀ slot ∈ b.members, (v.station? slot).isSome) (center : Vec3 K)
    (t : K) : lag (b.timesAgainst center t v) = (b.observe t v).uv.delay := by
  rw [timesAgainst_of_live hlive]
  show _ = (b.project (Group.vector (b.positions v)) t v).z / Constant.speedOfLight
  cases b.positions v with
  | nil => rw [Group.vector_nil, project_zero_z, zero_div]; rfl
  | cons first rest =>
    rw [project_vector_z, List.map_cons, lag, List.map_map,
      div_eq_mul_inv (List.sum _), ← List.sum_map_mul_right]
    congr 1
    refine List.map_congr_left fun p _ => ?_
    have hcancel : (b.project (p - first) t v).z =
        (b.project (p - center) t v).z - (b.project (first - center) t v).z := by
      rw [← project_sub_z, Vec3.sub_sub_sub_right]
    rw [hcancel, Function.comp_apply]
    ring

/-- **Sampling times compensate the delay.** Let the members of a baseline be there, in either
frame and pointed or not. Against any reference, and so against the delay center, the first member
is sampled after the others by the delay of the baseline in total; two members are sampled apart by
exactly this delay, and a member at the reference is sampled at the time itself. -/
theorem sampleTimes_compensate (b : Baseline K) (t : K) (v : View K)
    (hlive : ∀ slot ∈ b.members, (v.station? slot).isSome) :
    b.sampleTimes t v false = b.timesAgainst v.delayCenter t v ∧
    ∀ center : Vec3 K,
      lag (b.timesAgainst center t v) = (b.observe t v).uv.delay ∧
      (b.members.length = 2 → ∃ x y, b.timesAgainst center t v = [x, y] ∧
        x - y = (b.observe t v).uv.delay) ∧
      ∀ (i slot : Nat), b.members[i]? = some slot → v.position? slot = some center →
        (b.timesAgainst center t v)[i]? = some t := by
  refine ⟨b.sampleTimes_eq t v, fun center => ⟨lag_timesAgainst hlive center t, fun hpair => ?_,
    fun i slot hslot hcenter => getElem?_timesAgainst_self hslot hcenter t⟩⟩
  have hlength : (b.timesAgainst center t v).length = 2 := by
    rw [timesAgainst, List.length_map, hpair]
  obtain ⟨x, y, hxy⟩ := List.length_eq_two.1 hlength
  refine ⟨x, y, hxy, ?_⟩
  rw [← lag_timesAgainst hlive center t, hxy]
  simp [lag]

end Baseline

/-- The pairs of three stations with Earth-fixed positions, and their triple with relative ones,
before and after they are pointed. -/
theorem Baseline.sampleTimes_compensate_mixed :
    let pairs := { Network.mixed.setRelative false with requestedOrder := 2 }
    let triple := Network.mixed.setRelative true
    (pairs.configured Plan.hourly).baselines.names = ["a_b", "a_c", "b_c"] ∧
    (triple.configured Plan.hourly).baselines.names = ["a_b_c"] ∧
    (∀ b ∈ (pairs.configured Plan.hourly).baselines.toList,
      ∀ aimed ∈ [b, b.pointAt 3600 pairs.view],
        (aimed.observe 3600 pairs.view).uv.delay ≠ 0 ∧
        (∃ x y, aimed.sampleTimes 3600 pairs.view false = [x, y] ∧
          x - y = (aimed.observe 3600 pairs.view).uv.delay) ∧
        (aimed.members[0]? = some 0 →
          (aimed.sampleTimes 3600 pairs.view false)[0]? = some 3600)) ∧
    ∀ b ∈ (triple.configured Plan.hourly).baselines.toList,
      ∀ aimed ∈ [b, b.pointAt 3600 triple.view],
        (aimed.observe 3600 triple.view).uv.delay ≠ 0 ∧
        lag (aimed.sampleTimes 3600 triple.view false) =
          (aimed.observe 3600 triple.view).uv.delay := by
  intro pairs triple
  refine ⟨by decide +kernel, by decide +kernel, fun b hb aimed haimed => ?_,
    fun b hb aimed haimed => ?_⟩
  · have hall : ∀ b ∈ (pairs.configured Plan.hourly).baselines.toList,
        ∀ aimed ∈ [b, b.pointAt 3600 pairs.view],
          (∀ slot ∈ aimed.members, (pairs.view.station? slot).isSome) ∧
          aimed.members.length = 2 ∧ (aimed.observe 3600 pairs.view).uv.delay ≠ 0 ∧
          pairs.view.position? 0 = some pairs.view.delayCenter := by decide +kernel
    obtain ⟨hlive, hlength, hdelay, hcenter⟩ := hall b hb aimed haimed
    obtain ⟨htimes, hcompensated⟩ := sampleTimes_compensate aimed 3600 pairs.view hlive
    obtain ⟨-, hpair, hself⟩ := hcompensated pairs.view.delayCenter
    rw [htimes]
    exact ⟨hdelay, hpair hlength, fun hfirst => hself 0 0 hfirst hcenter⟩
  · have hall : ∀ b ∈ (triple.configured Plan.hourly).baselines.toList,
        ∀ aimed ∈ [b, b.pointAt 3600 triple.view],
          (∀ slot ∈ aimed.members, (triple.view.station? slot).isSome) ∧
          (aimed.observe 3600 triple.view).uv.delay ≠ 0 := by decide +kernel
    obtain ⟨hlive, hdelay⟩ := hall b hb aimed haimed
    obtain ⟨htimes, hcompensated⟩ := sampleTimes_compensate aimed 3600 triple.view hlive
    rw [htimes]
    exact ⟨hdelay, (hcompensated triple.view.delayCenter).1⟩

end Aperture
