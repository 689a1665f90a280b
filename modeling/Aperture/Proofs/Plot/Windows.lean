import Aperture.Imaging.Worker
import Aperture.Proofs.Exact.Scalar
import Aperture.Proofs.Network.Groups
import Aperture.Proofs.Walk.Limits

/-!
# Every step of a window has its samples

Four computations have to agree at their borders, over exact scalars:

* the **window** of a baseline, the latest start and the earliest end of its recordings;
* the **number of steps** in it, rounded up with a tolerance of `10 ^ (-9)` steps;
* the **look-up** of a sample, rounded down and compared with the number of samples;
* the **fold** of one sample of every member, which is zero when one of them is missing.

**Theorem (`steps_have_samples`).** The window is the set of times at which every member has a
sample, and every step of a worker lies in it. So an aligned run only writes values that are
folded from samples of all members, and a locked baseline finds a sample of its stream at every
step.
-/

namespace Aperture

open Exact

variable {K : Type} [Field K] [LinearOrder K] [FloorRing K]

/-! ## Recordings -/

namespace Cube

theorem isSome_sampleAt (c : Cube K) (t : K) : (c.sampleAt t).isSome = (c.indexAt t).isSome := by
  rw [sampleAt]
  cases h : c.indexAt t with
  | none => rfl
  | some i => simp [indexAt_lt h]

theorem endSeconds_of_rate_nonpos {c : Cube K} (hrate : ¬0 < c.rate) :
    c.endSeconds = c.startSeconds := by
  have hduration : c.duration = 0 := by simp [duration, hrate]
  rw [endSeconds, hduration]
  exact add_zero _

/-- A recording without a positive rate covers no time. -/
theorem rate_pos_of_covers {c : Cube K} {t : K} (h : c.startSeconds ≤ t ∧ t < c.endSeconds) :
    0 < c.rate := by
  by_contra hrate
  rw [endSeconds_of_rate_nonpos hrate] at h
  exact absurd h.2 (not_lt.2 h.1)

/-- A recording has a sample from its start until its end. -/
theorem isSome_sampleAt_iff [IsStrictOrderedRing K] {c : Cube K} (hrate : 0 < c.rate) (t : K) :
    (c.sampleAt t).isSome = true ↔ c.startSeconds ≤ t ∧ t < c.endSeconds := by
  have hindex : (c.indexAt t).isSome = true ↔
      0 ≤ (t - c.startSeconds) * c.rate ∧ (t - c.startSeconds) * c.rate < (c.size : K) := by
    simp only [indexAt, isFinite_eq, le_eq, zero_eq, floor_eq, toNat_intCast]
    generalize (t - c.startSeconds) * c.rate = offset
    have hbelow : 0 ≤ ⌊offset⌋ → (⌊offset⌋.toNat < c.size ↔ offset < (c.size : K)) := fun h => by
      rw [← Int.cast_natCast, ← Int.floor_lt]
      omega
    by_cases hstart : 0 ≤ ⌊offset⌋
    · simp [hstart, hbelow, Int.floor_nonneg.1 hstart]
    · simp [hstart, Int.floor_nonneg.not.1 hstart]
  have hduration : c.endSeconds = c.startSeconds + (c.size : K) / c.rate := by
    simp [endSeconds, duration, hrate]
  rw [isSome_sampleAt, hindex, hduration, mul_nonneg_iff_of_pos_right hrate, sub_nonneg,
    ← lt_div_iff₀ hrate, sub_lt_iff_lt_add']

end Cube

/-! ## Windows -/

section

variable {α β L : Type} [LinearOrder L]

theorem foldl_max_le_iff {f : α → L} {l : List α} {a t : L} :
    l.foldl (fun m c => max m (f c)) a ≤ t ↔ a ≤ t ∧ ∀ c ∈ l, f c ≤ t := by
  induction l generalizing a with
  | nil => simp
  | cons c l ih => simp [ih, and_assoc]

theorem lt_foldl_min_iff {f : α → L} {l : List α} {a t : L} :
    t < l.foldl (fun m c => min m (f c)) a ↔ t < a ∧ ∀ c ∈ l, t < f c := by
  induction l generalizing a with
  | nil => simp
  | cons c l ih => simp [ih, and_assoc]

theorem mapM_eq_some_iff {f : α → Option β} {l : List α} {l' : List β} :
    l.mapM f = some l' ↔ l.map f = l'.map some := by
  induction l generalizing l' with
  | nil => cases l' <;> simp
  | cons a l ih =>
    rw [List.mapM_cons]
    cases hb : f a with
    | none => cases l' <;> simp [hb]
    | some b => cases l' <;> simp [hb, Option.bind_eq_some_iff, ih, and_comm]

end

namespace Baseline

section

variable {R : Type} {b : Baseline R} {view : View R} {recordings : List (Cube R)}

/-- The recordings that a baseline correlates: those of its members, or the stream that it is locked
to. There are none when a member is missing. -/
def recordings? (b : Baseline R) (view : View R) : Option (List (Cube R)) :=
  match b.locked with
  | some stream => some [stream]
  | none => (b.members.mapM view.station?).map (List.map Station.recording)

theorem recordings?_of_locked {stream : Cube R} (h : b.locked = some stream) :
    b.recordings? view = some [stream] := by
  rw [recordings?, h]

/-- The recordings of an unlocked baseline are those of its stations, if none is missing. -/
theorem recordings?_eq_some_iff (h : b.locked = none) :
    b.recordings? view = some recordings ↔ ∃ stations : List (Station R),
      b.members.map view.station? = stations.map some ∧
        stations.map Station.recording = recordings := by
  rw [recordings?, h]
  simp only [Option.map_eq_some_iff, mapM_eq_some_iff]

end

/-- Every member has a sample at a time. -/
def Sampled (b : Baseline K) (view : View K) (t : K) : Prop :=
  ∀ slot ∈ b.members, ∃ s x, view.station? slot = some s ∧ s.recording.sampleAt t = some x

/-- A window is made of some recordings, all of which are running in it. -/
theorem window_eq (b : Baseline K) (view : View K) :
    b.window view =
      match b.recordings? view with
      | some (first :: rest) =>
        let start := rest.foldl (fun t c => max t c.startSeconds) first.startSeconds
        let stop := rest.foldl (fun t c => min t c.endSeconds) first.endSeconds
        if start < stop then some (start, stop) else none
      | _ => none := by
  rw [window, recordings?]
  cases b.locked with
  | some stream => simp
  | none =>
    rcases b.members.mapM view.station? with _ | _ | ⟨s, stations⟩
    · rfl
    · rfl
    · simp

/-- All recordings are running at a time. -/
def Covered (recordings : List (Cube K)) (t : K) : Prop :=
  ∀ c ∈ recordings, c.startSeconds ≤ t ∧ t < c.endSeconds

theorem covered_cons_iff {first : Cube K} {rest : List (Cube K)} {t : K} :
    Covered (first :: rest) t ↔
      rest.foldl (fun t c => max t c.startSeconds) first.startSeconds ≤ t ∧
        t < rest.foldl (fun t c => min t c.endSeconds) first.endSeconds := by
  rw [foldl_max_le_iff, lt_foldl_min_iff, Covered, List.forall_mem_cons, forall₂_and]
  exact and_and_and_comm

variable {b : Baseline K} {view : View K} {recordings : List (Cube K)}

/-- A window is the time that all recordings cover. -/
theorem mem_window_iff (h : b.recordings? view = some recordings) {start stop t : K}
    (hwindow : b.window view = some (start, stop)) :
    start ≤ t ∧ t < stop ↔ Covered recordings t := by
  rw [window_eq, h] at hwindow
  cases recordings with
  | nil => cases hwindow
  | cons first rest =>
    simp only [Option.ite_none_right_eq_some, Option.some.injEq, Prod.mk.injEq] at hwindow
    obtain ⟨-, rfl, rfl⟩ := hwindow
    exact covered_cons_iff.symm

theorem exists_recordings {start stop : K} (hwindow : b.window view = some (start, stop)) :
    ∃ recordings, b.recordings? view = some recordings ∧ recordings ≠ [] := by
  rw [window_eq] at hwindow
  generalize b.recordings? view = recordings? at hwindow ⊢
  rcases recordings? with _ | _ | ⟨first, rest⟩
  · cases hwindow
  · cases hwindow
  · exact ⟨_, rfl, List.cons_ne_nil _ _⟩

/-- There is no window if the recordings never overlap. -/
theorem window_eq_none_iff (h : b.recordings? view = some recordings) (hne : recordings ≠ []) :
    b.window view = none ↔ ¬∃ t, Covered recordings t := by
  obtain ⟨first, rest, rfl⟩ := List.exists_cons_of_ne_nil hne
  rw [window_eq, h]
  simp only [ite_eq_right_iff, reduceCtorEq, imp_false, covered_cons_iff]
  exact not_congr ⟨fun hlt => ⟨_, le_rfl, hlt⟩, fun ⟨t, hstart, hstop⟩ => hstart.trans_lt hstop⟩

/-! ## Members -/

variable [IsStrictOrderedRing K]

/-- Members have samples while their recordings are running. -/
theorem sampled_iff_covered {stations : List (Station K)}
    (hmembers : b.members.map view.station? = stations.map some) {t : K}
    (hrate : ∀ s ∈ stations, 0 < s.recording.rate) :
    b.Sampled view t ↔ Covered (stations.map Station.recording) t := by
  have hslots : b.Sampled view t ↔
      ∀ o ∈ b.members.map view.station?,
        ∃ s x, o = some s ∧ s.recording.sampleAt t = some x := by
    rw [List.forall_mem_map]
    rfl
  rw [hslots, hmembers, Covered, List.forall_mem_map, List.forall_mem_map]
  refine forall₂_congr fun s hs => ?_
  rw [← Cube.isSome_sampleAt_iff (hrate s hs), Option.isSome_iff_exists]
  simp

end Baseline

/-! ## Steps -/

namespace Worker

variable {plan : Plan K} {view : View K} {b : Baseline K} {start stop : K} {k : Nat}

theorem stepTime_eq (plan : Plan K) (start : K) (k : Nat) :
    stepTime plan start k = start + k / plan.rate := by
  rw [stepTime, ofNat_eq, one_eq, mul_one_div]

variable [Trig K]

theorem total_track (hwindow : b.window view = some (start, stop)) :
    (track plan view b).total = stepCount plan start stop := by
  simp only [track, Track.limited, course, hwindow]

variable [IsStrictOrderedRing K]

omit [Trig K] in
/-- The steps are those before the end of the window, but for the tolerance. -/
theorem lt_stepCount_iff (hrate : 0 < plan.rate) :
    k < stepCount plan start stop ↔
      stepTime plan start k < stop - 10 ^ (-9 : ℤ) / plan.rate := by
  have hcount : stepCount plan start stop =
      ⌈(stop - start) * plan.rate - 10 ^ (-9 : ℤ)⌉.toNat := by
    have hcast (z : ℤ) : max (z : K) 0 = ((max z 0 : ℤ) : K) := by push_cast; rfl
    rw [stepCount, greatest_eq, ceil_eq, zero_eq, hcast, toNat_intCast, ofDecimal_eq,
      Nat.cast_one, one_mul]
    omega
  generalize (10 ^ (-9 : ℤ) : K) = tolerance at hcount ⊢
  have hgap : stop - tolerance / plan.rate - (start + k / plan.rate) =
      ((stop - start) * plan.rate - tolerance - k) / plan.rate := by
    field_simp
    ring
  rw [hcount, Int.lt_toNat, Int.lt_ceil, stepTime_eq, Int.cast_natCast, ← sub_pos,
    ← sub_pos (b := start + _), hgap, div_pos_iff_of_pos_right hrate]

omit [Trig K] in
/-- A step lies in its window. -/
theorem stepTime_mem (hrate : 0 < plan.rate) (hk : k < stepCount plan start stop) :
    start ≤ stepTime plan start k ∧ stepTime plan start k < stop := by
  rw [lt_stepCount_iff hrate] at hk
  constructor
  · rw [stepTime_eq, le_add_iff_nonneg_right]
    positivity
  · refine hk.trans_le (sub_le_self stop ?_)
    positivity

end Worker

/-! ## Values -/

section

variable {R : Type} [Scalar R]

/-- Without a missing sample nothing but the fold is left. -/
theorem Baseline.foldSamples_map_some (f : Correlator R) (x : R) (rest : List R) :
    foldSamples f x (rest.map some) = rest.foldlM f x := by
  induction rest generalizing x with
  | nil => rfl
  | cons y rest ih =>
    rw [List.map_cons, foldSamples, List.foldlM_cons]
    exact congrArg _ (funext ih)

/-- One sample of every member, all taken at one time. -/
def Baseline.samplesAt (b : Baseline R) (view : View R) (t : R) : List (Option R) :=
  b.members.map fun slot => (view.station? slot).bind fun s => s.recording.sampleAt t

theorem exists_map_some {α β : Type} {f : α → Option β} {l : List α}
    (h : ∀ a ∈ l, (f a).isSome = true) : ∃ l' : List β, l.map f = l'.map some := by
  induction l with
  | nil => exact ⟨[], rfl⟩
  | cons a l ih =>
    rw [List.forall_mem_cons, Option.isSome_iff_exists] at h
    obtain ⟨⟨b, hb⟩, hrest⟩ := h
    obtain ⟨l', hl'⟩ := ih hrest
    exact ⟨b :: l', by rw [List.map_cons, hb, hl', List.map_cons]⟩

variable [Trig R] {plan : Plan R} {view : View R} {b : Baseline R} {t : R}

/-- The value of an unlocked baseline in an aligned run, when no member misses its sample. -/
theorem Worker.valueAt_of_synced (hsynced : plan.synced = true) (hlocked : b.locked = none)
    {x : R} {rest : List R} (hsamples : b.samplesAt view t = (x :: rest).map some) :
    valueAt plan view b t = rest.foldlM b.correlator x := by
  have haim : (aim plan view b t).locked = none ∧ (aim plan view b t).members = b.members ∧
      (aim plan view b t).correlator = b.correlator := by
    unfold aim
    split <;> exact ⟨hlocked, rfl, rfl⟩
  obtain ⟨hunlocked, hmembers, hcorrelator⟩ := haim
  have hzip : (b.members.zip (b.members.map fun _ => t)).map
      (fun m => (view.station? m.1).bind fun s => s.recording.sampleAt m.2) =
      b.samplesAt view t := by
    rw [List.zip_map_right, List.map_map, Baseline.samplesAt]
    induction b.members with
    | nil => rfl
    | cons slot slots ih => rw [List.zip_cons_cons, List.map_cons, List.map_cons, ih]; rfl
  simp only [valueAt, Baseline.correlate, hunlocked, Baseline.sampleTimes, hsynced, hmembers,
    hcorrelator, if_true, hzip, hsamples, List.map_cons]
  exact Baseline.foldSamples_map_some b.correlator x rest

/-- A locked baseline takes its values from its stream. -/
theorem Worker.valueAt_of_locked {stream : Cube R} (hlocked : b.locked = some stream) :
    valueAt plan view b t = .ok ((stream.sampleAt t).getD Scalar.zero) := by
  have haim : (aim plan view b t).locked = some stream := by
    unfold aim
    split <;> exact hlocked
  simp only [valueAt, Baseline.correlate, haim]

/-- What a worker writes is the value of one of its steps. -/
theorem Worker.step_of_write {w : Write R} (hw : w ∈ (run plan view b).writes) {start stop : R}
    (hwindow : b.window view = some (start, stop)) :
    w.step < (track plan view b).total ∧
      valueAt plan view b (stepTime plan start w.step) = .ok w.value := by
  have hmem : w ∈ (Walk.along (track plan view b)).writes := List.mem_reverse.1 hw
  obtain ⟨hstep, hvalue⟩ := (Walk.reached_along _).written w hmem
  refine ⟨hstep, ?_⟩
  replace hvalue := Walk.value_of_limited hvalue
  simp only [course, hwindow] at hvalue
  cases hon : valueAt plan view b (stepTime plan start w.step) with
  | error e =>
    rw [hon] at hvalue
    cases hvalue
  | ok value =>
    rw [hon] at hvalue
    obtain rfl := Option.some.inj hvalue
    rfl

end

/-! ## The theorem -/

/-- Times at which every member of a group has a sample. -/
theorem Baseline.exists_samples {b : Baseline K} {view : View K} {t : K}
    (hne : b.members ≠ []) (h : b.Sampled view t) :
    ∃ x rest, b.samplesAt view t = (x :: rest).map some := by
  obtain ⟨samples, hsamples⟩ : ∃ samples : List K, b.samplesAt view t = samples.map some := by
    refine exists_map_some fun slot hslot => ?_
    obtain ⟨s, x, hs, hx⟩ := h slot hslot
    rw [hs, Option.bind_some, hx, Option.isSome_some]
  cases samples with
  | nil => exact absurd (List.map_eq_nil_iff.1 hsamples) hne
  | cons x rest => exact ⟨x, rest, hsamples⟩

variable [IsStrictOrderedRing K]

namespace Baseline

variable {b : Baseline K} {view : View K} {start stop t : K}

/-- A window is made of samples, whatever the rates are: a recording without a positive rate has no
window. -/
theorem samples_of_mem_window (hlocked : b.locked = none)
    (hwindow : b.window view = some (start, stop)) (ht : start ≤ t ∧ t < stop) :
    ∃ x rest, b.samplesAt view t = (x :: rest).map some := by
  obtain ⟨recordings, hrecordings, hne⟩ := exists_recordings hwindow
  have hcovered := (mem_window_iff hrecordings hwindow).1 ht
  obtain ⟨stations, hmembers, rfl⟩ := (recordings?_eq_some_iff hlocked).1 hrecordings
  refine exists_samples (fun hnil => hne ?_)
    ((sampled_iff_covered hmembers fun s hs => ?_).2 hcovered)
  · rw [hnil] at hmembers
    rw [List.map_eq_nil_iff.1 hmembers.symm, List.map_nil]
  · exact Cube.rate_pos_of_covers (hcovered _ (List.mem_map_of_mem hs))

/-- A window of a locked baseline is made of samples of its stream. -/
theorem sample_of_mem_window {stream : Cube K} (hlocked : b.locked = some stream)
    (hwindow : b.window view = some (start, stop)) (ht : start ≤ t ∧ t < stop) :
    ∃ x, stream.sampleAt t = some x := by
  have hcovered := (mem_window_iff (recordings?_of_locked hlocked) hwindow).1 ht
  have hrunning := hcovered stream (List.mem_singleton_self stream)
  rw [← Option.isSome_iff_exists,
    Cube.isSome_sampleAt_iff (Cube.rate_pos_of_covers hrunning)]
  exact hrunning

/-- The window of an unlocked group is the set of times at which all members have a sample. A group
without members has no window. -/
theorem window_iff_sampled (hlocked : b.locked = none)
    (hrate : ∀ s ∈ b.stations view, 0 < s.recording.rate) :
    (∀ start stop, b.window view = some (start, stop) →
      ∀ t, start ≤ t ∧ t < stop ↔ b.Sampled view t) ∧
    (b.window view = none ↔ b.members = [] ∨ ¬∃ t, b.Sampled view t) := by
  cases hrecordings : b.recordings? view with
  | none =>
    have hnone : b.window view = none := by rw [window_eq, hrecordings]
    have hmissing (t : K) : ¬b.Sampled view t := fun h => by
      obtain ⟨stations, hstations⟩ := exists_map_some fun slot hslot =>
        Option.isSome_iff_exists.2 (let ⟨s, _, hs, _⟩ := h slot hslot; ⟨s, hs⟩)
      have hsome := (recordings?_eq_some_iff hlocked).2 ⟨stations, hstations, rfl⟩
      rw [hrecordings] at hsome
      cases hsome
    simp [hnone, hmissing]
  | some recordings =>
    obtain ⟨stations, hmembers, rfl⟩ := (recordings?_eq_some_iff hlocked).1 hrecordings
    have hsampled (t : K) : b.Sampled view t ↔ Covered (stations.map Station.recording) t :=
      sampled_iff_covered hmembers (stations_of_members hmembers ▸ hrate)
    refine ⟨fun start stop hwindow t => ?_, ?_⟩
    · rw [hsampled, mem_window_iff hrecordings hwindow]
    · simp only [hsampled]
      cases stations with
      | nil =>
        have hnone : b.window view = none := by rw [window_eq, hrecordings]; rfl
        simp [hnone, List.map_eq_nil_iff.1 hmembers]
      | cons s stations =>
        have hne : b.members ≠ [] := fun hnil => by
          rw [hnil] at hmembers
          cases hmembers
        rw [window_eq_none_iff hrecordings (List.cons_ne_nil _ _), or_iff_right hne]

end Baseline

namespace Worker

variable [Trig K]

/-- **Every step of a window has its samples.**

* The window of an unlocked group is the set of times at which every member has a sample. There is
  none exactly when there is no such time, or no member.
* Without a window there is no step. Step `k` of a window is `k` over the rate of the plan after
  its start, and the steps are those before its end, but for a tolerance of `10 ^ (-9)` steps.
* In an aligned run the value of a step is folded from a sample of every member, from the left. The
  value of a locked baseline is a sample of its stream.
* A worker writes the values of such steps and nothing else, whether it strides or not. -/
theorem steps_have_samples (view : View K) (b : Baseline K) :
    (b.locked = none → (∀ s ∈ b.stations view, 0 < s.recording.rate) →
      (∀ start stop, b.window view = some (start, stop) →
        ∀ t, start ≤ t ∧ t < stop ↔ b.Sampled view t) ∧
      (b.window view = none ↔ b.members = [] ∨ ¬∃ t, b.Sampled view t)) ∧
    ∀ plan : Plan K, 0 < plan.rate →
      (b.window view = none → (track plan view b).total = 0) ∧
      ∀ start stop, b.window view = some (start, stop) →
        (∀ k : Nat, k < (track plan view b).total ↔
          start + k / plan.rate < stop - 10 ^ (-9 : ℤ) / plan.rate) ∧
        (∀ k < (track plan view b).total,
          (plan.synced = true → b.locked = none → ∃ x rest,
            b.samplesAt view (start + k / plan.rate) = (x :: rest).map some ∧
            valueAt plan view b (start + k / plan.rate) = rest.foldlM b.correlator x) ∧
          (∀ stream, b.locked = some stream → ∃ x,
            stream.sampleAt (start + k / plan.rate) = some x ∧
            valueAt plan view b (start + k / plan.rate) = .ok x)) ∧
        ∀ w ∈ (run plan view b).writes, w.step < (track plan view b).total ∧
          valueAt plan view b (start + w.step / plan.rate) = .ok w.value := by
  refine ⟨Baseline.window_iff_sampled, fun plan hrate => ⟨fun hnone => ?_, ?_⟩⟩
  · simp only [track, Track.limited, course, hnone]
  intro start stop hwindow
  refine ⟨fun k => ?_, fun k hk => ?_, fun w hw => ?_⟩
  · rw [total_track hwindow, lt_stepCount_iff hrate, stepTime_eq]
  · rw [total_track hwindow] at hk
    have hmem := stepTime_mem hrate hk
    rw [stepTime_eq] at hmem
    refine ⟨fun hsynced hlocked => ?_, fun stream hlocked => ?_⟩
    · obtain ⟨x, rest, hsamples⟩ := Baseline.samples_of_mem_window hlocked hwindow hmem
      exact ⟨x, rest, hsamples, valueAt_of_synced hsynced hlocked hsamples⟩
    · obtain ⟨x, hx⟩ := Baseline.sample_of_mem_window hlocked hwindow hmem
      exact ⟨x, hx, by rw [valueAt_of_locked hlocked, hx, Option.getD_some]⟩
  · have hstep := step_of_write hw hwindow
    rwa [stepTime_eq] at hstep

/-- Recordings that start at different times, with samples of different lengths. -/
def staggered : View ℚ :=
  let recording (start : Int) (rate : ℚ) (samples : Array ℚ) : Cube ℚ :=
    { Cube.ofSamples samples with start := .add .j2000 (start * Epoch.perSecond), rate }
  { stations := .ofList [
      { name := "a", index := 0, recording := recording 0 2 #[1, 2, 3, 4, 5] },
      { name := "b", index := 1, recording := recording 1 1 #[10, 20, 30] }]
    reference := .origin
    frame := .geographic }

/-- The baseline of the first two stations. -/
def firstTwo (locked : Option (Cube ℚ)) : Baseline ℚ :=
  { name := "a_b", members := [0, 1], locked, target := .origin, wavelength := 1, rate := 1
    correlator := .product, vector := .zero, uv := .zero, pointing := [] }

/-- The group without members has no window, although no member ever misses a sample. -/
theorem no_window_without_members :
    ∃ b : Baseline ℚ, Baseline.ofMembers? [] staggered = some b ∧ b.locked = none ∧
      (∀ s ∈ b.stations staggered, 0 < s.recording.rate) ∧
      ¬(b.window staggered = none ↔ ¬∃ t, b.Sampled staggered t) := by
  refine ⟨_, rfl, rfl, fun s hs => ?_, fun h => ?_⟩
  · cases hs
  · refine h.1 (by decide +kernel) ⟨0, fun slot hslot => ?_⟩
    cases hslot

theorem steps_have_samples_staggered :
    let plan : Plan ℚ := { Plan.default with rate := 2, synced := true }
    let b := firstTwo none
    let stream := Cube.ofSamples #[(7 : ℚ), 8]
    let locked := firstTwo (some stream)
    b.window staggered = some (1, 5 / 2) ∧ (track plan staggered b).total = 3 ∧
    (∀ t : ℚ, 1 ≤ t ∧ t < 5 / 2 ↔ b.Sampled staggered t) ∧
    (∃ x rest, b.samplesAt staggered (1 + (2 : Nat) / plan.rate) = (x :: rest).map some ∧
      valueAt plan staggered b (1 + (2 : Nat) / plan.rate) = rest.foldlM b.correlator x) ∧
    locked.window staggered = some (0, 2) ∧ (track plan staggered locked).total = 4 ∧
    ∃ x, stream.sampleAt (0 + (3 : Nat) / plan.rate) = some x ∧
      valueAt plan staggered locked (0 + (3 : Nat) / plan.rate) = .ok x := by
  intro plan b stream locked
  have hrate : ∀ s ∈ b.stations staggered, 0 < s.recording.rate := by decide +kernel
  have hplan : 0 < plan.rate := by decide +kernel
  have hwindow : b.window staggered = some (1, 5 / 2) := by decide +kernel
  have hlocked : locked.window staggered = some (0, 2) := by decide +kernel
  have htotal : (track plan staggered b).total = 3 := by decide +kernel
  have hlength : (track plan staggered locked).total = 4 := by decide +kernel
  obtain ⟨hsampled, hsteps⟩ := steps_have_samples staggered b
  obtain ⟨-, hlockedSteps⟩ := steps_have_samples staggered locked
  refine ⟨hwindow, htotal, (hsampled rfl hrate).1 _ _ hwindow, ?_, hlocked, hlength, ?_⟩
  · exact (((hsteps plan hplan).2 _ _ hwindow).2.1 2 (by rw [htotal]; decide)).1 rfl rfl
  · exact (((hlockedSteps plan hplan).2 _ _ hlocked).2.1 3 (by rw [hlength]; decide)).2 stream rfl

end Worker

end Aperture
