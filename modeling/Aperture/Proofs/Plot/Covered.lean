import Aperture.Proofs.Plot.Interleaved
import Aperture.Proofs.Plot.Schedule
import Aperture.Proofs.Walk.Limits

/-!
# Covered cells of a plot

In the interleaved mode the threads of a crew do nothing to the shared image but interleave the
events of their workers (`Reaches.exists_account`), so what holds of the images of any interleaving
holds of plots: both ways of accumulating cover the same cells (`Network.Interleaves.covered_eq`).
-/

namespace Aperture

open Exact Timeline

section

variable {R : Type} [Scalar R] [Trig R] {plan : Plan R} {view : View R}
  {baselines : List (Baseline R)} {c : Crew R}

/-- The events of a thread that shares its values are the first ones of its worker. -/
theorem Thread.Sound.events_begin {th : Thread R} (hth : th.Sound plan view)
    (hmode : plan.accumulation = .interleaved) :
    th.events plan <+: (Worker.run plan view th.baseline).events := by
  have hwhole (hphase : th.phase = .leaving ∨ th.phase = .gone) :
      th.events plan <+: (Worker.run plan view th.baseline).events := by
    obtain ⟨hnext, hpending⟩ := hth.ended hphase
    have hwalk := hth.reached.eq_along hnext
    rw [events_of_left hphase, stored_of_none hpending, hwalk, sharing, hmode]
    exact List.prefix_refl _
  cases hphase : th.phase with
  | waiting => exact events_of_waiting hphase ▸ List.nil_prefix
  | spawned => simp [events, hphase]
  | walking =>
    have hsuffix : th.stored <:+ (Walk.along (Worker.track plan view th.baseline)).writes := by
      refine List.IsSuffix.trans ?_ hth.reached.writes_suffix
      unfold stored
      split
      · exact List.suffix_refl _
      · exact List.tail_suffix _
    have hreverse := List.reverse_prefix.2 hsuffix
    rw [events_of_walking hphase, sharing, hmode]
    simp only [WorkerRun.events, List.cons_append, List.prefix_cons_inj]
    exact (hreverse.map _).trans (List.prefix_append _ _)
  | leaving => exact hwhole (.inl hphase)
  | gone => exact hwhole (.inr hphase)

namespace Crew

/-- A timeline that explains a crew: the workers interleave, the shared image is what they did to
it, and each of them has done as many events as its thread. -/
structure Account (plan : Plan R) (view : View R) (baselines : List (Baseline R)) (c : Crew R)
    (s : Timeline R) : Prop where
  interleaving : Interleaving (baselines.map (Worker.run plan view)) s
  shared : c.shared = Timeline.image (plan.width * plan.height) s
  done_eq : ∀ i th, c.threads[i]? = some th → s.done i = (th.events plan).length

theorem account_start (plan : Plan R) (view : View R) (ceiling : Nat)
    (baselines : List (Baseline R)) :
    Account plan view baselines (start plan ceiling baselines) [] := by
  refine ⟨.nil, rfl, fun i th hth => ?_⟩
  simp only [start, List.getElem?_map, Option.map_eq_some_iff] at hth
  obtain ⟨b, -, rfl⟩ := hth
  rfl

/-- Another thread in a place needs an account of nothing but this thread. -/
theorem Account.set {s s' : Timeline R} (h : Account plan view baselines c s) {c' : Crew R}
    {i : Nat} {th : Thread R} (hthreads : c'.threads = c.threads.set i th)
    (hs' : Interleaving (baselines.map (Worker.run plan view)) s')
    (hshared : c'.shared = Timeline.image (plan.width * plan.height) s')
    (hself : s'.done i = (th.events plan).length) (hothers : ∀ j, i ≠ j → s'.done j = s.done j) :
    Account plan view baselines c' s' := by
  refine ⟨hs', hshared, fun j d hd => ?_⟩
  rw [hthreads] at hd
  refine forall_getElem?_set (P := fun j d => s'.done j = (d.events plan).length) hself
    (fun j d hij hd => ?_) hd
  rw [hothers j hij, h.done_eq j d hd]

theorem Account.move {s : Timeline R} (h : Account plan view baselines c s)
    (hmode : plan.accumulation = .interleaved) {i : Nat} {th th' : Thread R} {a : Thread.Action R}
    (hth : c.threads[i]? = some th) (hbaseline : baselines[i]? = some th.baseline)
    (hsound : th.Sound plan view) (hmove : Thread.Move plan view th a th') :
    ∃ s', Account plan view baselines { c.act a with threads := c.threads.set i th' } s' := by
  have hevents := hsound.events_move hmove
  have hstay (ha : a.events = []) :
      Account plan view baselines { c.act a with threads := c.threads.set i th' } s := by
    refine h.set rfl h.interleaving ?_ ?_ fun _ _ => rfl
    · show (c.act a).shared = _
      rw [shared_act, ha, List.foldl_nil, h.shared]
    · rw [h.done_eq i th hth, hevents, ha, List.append_nil]
  cases a with
  | quiet => exact ⟨s, hstay rfl⟩
  | release => exact ⟨s, hstay rfl⟩
  | image e =>
    have hr : (baselines.map (Worker.run plan view))[i]? =
        some (Worker.run plan view th.baseline) := by
      rw [List.getElem?_map, hbaseline]
      rfl
    -- What the thread has done now begins the events of its worker, so this one came next.
    obtain ⟨behind, hbehind⟩ := (hsound.move hmove).events_begin hmode
    rw [hevents, hmove.baseline_eq] at hbehind
    refine ⟨s ++ [(i, e)], h.set rfl (h.interleaving.next hr ?_) ?_ ?_ fun j hij => ?_⟩
    · rw [h.done_eq i th hth, ← hbehind]
      simp [Thread.Action.events]
    · rw [image_concat, ← h.shared]
      rfl
    · rw [done_concat, if_pos rfl, h.done_eq i th hth, hevents]
      simp [Thread.Action.events]
    · rw [done_concat, if_neg hij, Nat.add_zero]

/-- **The threads of a crew interleave the events of their workers.** -/
theorem Reaches.exists_account (hmode : plan.accumulation = .interleaved) {ceiling : Nat}
    (hc : Reaches plan view ceiling baselines c) : ∃ s, Account plan view baselines c s := by
  induction hc with
  | refl => exact ⟨[], account_start plan view ceiling baselines⟩
  | @tail c _ hprev hstep ih =>
    obtain ⟨s, h⟩ := ih
    cases hstep with
    | acquire _ _ _ => exact ⟨s, h.interleaving, h.shared, h.done_eq⟩
    | @spawn th _ hth =>
      refine ⟨s, h.set rfl h.interleaving h.shared ?_ fun _ _ => rfl⟩
      rw [h.done_eq _ th hth, Thread.events_of_waiting ((Reaches.balanced hprev).next_waits hth)]
      rfl
    | @move i th th' a hth hmove =>
      refine h.move hmode hth ?_ (Reaches.sound hprev th (List.mem_of_getElem? hth)) hmove
      rw [← Reaches.baselines_eq hprev, List.getElem?_map, hth]
      rfl

end Crew

end

end Aperture
