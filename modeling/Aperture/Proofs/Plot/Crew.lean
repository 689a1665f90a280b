import Aperture.Imaging.Slots
import Aperture.Proofs.Plot.Thread
import Mathlib.Algebra.GroupWithZero.Nat
import Mathlib.Algebra.Order.BigOperators.Group.List
import Mathlib.Algebra.Order.Group.Nat
import Mathlib.Logic.Relation

/-!
# Crews

The threads of a plot, running at once.

**The steps** (`Crew.Step`). The main thread takes a slot and spawns the thread of the next
baseline, in the order of the baselines. Between its steps the threads move in any order, and the
actions of the moves change the shared image and the slots.

**The invariant** (`Crew.Balanced`). The threads that wait are those that were not spawned; free
slots and slots that somebody holds are all slots there are; and the shared image counts the threads
that have begun and not ended. `Balanced.step`: every step keeps it.

Main results, about every state that a crew reaches:

* `Reaches.sound`: each thread is where its worker alone would be.
* `Reaches.balanced`: the invariant.
* `Reaches.complete_or_step`, `no_endless_run`: the crew is not stuck, and no run goes on for ever.
-/

namespace Aperture

theorem Slots.take?_eq_some {s t : Slots} (h : s.take? = some t) :
    0 < s.free ∧ t = { s with free := s.free - 1 } := by
  unfold take? at h
  split at h
  · cases h
  · next hfree => exact ⟨Nat.pos_of_ne_zero hfree, (Option.some.inj h).symm⟩

/-- The threads of a plot with what they share. -/
structure Crew (R : Type) where
  threads : List (Thread R)
  /-- How many threads were spawned. -/
  spawned : Nat
  /-- The main thread holds a slot for the next thread. -/
  ready : Bool
  slots : Slots
  shared : SharedImage R

namespace Crew

variable {R : Type}

/-- How many slots the threads and the main thread hold. -/
def held (c : Crew R) : Nat := (c.threads.map Thread.slots).sum + c.ready.toNat

/-- How many threads have begun and not ended. -/
def counted (c : Crew R) : Nat := (c.threads.map Thread.counted).sum

theorem held_of_idle {c : Crew R} (hidle : ∀ th ∈ c.threads, th.slots = 0) :
    c.held = c.ready.toNat := by
  have hnone : (c.threads.map Thread.slots).sum = 0 := by
    simpa [List.sum_eq_zero_iff_forall_eq_nat] using hidle
  rw [held, hnone, Nat.zero_add]

/-! ## Changing one thread -/

theorem map_set_of_eq {α β : Type} {f : α → β} {l : List α} {i : Nat} {a b : α}
    (h : l[i]? = some a) (hab : f b = f a) : (l.set i b).map f = l.map f := by
  obtain ⟨hi, rfl⟩ := List.getElem?_eq_some_iff.1 h
  have hi' : i < (l.map f).length := by simpa using hi
  have hself : (l.map f)[i] = f l[i] := List.getElem_map f
  rw [List.map_set, hab, ← hself, List.set_getElem_self hi']

/-- What holds of the new element and of those that stay holds of a list after a change. -/
theorem forall_getElem?_set {α : Type} {P : Nat → α → Prop} {l : List α} {i : Nat} {b : α}
    (hself : P i b) (hothers : ∀ j a, i ≠ j → l[j]? = some a → P j a) {j : Nat} {a : α}
    (h : (l.set i b)[j]? = some a) : P j a := by
  rw [List.getElem?_set] at h
  split at h
  · next hij =>
    subst hij
    split at h
    · exact Option.some.inj h ▸ hself
    · cases h
  · next hij => exact hothers j a hij h

theorem sum_map_set {α : Type} {f : α → Nat} {l : List α} {i : Nat} {a : α} (b : α)
    (h : l[i]? = some a) : ((l.set i b).map f).sum + f a = (l.map f).sum + f b := by
  induction l generalizing i with
  | nil => cases h
  | cons x l ih =>
    cases i with
    | zero =>
      obtain rfl := Option.some.inj h
      simp only [List.set_cons_zero, List.map_cons, List.sum_cons]
      omega
    | succ i =>
      have hrest := ih h
      simp only [List.set_cons_succ, List.map_cons, List.sum_cons]
      omega

/-! ## The balance -/

/-- What a crew keeps: of the slots under a ceiling, `spare` ones are held outside the crew. -/
structure Balanced (ceiling spare : Nat) (c : Crew R) : Prop where
  /-- The threads are spawned in their order. -/
  waiting : ∀ i th, c.threads[i]? = some th → (th.phase = .waiting ↔ c.spawned ≤ i)
  /-- The main thread takes a slot for a thread that is there. -/
  spawned : c.spawned + c.ready.toNat ≤ c.threads.length
  /-- No slot is lost, and none comes in. -/
  slots : c.slots.free + c.held + spare = c.slots.ceiling
  ceiling : c.slots.ceiling = Slots.atLeastOne ceiling
  /-- The shared image counts the threads that have begun and not ended. -/
  active : c.shared.active = c.counted

section

variable {ceiling spare : Nat} {c : Crew R}

theorem Balanced.next_waits (hc : c.Balanced ceiling spare) {th : Thread R}
    (hth : c.threads[c.spawned]? = some th) : th.phase = .waiting :=
  (hc.waiting _ th hth).2 (Nat.le_refl _)

theorem Balanced.counted_le (hc : c.Balanced ceiling spare) {i : Nat} {th : Thread R}
    (hth : c.threads[i]? = some th) : th.counted ≤ c.shared.active := by
  rw [hc.active]
  exact List.single_le_sum (fun _ _ => Nat.zero_le _) _
    (List.mem_map_of_mem (List.mem_of_getElem? hth))

/-- As long as a slot is held, there is room for it. -/
theorem Balanced.release_eq (hc : c.Balanced ceiling spare) (hheld : 0 < c.held + spare) :
    c.slots.release = { c.slots with free := c.slots.free + 1 } := by
  have hslots := hc.slots
  rw [Slots.release, Nat.min_eq_left (by omega)]

theorem Balanced.acquire (hc : c.Balanced ceiling spare) {slots : Slots}
    (hready : c.ready = false) (hnext : c.spawned < c.threads.length)
    (htake : c.slots.take? = some slots) :
    Balanced ceiling spare { c with slots, ready := true } := by
  obtain ⟨hfree, rfl⟩ := Slots.take?_eq_some htake
  refine ⟨hc.waiting, hnext, ?_, hc.ceiling, hc.active⟩
  have hslots := hc.slots
  simp only [held, hready, Bool.toNat_false, Bool.toNat_true] at hslots ⊢
  omega

/-- The thread that is spawned is the first one that waits, and it takes the slot of the main
thread over. -/
theorem Balanced.spawn (hc : c.Balanced ceiling spare) {th : Thread R} (hready : c.ready = true)
    (hth : c.threads[c.spawned]? = some th) :
    Balanced ceiling spare { c with
      threads := c.threads.set c.spawned { th with phase := .spawned }
      spawned := c.spawned + 1
      ready := false } := by
  have hwaits := hc.next_waits hth
  refine ⟨fun i d hd => ?_, ?_, ?_, hc.ceiling, ?_⟩
  · refine forall_getElem?_set (P := fun i d => d.phase = .waiting ↔ c.spawned + 1 ≤ i) ?_
      (fun j d hij hd => ?_) hd
    · refine ⟨fun h => ?_, fun h => absurd h (Nat.not_succ_le_self _)⟩
      cases h
    · rw [hc.waiting j d hd]
      omega
  · have hlt := (List.getElem?_eq_some_iff.1 hth).1
    simpa [Nat.succ_le_iff] using hlt
  · have hset := sum_map_set (f := Thread.slots) { th with phase := .spawned } hth
    have hslots := hc.slots
    simp only [held, hready, Bool.toNat_true, Bool.toNat_false, Thread.slots, hwaits]
      at hset hslots ⊢
    omega
  · have hset := sum_map_set (f := Thread.counted) { th with phase := .spawned } hth
    have hactive := hc.active
    simp only [counted, Thread.counted, hwaits] at hset hactive ⊢
    omega

theorem Balanced.slots_of_idle (hc : c.Balanced ceiling spare) (hspare : spare = 0)
    (hready : c.ready = false) (hidle : ∀ th ∈ c.threads, th.slots = 0) :
    c.slots = .new ceiling := by
  have hslots := hc.slots
  rw [held_of_idle hidle, hready, hspare, hc.ceiling] at hslots
  calc c.slots = ⟨c.slots.free, c.slots.ceiling⟩ := rfl
    _ = .new ceiling := by
      rw [hc.ceiling, show c.slots.free = Slots.atLeastOne ceiling from hslots]
      rfl

end

/-! ## Steps -/

variable [Scalar R]

/-- No thread is spawned and all slots are free. -/
def start (plan : Plan R) (ceiling : Nat) (baselines : List (Baseline R)) : Crew R where
  threads := baselines.map (Thread.new plan)
  spawned := 0
  ready := false
  slots := .new ceiling
  shared := .blank (plan.width * plan.height)

/-- The crew after the action of a move. -/
def act (c : Crew R) : Thread.Action R → Crew R
  | .quiet => c
  | .image e => { c with shared := c.shared.apply e }
  | .release => { c with slots := c.slots.release }

@[simp] theorem spawned_act (c : Crew R) (a : Thread.Action R) : (c.act a).spawned = c.spawned := by
  cases a <;> rfl

@[simp] theorem ready_act (c : Crew R) (a : Thread.Action R) : (c.act a).ready = c.ready := by
  cases a <;> rfl

theorem shared_act (c : Crew R) (a : Thread.Action R) :
    (c.act a).shared = a.events.foldl SharedImage.apply c.shared := by
  cases a <;> rfl

variable [Trig R]

/-- The steps of a crew. -/
inductive Step (plan : Plan R) (view : View R) (c : Crew R) : Crew R → Prop
  /-- The main thread takes a slot for the next thread. -/
  | acquire {slots : Slots} (hready : c.ready = false) (hnext : c.spawned < c.threads.length)
      (htake : c.slots.take? = some slots) : Step plan view c { c with slots, ready := true }
  | spawn {th : Thread R} (hready : c.ready = true) (hth : c.threads[c.spawned]? = some th) :
      Step plan view c { c with
        threads := c.threads.set c.spawned { th with phase := .spawned }
        spawned := c.spawned + 1
        ready := false }
  | move {i : Nat} {th th' : Thread R} {a : Thread.Action R} (hth : c.threads[i]? = some th)
      (hmove : Thread.Move plan view th a th') :
      Step plan view c { c.act a with threads := c.threads.set i th' }

/-- A crew that started with all threads waiting comes to `c`. -/
def Reaches (plan : Plan R) (view : View R) (ceiling : Nat) (baselines : List (Baseline R))
    (c : Crew R) : Prop :=
  Relation.ReflTransGen (Step plan view) (start plan ceiling baselines) c

/-- All threads were spawned and are gone. -/
def Complete (c : Crew R) : Prop :=
  c.spawned = c.threads.length ∧ c.ready = false ∧ ∀ th ∈ c.threads, th.phase = .gone

variable {plan : Plan R} {view : View R} {ceiling : Nat} {baselines : List (Baseline R)}
  {c c' : Crew R}

/-! ## Invariants -/

theorem Reaches.baselines_eq (hc : Reaches plan view ceiling baselines c) :
    c.threads.map Thread.baseline = baselines := by
  induction hc with
  | refl => simp [start, Thread.new, Function.comp_def]
  | tail _ hstep ih =>
    rw [← ih]
    cases hstep with
    | acquire _ _ _ => rfl
    | spawn _ hth => exact map_set_of_eq hth rfl
    | move hth hmove => exact map_set_of_eq hth hmove.baseline_eq

omit [Trig R] in
theorem balanced_start (plan : Plan R) (ceiling : Nat) (baselines : List (Baseline R)) :
    (start plan ceiling baselines).Balanced ceiling 0 where
  waiting i th hth := by
    simp only [start, List.getElem?_map, Option.map_eq_some_iff] at hth
    obtain ⟨b, -, rfl⟩ := hth
    exact ⟨fun _ => Nat.zero_le i, fun _ => rfl⟩
  spawned := Nat.zero_le _
  slots := by simp [start, held, Slots.new, Thread.new, Thread.slots, Function.comp_def]
  ceiling := rfl
  active := by simp [start, counted, SharedImage.blank, Thread.new, Thread.counted,
    Function.comp_def]

theorem Balanced.move {spare : Nat} (hc : c.Balanced ceiling spare) {i : Nat} {th th' : Thread R}
    {a : Thread.Action R} (hth : c.threads[i]? = some th)
    (hmove : Thread.Move plan view th a th') :
    Balanced ceiling spare { c.act a with threads := c.threads.set i th' } := by
  have hset := sum_map_set (f := Thread.slots) th' hth
  have hheld : th.slots ≤ c.held := by
    refine Nat.le_trans ?_ (Nat.le_add_right _ _)
    exact List.single_le_sum (fun _ _ => Nat.zero_le _) _
      (List.mem_map_of_mem (List.mem_of_getElem? hth))
  have hslots := hc.slots
  have hgiven : (c.act a).slots.free + th'.slots = c.slots.free + th.slots ∧
      (c.act a).slots.ceiling = c.slots.ceiling := by
    rcases hmove.slots_eq with ⟨rfl, hgives⟩ | ⟨hkeeps, heq⟩
    · have hrelease := hc.release_eq (by omega)
      simp only [act, hrelease, and_true]
      omega
    · cases a with
      | release => exact absurd rfl hkeeps
      | _ => exact ⟨by rw [heq]; rfl, rfl⟩
  refine ⟨fun j d hd => ?_, ?_, ?_, hgiven.2.trans hc.ceiling, ?_⟩
  · show d.phase = .waiting ↔ (c.act a).spawned ≤ j
    rw [spawned_act]
    refine forall_getElem?_set (P := fun j d => d.phase = .waiting ↔ c.spawned ≤ j) ?_
      (fun k d _ hd => hc.waiting k d hd) hd
    obtain ⟨hwaited, hwaits⟩ := hmove.not_waiting
    rw [ne_eq, hc.waiting i th hth] at hwaited
    exact ⟨fun h => absurd h hwaits, fun h => absurd h hwaited⟩
  · simpa using hc.spawned
  · show (c.act a).slots.free + (((c.threads.set i th').map Thread.slots).sum +
      (c.act a).ready.toNat) + spare = (c.act a).slots.ceiling
    simp only [held] at hslots hheld
    rw [hgiven.2, ready_act]
    omega
  · show (c.act a).shared.active = ((c.threads.set i th').map Thread.counted).sum
    have hcount := sum_map_set (f := Thread.counted) th' hth
    have hactive := hmove.active_eq (hc.counted_le hth)
    rw [hc.active, counted] at hactive
    rw [shared_act]
    omega

/-- **Every step keeps the balance.** -/
theorem Balanced.step {spare : Nat} (hc : c.Balanced ceiling spare) (h : Step plan view c c') :
    c'.Balanced ceiling spare := by
  cases h with
  | acquire hready hnext htake => exact hc.acquire hready hnext htake
  | spawn hready hth => exact hc.spawn hready hth
  | move hth hmove => exact hc.move hth hmove

theorem Reaches.balanced (hc : Reaches plan view ceiling baselines c) : c.Balanced ceiling 0 := by
  induction hc with
  | refl => exact balanced_start plan ceiling baselines
  | tail _ hstep ih => exact ih.step hstep

/-- A step leaves every thread where its worker alone would be. -/
theorem Step.sound (h : Step plan view c c') {spare : Nat} (hc : c.Balanced ceiling spare)
    (hsound : ∀ th ∈ c.threads, th.Sound plan view) : ∀ th ∈ c'.threads, th.Sound plan view := by
  intro d hmem
  cases h with
  | acquire _ _ _ => exact hsound d hmem
  | @spawn th _ hth =>
    rcases List.mem_or_eq_of_mem_set hmem with hmem | rfl
    · exact hsound d hmem
    · exact (hsound th (List.mem_of_getElem? hth)).spawn (hc.next_waits hth)
  | @move i th th' a hth hmove =>
    rcases List.mem_or_eq_of_mem_set hmem with hmem | rfl
    · exact hsound d hmem
    · exact (hsound th (List.mem_of_getElem? hth)).move hmove

theorem sound_start (plan : Plan R) (view : View R) (ceiling : Nat)
    (baselines : List (Baseline R)) :
    ∀ th ∈ (start plan ceiling baselines).threads, th.Sound plan view := by
  intro th hmem
  obtain ⟨b, -, rfl⟩ := List.mem_map.1 hmem
  exact Thread.sound_new plan view b

/-- Every thread is where its worker alone would be. -/
theorem Reaches.sound (hc : Reaches plan view ceiling baselines c) :
    ∀ th ∈ c.threads, th.Sound plan view := by
  induction hc with
  | refl => exact sound_start plan view ceiling baselines
  | tail hprev hstep ih => exact hstep.sound (Reaches.balanced hprev) ih

theorem Reaches.size (hc : Reaches plan view ceiling baselines c) :
    c.shared.cells.size = plan.width * plan.height := by
  induction hc with
  | refl => simp [start, SharedImage.blank]
  | tail _ hstep ih =>
    cases hstep with
    | acquire _ _ _ => exact ih
    | spawn _ _ => exact ih
    | @move _ _ _ a _ _ =>
      cases a with
      | image e => exact (SharedImage.size_apply _ e).trans ih
      | _ => exact ih

theorem Reaches.slots_of_complete (hc : Reaches plan view ceiling baselines c)
    (hdone : c.Complete) : c.slots = .new ceiling := by
  obtain ⟨-, hready, hgone⟩ := hdone
  refine hc.balanced.slots_of_idle rfl hready fun th hmem => ?_
  simp only [Thread.slots, hgone th hmem]

/-! ## Every run comes to an end -/

theorem Reaches.step (hc : Reaches plan view ceiling baselines c) (h : Step plan view c c') :
    Reaches plan view ceiling baselines c' := hc.tail h

/-- A number that every step lowers: the work of the threads, and the slot of the main thread. -/
def work (plan : Plan R) (view : View R) (c : Crew R) : Nat :=
  (c.threads.map (Thread.work plan view)).sum + (!c.ready).toNat

theorem Balanced.work_lt {spare : Nat} (hc : c.Balanced ceiling spare)
    (h : Step plan view c c') : c'.work plan view < c.work plan view := by
  cases h with
  | acquire hready _ _ => simp [work, hready]
  | @spawn th hready hth =>
    have hset := sum_map_set (f := Thread.work plan view) { th with phase := .spawned } hth
    have hwaits := hc.next_waits hth
    simp only [work, hready, Bool.not_true, Bool.not_false, Bool.toNat_false, Bool.toNat_true]
    simp only [Thread.work, hwaits] at hset ⊢
    omega
  | @move i th th' a hth hmove =>
    have hset := sum_map_set (f := Thread.work plan view) th' hth
    have hlt := hmove.work_lt
    simp only [work, ready_act]
    omega

/-- When no thread holds a slot and none is held outside the crew, all slots are free and the main
thread can go on. -/
theorem Balanced.complete_or_main (hc : c.Balanced ceiling 0)
    (hidle : ∀ th ∈ c.threads, th.slots = 0) :
    c.Complete ∨ (∃ slots, c.ready = false ∧ Step plan view c { c with slots, ready := true }) ∨
      ∃ th, c.ready = true ∧ c.threads[c.spawned]? = some th := by
  cases hready : c.ready with
  | true =>
    have hlt : c.spawned < c.threads.length := by
      simpa [hready, Nat.succ_le_iff] using hc.spawned
    exact .inr (.inr ⟨_, rfl, List.getElem?_eq_getElem hlt⟩)
  | false =>
    rcases Nat.lt_or_ge c.spawned c.threads.length with hlt | hge
    · have hslots := hc.slots
      have hceiling := hc.ceiling
      rw [held_of_idle hidle, hready] at hslots
      have hfree : c.slots.free ≠ 0 := by
        simp only [Bool.toNat_false, Slots.atLeastOne] at hslots hceiling
        omega
      exact .inr (.inl ⟨_, rfl, .acquire hready hlt (if_neg hfree)⟩)
    · have hle := hc.spawned
      refine .inl ⟨by omega, hready, ?_⟩
      intro th hmem
      obtain ⟨i, hi⟩ := List.mem_iff_getElem?.1 hmem
      apply Thread.gone_of_slots (hidle th hmem)
      intro hwaits
      have hlt := (List.getElem?_eq_some_iff.1 hi).1
      have hge := (hc.waiting i th hi).1 hwaits
      omega

/-- A thread with a slot can move. -/
theorem exists_move_of_busy (hsound : ∀ th ∈ c.threads, th.Sound plan view)
    (hbusy : ¬∀ th ∈ c.threads, th.slots = 0) :
    ∃ (i : Nat) (th : Thread R) (a : Thread.Action R) (th' : Thread R),
      c.threads[i]? = some th ∧ th.slots ≠ 0 ∧ Thread.Move plan view th a th' := by
  simp only [not_forall] at hbusy
  obtain ⟨th, hmem, hslot⟩ := hbusy
  obtain ⟨i, hi⟩ := List.mem_iff_getElem?.1 hmem
  obtain ⟨a, th', hmove⟩ := (hsound th hmem).exists_move hslot
  exact ⟨i, th, a, th', hi, hslot, hmove⟩

/-- **No crew is stuck.** As long as it is not complete, a thread can move or the main thread can go
on. -/
theorem Reaches.complete_or_step (hc : Reaches plan view ceiling baselines c) :
    c.Complete ∨ ∃ d, Step plan view c d := by
  by_cases hidle : ∀ th ∈ c.threads, th.slots = 0
  · rcases hc.balanced.complete_or_main hidle with hdone | ⟨_, -, hstep⟩ | ⟨th, hready, hth⟩
    · exact .inl hdone
    · exact .inr ⟨_, hstep⟩
    · exact .inr ⟨_, .spawn hready hth⟩
  · obtain ⟨i, th, a, th', hi, -, hmove⟩ := exists_move_of_busy hc.sound hidle
    exact .inr ⟨_, .move hi hmove⟩

/-- A crew can be brought to completion within the states of a kind, when no such state is stuck. -/
theorem Reaches.exists_complete {P : Crew R → Prop}
    (hstep : ∀ c, Reaches plan view ceiling baselines c → P c →
      c.Complete ∨ ∃ d, Step plan view c d ∧ P d)
    (hc : Reaches plan view ceiling baselines c) (hP : P c) :
    ∃ d, Relation.ReflTransGen (fun c d => Step plan view c d ∧ P d) c d ∧ d.Complete ∧ P d := by
  induction hwork : c.work plan view using Nat.strongRecOn generalizing c with
  | ind n ih =>
    rcases hstep c hc hP with hdone | ⟨d, h, hPd⟩
    · exact ⟨c, .refl, hdone, hP⟩
    · obtain ⟨e, hrun, hdone⟩ := ih _ (hwork ▸ hc.balanced.work_lt h) (hc.step h) hPd rfl
      exact ⟨e, .head ⟨h, hPd⟩ hrun, hdone⟩

/-- A run has no more steps than there is work at its start. -/
theorem no_endless_run (f : Nat → Crew R) (hstart : f 0 = start plan ceiling baselines)
    (hstep : ∀ n, Step plan view (f n) (f (n + 1))) : False := by
  have hreach (n : Nat) : Reaches plan view ceiling baselines (f n) := by
    induction n with
    | zero =>
      rw [hstart]
      exact .refl
    | succ n ih => exact ih.step (hstep n)
  have hwork (n : Nat) : (f n).work plan view + n ≤ (f 0).work plan view := by
    induction n with
    | zero => exact Nat.le_refl _
    | succ n ih =>
      have hlt := (hreach n).balanced.work_lt (hstep n)
      omega
  have hlong := hwork ((f 0).work plan view + 1)
  omega

end Crew

end Aperture
