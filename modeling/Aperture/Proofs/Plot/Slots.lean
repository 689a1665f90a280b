import Aperture.Proofs.Plot.Crew
import Aperture.Proofs.Plot.Windows

/-!
# Slots are conserved

A crew at work, with all that the main thread may do with slots (`Shift`): it asks for a slot
without waiting for one, keeps slots for no thread in particular, drops them or uses one for the
next thread; and it may be refused a thread, whose slot comes back and behind which no thread is
spawned.

**Theorem (`slots_conserved`).** Whatever the order in which slots are taken and given back and in
which workers begin, write, end and panic: free slots and slots that somebody holds are as many as
the ceiling allows, and the shared image counts the workers that have begun and not ended. A shift
can always be brought to its end, and then all slots are free.

The crew stays balanced under everything the main thread does (`Sound.step`).
-/

namespace Aperture

open Exact

/-! ## What the main thread does with slots -/

namespace Crew

variable {R : Type} {ceiling spare : Nat} {c : Crew R}

/-- A slot that the main thread takes for no thread. -/
theorem Balanced.take (hc : c.Balanced ceiling spare) {slots : Slots}
    (htake : c.slots.take? = some slots) : Balanced ceiling (spare + 1) { c with slots } := by
  obtain ⟨hfree, rfl⟩ := Slots.take?_eq_some htake
  refine ⟨hc.waiting, hc.spawned, ?_, hc.ceiling, hc.active⟩
  have hslots := hc.slots
  simp only [held] at hslots ⊢
  omega

/-- A slot that was held for no thread is used for the next one. -/
theorem Balanced.assign (hc : c.Balanced ceiling (spare + 1)) (hready : c.ready = false)
    (hnext : c.spawned < c.threads.length) : Balanced ceiling spare { c with ready := true } := by
  refine ⟨hc.waiting, hnext, ?_, hc.ceiling, hc.active⟩
  have hslots := hc.slots
  simp only [held, hready, Bool.toNat_false, Bool.toNat_true] at hslots ⊢
  omega

theorem Balanced.drop (hc : c.Balanced ceiling (spare + 1)) :
    Balanced ceiling spare { c with slots := c.slots.release } := by
  rw [hc.release_eq (by omega)]
  refine ⟨hc.waiting, hc.spawned, ?_, hc.ceiling, hc.active⟩
  have hslots := hc.slots
  simp only [held] at hslots ⊢
  omega

/-- The slot of a thread that is refused comes back. -/
theorem Balanced.refuse (hc : c.Balanced ceiling spare) (hready : c.ready = true) :
    Balanced ceiling spare { c with slots := c.slots.release, ready := false } := by
  have hheld : 0 < c.held := by simp [held, hready]
  rw [hc.release_eq (by omega)]
  refine ⟨hc.waiting, Nat.le_trans (Nat.le_add_right _ _) hc.spawned, ?_, hc.ceiling, hc.active⟩
  have hslots := hc.slots
  simp only [held, hready, Bool.toNat_false, Bool.toNat_true] at hslots ⊢
  omega

/-- Unless threads panicked, only those with a slot are counted. -/
theorem counted_le_held
    (hwell : ∀ th ∈ c.threads, th.walk.isPanicked = false) : c.counted ≤ c.held := by
  refine Nat.le_trans ?_ (Nat.le_add_right _ _)
  exact List.sum_le_sum fun th hmem => Thread.counted_le_slots (hwell th hmem)

end Crew

/-! ## Shifts -/

/-- A crew at work under a main thread. -/
structure Shift (R : Type) where
  crew : Crew R
  /-- Slots that the main thread holds for no thread. -/
  spare : Nat := 0
  /-- A thread was refused, so no other one is spawned. -/
  closed : Bool := false

namespace Shift

variable {R : Type}

/-- How many slots somebody holds. -/
def held (s : Shift R) : Nat := s.crew.held + s.spare

/-- Ask for a slot without waiting. When there is none, nothing happens. -/
def ask (s : Shift R) : Shift R :=
  match s.crew.slots.take? with
  | some slots => { s with crew := { s.crew with slots }, spare := s.spare + 1 }
  | none => s

/-- Nothing is left to do: the main thread has spawned all threads or was refused one, the threads
it spawned are gone, and it holds no slot. -/
structure Joined (s : Shift R) : Prop where
  finished : s.closed = true ∨ s.crew.spawned = s.crew.threads.length
  ready : s.crew.ready = false
  spare : s.spare = 0
  gone : ∀ th ∈ s.crew.threads, th.phase = .waiting ∨ th.phase = .gone

variable [Scalar R]

def start (plan : Plan R) (ceiling : Nat) (baselines : List (Baseline R)) : Shift R :=
  { crew := .start plan ceiling baselines }

variable [Trig R]

/-- The steps of a shift. -/
inductive Step (plan : Plan R) (view : View R) (s : Shift R) : Shift R → Prop
  /-- A step of the crew; behind a refusal the main thread takes no slot for a thread. -/
  | crew {c : Crew R} (hstep : Crew.Step plan view s.crew c)
      (hclosed : s.closed = true → c.ready = false) : Step plan view s { s with crew := c }
  | ask : Step plan view s s.ask
  | assign {spare : Nat} (hspare : s.spare = spare + 1) (hopen : s.closed = false)
      (hready : s.crew.ready = false) (hnext : s.crew.spawned < s.crew.threads.length) :
      Step plan view s { s with crew := { s.crew with ready := true }, spare }
  | drop {spare : Nat} (hspare : s.spare = spare + 1) :
      Step plan view s { s with crew := { s.crew with slots := s.crew.slots.release }, spare }
  /-- The next thread is refused. -/
  | refuse (hready : s.crew.ready = true) : Step plan view s { s with
      crew := { s.crew with slots := s.crew.slots.release, ready := false }, closed := true }

/-- A shift that started with all threads waiting comes to `s`. -/
def Reaches (plan : Plan R) (view : View R) (ceiling : Nat) (baselines : List (Baseline R))
    (s : Shift R) : Prop :=
  Relation.ReflTransGen (Step plan view) (start plan ceiling baselines) s

variable {plan : Plan R} {view : View R} {ceiling : Nat} {baselines : List (Baseline R)}
  {s s' : Shift R}

/-! ## The invariant -/

/-- What a shift keeps: the balance of its crew, threads on the walks of their workers, and no slot
for a thread behind a refusal. -/
structure Sound (plan : Plan R) (view : View R) (ceiling : Nat) (s : Shift R) : Prop where
  balanced : s.crew.Balanced ceiling s.spare
  threads : ∀ th ∈ s.crew.threads, th.Sound plan view
  closed : s.closed = true → s.crew.ready = false

theorem Sound.free_add_held (hs : s.Sound plan view ceiling) :
    s.crew.slots.free + s.held = Slots.atLeastOne ceiling := by
  rw [← hs.balanced.ceiling, ← hs.balanced.slots, held, Nat.add_assoc]

theorem Joined.slots_eq (hdone : s.Joined) (hs : s.Sound plan view ceiling) :
    s.crew.slots = .new ceiling := by
  refine hs.balanced.slots_of_idle hdone.spare hdone.ready fun th hmem => ?_
  rcases hdone.gone th hmem with hphase | hphase <;> simp only [Thread.slots, hphase]

theorem Sound.step (hs : s.Sound plan view ceiling) (h : Step plan view s s') :
    s'.Sound plan view ceiling := by
  cases h with
  | crew hstep hclosed =>
    exact ⟨hs.balanced.step hstep, hstep.sound hs.balanced hs.threads, hclosed⟩
  | ask =>
    unfold ask
    split
    · next htake => exact ⟨hs.balanced.take htake, hs.threads, hs.closed⟩
    · exact hs
  | assign hspare hopen hready hnext =>
    refine ⟨(hspare ▸ hs.balanced).assign hready hnext, hs.threads, fun hclosed => ?_⟩
    exact absurd (hopen.symm.trans hclosed) Bool.false_ne_true
  | drop hspare => exact ⟨(hspare ▸ hs.balanced).drop, hs.threads, hs.closed⟩
  | refuse hready => exact ⟨hs.balanced.refuse hready, hs.threads, fun _ => rfl⟩

theorem Reaches.sound (hs : Reaches plan view ceiling baselines s) :
    s.Sound plan view ceiling := by
  induction hs with
  | refl =>
    exact ⟨Crew.balanced_start plan ceiling baselines,
      Crew.sound_start plan view ceiling baselines, fun _ => rfl⟩
  | tail _ hstep ih => exact ih.step hstep

/-! ## Every shift can be brought to its end -/

/-- The main thread can drop what it holds for no thread. -/
theorem Sound.exists_spareless (hs : s.Sound plan view ceiling) :
    ∃ s', Relation.ReflTransGen (Step plan view) s s' ∧ s'.Sound plan view ceiling ∧
      s'.spare = 0 := by
  induction hspare : s.spare generalizing s with
  | zero => exact ⟨s, .refl, hs, hspare⟩
  | succ spare ih =>
    have hdrop : Step plan view s _ := .drop hspare
    obtain ⟨s', hrun, hsound, hnone⟩ := ih (hs.step hdrop) rfl
    exact ⟨s', .head hdrop hrun, hsound, hnone⟩

/-- A shift that is not at its end goes on, as long as no slot is kept for no thread. -/
theorem Sound.joined_or_step (hs : s.Sound plan view ceiling) (hspare : s.spare = 0) :
    s.Joined ∨ ∃ c, Crew.Step plan view s.crew c ∧ (s.closed = true → c.ready = false) := by
  by_cases hidle : ∀ th ∈ s.crew.threads, th.slots = 0
  · have hgone (th) (hmem : th ∈ s.crew.threads) : th.phase = .waiting ∨ th.phase = .gone :=
      or_iff_not_imp_left.2 (Thread.gone_of_slots (hidle th hmem))
    cases hclosed : s.closed with
    | true => exact .inl ⟨.inl hclosed, hs.closed hclosed, hspare, hgone⟩
    | false =>
      rcases (hspare ▸ hs.balanced).complete_or_main hidle with
        hdone | ⟨_, -, hstep⟩ | ⟨th, hready, hth⟩
      · exact .inl ⟨.inr hdone.1, hdone.2.1, hspare, hgone⟩
      · exact .inr ⟨_, hstep, fun h => absurd h Bool.false_ne_true⟩
      · exact .inr ⟨_, .spawn hready hth, fun _ => rfl⟩
  · obtain ⟨i, th, a, th', hi, -, hmove⟩ := Crew.exists_move_of_busy hs.threads hidle
    refine .inr ⟨_, .move hi hmove, fun hclosed => ?_⟩
    exact (Crew.ready_act _ _).trans (hs.closed hclosed)

theorem Sound.exists_joined (hs : s.Sound plan view ceiling) :
    ∃ s', Relation.ReflTransGen (Step plan view) s s' ∧ s'.Joined := by
  obtain ⟨t, hdrops, ht, hspare⟩ := hs.exists_spareless
  suffices ∃ s', Relation.ReflTransGen (Step plan view) t s' ∧ s'.Joined by
    obtain ⟨s', hrun, hdone⟩ := this
    exact ⟨s', hdrops.trans hrun, hdone⟩
  clear hdrops hs
  induction hwork : t.crew.work plan view using Nat.strongRecOn generalizing t with
  | ind n ih =>
    rcases ht.joined_or_step hspare with hdone | ⟨c, hstep, hclosed⟩
    · exact ⟨t, .refl, hdone⟩
    · have hnext : Step plan view t { t with crew := c } := .crew hstep hclosed
      obtain ⟨s', hrun, hdone⟩ :=
        ih _ (hwork ▸ ht.balanced.work_lt hstep) _ (ht.step hnext) hspare rfl
      exact ⟨s', .head hnext hrun, hdone⟩

/-- **Slots are conserved, and so is the number of active workers.** In every state of a shift:

* Free slots and held slots are as many as the ceiling, which is at least one, and no more threads
  than that have a slot. As long as a slot is held, there is room for it when it comes back.
* The active workers are those that have begun and not ended. An end takes back a worker that was
  counted. Unless threads panicked, there are no more active workers than held slots.
* The shift can be brought to its end, and at every end all slots are free, whoever panicked. -/
theorem slots_conserved (plan : Plan R) (view : View R) (ceiling : Nat)
    (baselines : List (Baseline R)) (s : Shift R) (hs : Reaches plan view ceiling baselines s) :
    (s.crew.slots.free + s.held = Slots.atLeastOne ceiling ∧
      (s.crew.threads.map Thread.slots).sum ≤ Slots.atLeastOne ceiling ∧
      (0 < s.held → s.crew.slots.release =
        { s.crew.slots with free := s.crew.slots.free + 1 })) ∧
    (s.crew.shared.active = s.crew.counted ∧
      (∀ th ∈ s.crew.threads, th.phase = .walking →
        s.crew.shared.finish.active + 1 = s.crew.shared.active) ∧
      ((∀ th ∈ s.crew.threads, th.walk.isPanicked = false) →
        s.crew.shared.active ≤ s.held ∧ s.held ≤ Slots.atLeastOne ceiling)) ∧
    (∃ s', Relation.ReflTransGen (Step plan view) s s' ∧ s'.Joined) ∧
    (s.Joined → s.crew.slots = .new ceiling) := by
  have hsound := hs.sound
  have hbalanced := hsound.balanced
  have hsum := hsound.free_add_held
  refine ⟨⟨hsum, ?_, fun hheld => hbalanced.release_eq hheld⟩,
    ⟨hbalanced.active, fun th hmem hphase => ?_, fun hwell => ⟨?_, ?_⟩⟩,
    hsound.exists_joined, fun hdone => hdone.slots_eq hsound⟩
  · simp only [held, Crew.held] at hsum
    omega
  · obtain ⟨i, hi⟩ := List.mem_iff_getElem?.1 hmem
    have hcounted := hbalanced.counted_le hi
    simp only [Thread.counted, hphase] at hcounted
    exact Nat.sub_add_cancel hcounted
  · rw [hbalanced.active]
    exact Nat.le_trans (Crew.counted_le_held hwell) (Nat.le_add_right _ _)
  · omega

/-- A baseline whose correlation gives up at every sample. -/
def fragile : Baseline ℚ :=
  { Worker.firstTwo none with correlator := fun _ _ => abort .correlation }

/-- One slot, which the main thread takes without waiting for it, asks for once more in vain and
uses for the first thread. This one panics, and the second one is refused. -/
theorem slots_conserved_fragile :
    let plan : Plan ℚ := { Plan.default with rate := 2, synced := true }
    ∃ s, Reaches plan Worker.staggered 0 [fragile, fragile] s ∧
      s.crew.threads.map (fun th => th.walk.isPanicked) = [true, false] ∧ s.closed = true ∧
      s.Joined ∧ s.crew.slots = .new 0 ∧ s.crew.shared.active = 1 ∧ s.crew.counted = 1 ∧
      s.crew.slots.free + s.held = 1 := by
  intro plan
  have hpanics : (Walk.next? (Worker.track plan Worker.staggered fragile) {}).map
      (fun w => (w.isPanicked, w.writes.length)) = some (true, 0) := by decide +kernel
  obtain ⟨w, hnext, hw⟩ := Option.map_eq_some_iff.1 hpanics
  obtain ⟨hpanic, hwrites⟩ := Prod.mk.inj hw
  have hmade : Walk.made {} w = none := if_neg (by rw [hwrites]; decide)
  have hasked : Reaches plan Worker.staggered 0 [fragile, fragile] _ :=
    (Relation.ReflTransGen.single .ask).tail .ask
  have hwalked : Reaches plan Worker.staggered 0 [fragile, fragile] _ :=
    (((hasked.tail (.assign rfl rfl rfl Nat.zero_lt_two)).tail
      (.crew (.spawn rfl rfl) fun _ => rfl)).tail
      (.crew (.move (i := 0) rfl (.start rfl)) fun _ => rfl)).tail
      (.crew (.move (i := 0) rfl (.turn rfl rfl hnext)) fun _ => rfl)
  have hleft : Reaches plan Worker.staggered 0 [fragile, fragile] _ :=
    (hwalked.tail (.crew (.move (i := 0) rfl (.unwind rfl hmade hpanic)) fun _ => rfl)).tail
      (.crew (.move (i := 0) rfl (.release rfl)) fun _ => rfl)
  have hrefused : Reaches plan Worker.staggered 0 [fragile, fragile] _ :=
    (hleft.tail (.crew (.acquire rfl Nat.one_lt_two rfl) fun h => nomatch h)).tail (.refuse rfl)
  obtain ⟨⟨hsum, -, -⟩, ⟨hactive, -, -⟩, -, hslots⟩ :=
    slots_conserved plan Worker.staggered 0 [fragile, fragile] _ hrefused
  have hcounted : w.isPanicked.toNat + 0 = 1 := by rw [hpanic]; rfl
  refine ⟨_, hrefused, ?_, rfl, ?joined, hslots ?joined, hactive.trans hcounted, hcounted, hsum⟩
  case joined =>
    exact ⟨.inl rfl, rfl, rfl,
      List.forall_mem_cons.2 ⟨.inr rfl, List.forall_mem_singleton.2 (.inl rfl)⟩⟩
  show [w.isPanicked, false] = [true, false]
  rw [hpanic]

end Shift

end Aperture
