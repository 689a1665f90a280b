import Aperture.Proofs.Plot.Means
import Aperture.Proofs.Walk.Limits

/-!
# Threads

The worker of one baseline, as one of many that run at once.

**The moves** (`Thread.Move`). A move depends on nothing but the thread itself: the thread begins,
makes the turns of its walk, stores the value of a turn before the next turn, ends, and gives its
slot back. A thread whose walk panicked does not end, it only gives its slot back. A move says what
it does to the rest of the crew (`Thread.Action`).

**The invariant** (`Thread.Sound`). A thread is on the walk that its worker makes alone, and has
stored the values of that walk except the pending one. `Sound.move`: every move keeps it.
-/

namespace Aperture

/-- Where a thread stands. -/
inductive Thread.Phase where
  /-- Not spawned. -/
  | waiting
  /-- Spawned with a slot. -/
  | spawned
  | walking
  /-- Past its end, still with its slot. -/
  | leaving
  | gone
deriving DecidableEq

/-- What a move of a thread does to the rest of the crew: nothing, something to the shared image, or
give a slot back. -/
inductive Thread.Action (R : Type) where
  | quiet
  | image (e : Event R)
  | release

/-- The worker of one baseline, as one of many. -/
structure Thread (R : Type) where
  baseline : Baseline R
  phase : Thread.Phase := .waiting
  walk : Walk R := {}
  /-- The image of its own values, unless it writes into the shared one. -/
  own : Option (MeanImage R)
  /-- The value of the last turn, until it is stored. -/
  pending : Option (Write R) := none

/-- The write of a turn that led from `w` to `w'`. -/
def Walk.made {R : Type} (w w' : Walk R) : Option (Write R) :=
  if w.writes.length < w'.writes.length then w'.writes.head? else none

theorem Walk.made_of_turn {R : Type} {t : Track R} {w w' : Walk R} (h : Turn t w w') :
    (made w w' = none ∧ w'.writes = w.writes) ∨
      ∃ e, made w w' = some e ∧ w'.writes = e :: w.writes := by
  cases h with
  | enter cell value _ _ _ _ =>
    exact .inr ⟨⟨w.position, cell, value⟩, if_pos (Nat.lt_succ_self _), rfl⟩
  | _ => exact .inl ⟨if_neg (Nat.lt_irrefl _), rfl⟩

theorem Walk.next?_of_isPanicked {R : Type} {t : Track R} {w : Walk R}
    (h : w.isPanicked = true) : next? t w = none := by
  refine next?_eq_none_iff.2 (.inl ?_)
  have hhalt : w.halt = some .panicked := by simpa [isPanicked] using h
  rw [hhalt]
  rfl

namespace Thread

variable {R : Type}

/-- The values that were stored, the last one first. -/
def stored (th : Thread R) : List (Write R) :=
  match th.pending with
  | none => th.walk.writes
  | some _ => th.walk.writes.tail

theorem stored_of_none {th : Thread R} (h : th.pending = none) : th.stored = th.walk.writes := by
  simp [stored, h]

theorem stored_of_turn {th : Thread R} {t : Track R} {w : Walk R}
    (h : Walk.Turn t th.walk w) :
    { th with walk := w, pending := Walk.made th.walk w }.stored = th.walk.writes := by
  rcases Walk.made_of_turn h with ⟨hmade, hwrites⟩ | ⟨e, hmade, hwrites⟩
  · simp only [stored, hmade, hwrites]
  · simp only [stored, hmade, hwrites, List.tail_cons]

/-- How many slots the thread holds. -/
def slots (th : Thread R) : Nat :=
  match th.phase with
  | .waiting | .gone => 0
  | .spawned | .walking | .leaving => 1

/-- How often the shared image counts the thread: once, when it has begun and not ended. A thread
that panicked never ends. -/
def counted (th : Thread R) : Nat :=
  match th.phase with
  | .waiting | .spawned => 0
  | .walking => 1
  | .leaving | .gone => th.walk.isPanicked.toNat

/-- Unless it panicked, a thread is counted while it has its slot only. -/
theorem counted_le_slots {th : Thread R} (hwell : th.walk.isPanicked = false) :
    th.counted ≤ th.slots := by
  cases hphase : th.phase <;> simp [counted, slots, hphase, hwell]

theorem gone_of_slots {th : Thread R} (hslots : th.slots = 0) (hspawned : th.phase ≠ .waiting) :
    th.phase = .gone := by
  simp only [slots] at hslots
  split at hslots <;> simp_all

theorem not_gone_of_slots {th : Thread R} (hslots : th.slots ≠ 0) : th.phase ≠ .gone := by
  intro hgone
  simp [slots, hgone] at hslots

/-! ## What a thread does to the shared image -/

/-- What storing values does to the shared image, the values with the last one first. -/
def sharing (plan : Plan R) (writes : List (Write R)) : List (Event R) :=
  match plan.accumulation with
  | .interleaved => writes.reverse.map fun e => .write e.cell e.value
  | .deterministic => []

/-- What the thread did to the shared image. -/
def events (plan : Plan R) (th : Thread R) : List (Event R) :=
  match th.phase with
  | .waiting | .spawned => []
  | .walking => .start :: sharing plan th.stored
  | .leaving | .gone =>
    .start :: sharing plan th.stored ++ if th.walk.isPanicked then [] else [.finish]

def Action.events : Action R → List (Event R)
  | .image e => [e]
  | _ => []

theorem sharing_nil (plan : Plan R) : sharing plan [] = [] := by
  unfold sharing
  split <;> rfl

theorem events_of_waiting {plan : Plan R} {th : Thread R} (h : th.phase = .waiting) :
    th.events plan = [] := by
  simp only [events, h]

theorem events_of_walking {plan : Plan R} {th : Thread R} (h : th.phase = .walking) :
    th.events plan = .start :: sharing plan th.stored := by
  simp only [events, h]

theorem events_of_left {plan : Plan R} {th : Thread R}
    (h : th.phase = .leaving ∨ th.phase = .gone) :
    th.events plan =
      .start :: sharing plan th.stored ++ if th.walk.isPanicked then [] else [.finish] := by
  rcases h with h | h <;> simp only [events, h]

/-! ## Moves -/

variable [Scalar R]

/-- What becomes of a blank image of the thread's own when values are stored in it, the last one
first. In the interleaved mode there is no such image. -/
def gathered (plan : Plan R) (writes : List (Write R)) : Option (Result (MeanImage R)) :=
  match plan.accumulation with
  | .interleaved => none
  | .deterministic => some (writes.reverse.foldlM (fun p e => p.write e.cell e.value)
      (.blank (plan.width * plan.height)))

theorem gathered_eq_none_iff {plan : Plan R} {writes : List (Write R)} :
    gathered plan writes = none ↔ plan.accumulation = .interleaved := by
  cases h : plan.accumulation <;> simp [gathered, h]

theorem gathered_cons {plan : Plan R} {writes : List (Write R)} {x : Result (MeanImage R)}
    (h : gathered plan writes = some x) (e : Write R) :
    gathered plan (e :: writes) = some (x >>= fun p => p.write e.cell e.value) := by
  cases hmode : plan.accumulation with
  | interleaved => simp [gathered, hmode] at h
  | deterministic =>
    simp only [gathered, hmode, Option.some.injEq] at h ⊢
    rw [List.reverse_cons, List.foldlM_append, h]
    simp

/-- The thread of a baseline, not spawned yet. -/
def new (plan : Plan R) (b : Baseline R) : Thread R where
  baseline := b
  own := match plan.accumulation with
    | .interleaved => none
    | .deterministic => some (.blank (plan.width * plan.height))

variable [Trig R]

/-- The moves of a thread. -/
inductive Move (plan : Plan R) (view : View R) (th : Thread R) : Action R → Thread R → Prop
  | start (hphase : th.phase = .spawned) :
      Move plan view th (.image .start) { th with phase := .walking }
  | turn {w : Walk R} (hphase : th.phase = .walking) (hstored : th.pending = none)
      (hnext : Walk.next? (Worker.track plan view th.baseline) th.walk = some w) :
      Move plan view th .quiet { th with walk := w, pending := Walk.made th.walk w }
  /-- Store a value in the thread's own image. -/
  | keep {e : Write R} {p p' : MeanImage R} (hphase : th.phase = .walking)
      (hpending : th.pending = some e) (hown : th.own = some p)
      (hwrite : p.write e.cell e.value = .ok p') :
      Move plan view th .quiet { th with own := some p', pending := none }
  /-- Store a value in the shared image. -/
  | share {e : Write R} (hphase : th.phase = .walking) (hpending : th.pending = some e)
      (hown : th.own = none) :
      Move plan view th (.image (.write e.cell e.value)) { th with pending := none }
  | finish (hphase : th.phase = .walking) (hstored : th.pending = none)
      (hnext : Walk.next? (Worker.track plan view th.baseline) th.walk = none)
      (hwell : th.walk.isPanicked = false) :
      Move plan view th (.image .finish) { th with phase := .leaving }
  /-- A panic leaves the loop without an end. -/
  | unwind (hphase : th.phase = .walking) (hstored : th.pending = none)
      (hpanic : th.walk.isPanicked = true) :
      Move plan view th .quiet { th with phase := .leaving }
  | release (hphase : th.phase = .leaving) : Move plan view th .release { th with phase := .gone }

variable {plan : Plan R} {view : View R} {th th' : Thread R} {a : Action R}

theorem Move.baseline_eq (h : Move plan view th a th') : th'.baseline = th.baseline := by
  cases h <;> rfl

/-- A waiting thread does not move, and no thread goes back to waiting. -/
theorem Move.not_waiting (h : Move plan view th a th') :
    th.phase ≠ .waiting ∧ th'.phase ≠ .waiting := by
  cases h <;> simp_all

theorem Move.slots_ne_zero (h : Move plan view th a th') : th.slots ≠ 0 := by
  cases h <;> simp_all [slots]

theorem Move.slots_eq (h : Move plan view th a th') :
    (a = .release ∧ th.slots = th'.slots + 1) ∨ (a ≠ .release ∧ th'.slots = th.slots) := by
  cases h <;> simp_all [slots]

/-- A move changes the number of active workers by what it changes in the count of the thread. An
end takes back a worker that was counted. -/
theorem Move.active_eq (h : Move plan view th a th') {s : SharedImage R}
    (hcounted : th.counted ≤ s.active) :
    (a.events.foldl SharedImage.apply s).active + th.counted = s.active + th'.counted := by
  cases h with
  | start hphase =>
    simp [Action.events, SharedImage.apply, SharedImage.start, counted, hphase]
  | turn hphase _ _ => simp [Action.events, counted, hphase]
  | keep hphase _ _ _ => simp [Action.events, counted, hphase]
  | share hphase _ _ =>
    simp [Action.events, SharedImage.apply, SharedImage.write, counted, hphase]
  | finish hphase _ _ hwell =>
    simp only [counted, hphase] at hcounted
    simp only [Action.events, List.foldl_cons, List.foldl_nil, SharedImage.apply,
      SharedImage.finish, counted, hphase, hwell, Bool.toNat_false]
    omega
  | unwind hphase _ hpanic => simp [Action.events, counted, hphase, hpanic]
  | release hphase => simp [Action.events, counted, hphase]

/-! ## What a thread has done -/

/-- The thread has done what its worker does alone. -/
structure Sound (plan : Plan R) (view : View R) (th : Thread R) : Prop where
  reached : Walk.Reached (Worker.track plan view th.baseline) th.walk
  pending : ∀ e, th.pending = some e → th.walk.writes.head? = some e
  own : th.own.map .ok = gathered plan th.stored
  fresh : th.phase = .waiting ∨ th.phase = .spawned → th.stored = []
  ended : th.phase = .leaving ∨ th.phase = .gone →
    Walk.next? (Worker.track plan view th.baseline) th.walk = none ∧ th.pending = none

theorem sound_new (plan : Plan R) (view : View R) (b : Baseline R) :
    (new plan b).Sound plan view := by
  refine ⟨Walk.reached_start _, fun _ h => ?_, ?_, fun _ => rfl, fun h => ?_⟩
  · cases h
  · simp only [new, gathered]
    cases plan.accumulation <;> rfl
  · rcases h with h | h <;> cases h

/-- A thread on its walk has neither just begun nor ended. -/
theorem sound_of_walking (hphase : th.phase = .walking)
    (hreached : Walk.Reached (Worker.track plan view th.baseline) th.walk)
    (hpending : ∀ e, th.pending = some e → th.walk.writes.head? = some e)
    (hown : th.own.map .ok = gathered plan th.stored) : th.Sound plan view := by
  refine ⟨hreached, hpending, hown, fun h => ?_, fun h => ?_⟩ <;>
  · rw [hphase] at h
    rcases h with h | h <;> cases h

/-- A thread past its end has made its whole walk. -/
theorem sound_of_leaving (hth : th.Sound plan view) (hstored : th.pending = none)
    (hnext : Walk.next? (Worker.track plan view th.baseline) th.walk = none) :
    { th with phase := .leaving }.Sound plan view := by
  refine ⟨hth.reached, hth.pending, hth.own, ?_, fun _ => ⟨hnext, hstored⟩⟩
  intro h
  rcases h with h | h <;> cases h

/-- The image of a thread is what became of the blank image. -/
theorem Sound.gathered_eq (hth : th.Sound plan view) {p : MeanImage R} (hown : th.own = some p) :
    gathered plan th.stored = some (.ok p) := by
  rw [← hth.own, hown]
  rfl

/-- Threads without an image of their own are those of the interleaved mode. -/
theorem Sound.mode_of_shared (hth : th.Sound plan view) (hown : th.own = none) :
    plan.accumulation = .interleaved := by
  refine gathered_eq_none_iff.1 (hth.own.symm.trans ?_)
  rw [hown]
  rfl

theorem Sound.mode_of_own (hth : th.Sound plan view) {p : MeanImage R} (hown : th.own = some p) :
    plan.accumulation = .deterministic := by
  cases hmode : plan.accumulation with
  | interleaved =>
    exact absurd ((gathered_eq_none_iff.2 hmode).symm.trans (hth.gathered_eq hown)) nofun
  | deterministic => rfl

theorem Sound.spawn (hth : th.Sound plan view) (hphase : th.phase = .waiting) :
    { th with phase := .spawned }.Sound plan view := by
  refine ⟨hth.reached, hth.pending, hth.own, fun _ => hth.fresh (.inl hphase), ?_⟩
  intro h
  rcases h with h | h <;> cases h

theorem Sound.writes_eq (hth : th.Sound plan view) {e : Write R} (h : th.pending = some e) :
    th.walk.writes = e :: th.stored := by
  simp only [stored, h]
  exact List.eq_cons_of_mem_head? (hth.pending e h)

/-- Storing the pending value puts it on top of the stored ones. -/
theorem Sound.stored_eq (hth : th.Sound plan view) {e : Write R} (h : th.pending = some e)
    (own : Option (MeanImage R)) :
    { th with own, pending := none }.stored = e :: th.stored := by
  rw [← hth.writes_eq h]
  rfl

theorem Sound.move (hth : th.Sound plan view) (h : Move plan view th a th') :
    th'.Sound plan view := by
  cases h with
  | start hphase => exact sound_of_walking rfl hth.reached hth.pending hth.own
  | @turn w hphase hstored hnext =>
    have hturn := (Walk.turn_of_next? hnext).2.2
    refine sound_of_walking hphase (hth.reached.next hnext) (fun e h => ?_) ?_
    · rcases Walk.made_of_turn hturn with ⟨hmade, -⟩ | ⟨d, hmade, hwrites⟩
      · exact absurd (hmade.symm.trans h) (by simp)
      · rw [hwrites]
        exact hmade.symm.trans h
    · rw [stored_of_turn hturn, ← stored_of_none hstored]
      exact hth.own
  | @keep e p p' hphase hpending hown hwrite =>
    refine sound_of_walking hphase hth.reached (fun d h => ?_) ?_
    · cases h
    · rw [hth.stored_eq hpending, gathered_cons (hth.gathered_eq hown) e]
      exact congrArg some hwrite.symm
  | @share e hphase hpending hown =>
    refine sound_of_walking hphase hth.reached (fun d h => ?_) ?_
    · cases h
    · rw [hth.stored_eq hpending]
      show th.own.map .ok = gathered plan (e :: th.stored)
      rw [hown, Option.map_none, eq_comm, gathered_eq_none_iff]
      exact hth.mode_of_shared hown
  | finish _ hstored hnext _ => exact sound_of_leaving hth hstored hnext
  | unwind _ hstored hpanic =>
    exact sound_of_leaving hth hstored (Walk.next?_of_isPanicked hpanic)
  | release hphase =>
    refine ⟨hth.reached, hth.pending, hth.own, ?_, fun _ => hth.ended (.inl hphase)⟩
    intro h
    rcases h with h | h <;> cases h

/-- A move appends its action to what the thread did to the shared image. -/
theorem Sound.events_move (hth : th.Sound plan view) (h : Move plan view th a th') :
    th'.events plan = th.events plan ++ a.events := by
  cases h with
  | start hphase =>
    have hbefore : th.events plan = [] := by simp only [events, hphase]
    rw [events_of_walking rfl, hbefore]
    show Event.start :: sharing plan th.stored = _
    rw [hth.fresh (.inr hphase), sharing_nil]
    rfl
  | @turn w hphase hstored hnext =>
    have hbefore : th.events plan = _ := events_of_walking hphase
    have hafter : { th with walk := w, pending := th.walk.made w }.events plan = _ :=
      events_of_walking hphase
    rw [hbefore, hafter, stored_of_turn (Walk.turn_of_next? hnext).2.2, stored_of_none hstored]
    exact (List.append_nil _).symm
  | @keep e p p' hphase _ hown _ =>
    have hmode (writes : List (Write R)) : sharing plan writes = [] := by
      simp only [sharing, hth.mode_of_own hown]
    have hbefore : th.events plan = _ := events_of_walking hphase
    have hafter : { th with own := some p', pending := none }.events plan = _ :=
      events_of_walking hphase
    rw [hbefore, hafter, hmode, hmode]
    rfl
  | @share e hphase hpending hown =>
    have hmode := hth.mode_of_shared hown
    have hbefore : th.events plan = _ := events_of_walking hphase
    have hafter : { th with pending := none }.events plan = _ := events_of_walking hphase
    rw [hbefore, hafter, hth.stored_eq hpending]
    simp [sharing, hmode, Action.events]
  | finish hphase _ _ hwell =>
    rw [events_of_left (.inl rfl), events_of_walking hphase]
    simp [hwell, Action.events, stored]
  | unwind hphase _ hpanic =>
    rw [events_of_left (.inl rfl), events_of_walking hphase]
    simp [hpanic, Action.events, stored]
  | release hphase =>
    rw [events_of_left (.inr rfl), events_of_left (.inl hphase)]
    exact (List.append_nil _).symm

/-! ## What is left to do -/

/-- **The image of a thread has room for its values,** since its worker panics at a full cell. -/
theorem Sound.exists_write (hth : th.Sound plan view) {e : Write R} (hpending : th.pending = some e)
    {p : MeanImage R} (hown : th.own = some p) : ∃ p', p.write e.cell e.value = .ok p' := by
  have hmode := hth.mode_of_own hown
  have hreached : Walk.Reached
      ((Worker.course plan view th.baseline).limited (some Mean.room)) th.walk := by
    have hroom : Worker.room plan = some Mean.room := by rw [Worker.room, hmode]
    rw [← hroom]
    exact hth.reached
  have hcounts (cell : Nat) : (valuesAt cell (e :: th.stored).reverse).length ≤ Mean.room := by
    rw [valuesAt, List.length_map, ← List.countP_eq_length_filter, List.countP_reverse,
      ← hth.writes_eq hpending]
    exact hreached.taken_le cell
  obtain ⟨q, hq⟩ := MeanImage.exists_writes_iff.2 fun cell (_ : cell < plan.width * plan.height) =>
    hcounts cell
  have hgathered := gathered_cons (hth.gathered_eq hown) e
  simp only [gathered, hmode, hq, Option.some.injEq] at hgathered
  exact ⟨q, hgathered.symm⟩

/-- Every thread with a slot can move. -/
theorem Sound.exists_move (hth : th.Sound plan view) (hslot : th.slots ≠ 0) :
    ∃ a th', Move plan view th a th' := by
  cases hphase : th.phase with
  | waiting => simp [slots, hphase] at hslot
  | gone => simp [slots, hphase] at hslot
  | spawned => exact ⟨_, _, .start hphase⟩
  | leaving => exact ⟨_, _, .release hphase⟩
  | walking =>
    cases hpending : th.pending with
    | some e =>
      cases hown : th.own with
      | none => exact ⟨_, _, .share hphase hpending hown⟩
      | some p =>
        obtain ⟨p', hwrite⟩ := hth.exists_write hpending hown
        exact ⟨_, _, .keep hphase hpending hown hwrite⟩
    | none =>
      cases hnext : Walk.next? (Worker.track plan view th.baseline) th.walk with
      | some w => exact ⟨_, _, .turn hphase hpending hnext⟩
      | none =>
        cases hpanic : th.walk.isPanicked with
        | false => exact ⟨_, _, .finish hphase hpending hnext hpanic⟩
        | true => exact ⟨_, _, .unwind hphase hpending hpanic⟩

/-- A number that every move lowers: a turn and the storing of its value count, and the changes of
the phase. To spawn a thread lowers it by two. -/
def work (plan : Plan R) (view : View R) (th : Thread R) : Nat :=
  2 * Walk.turns (Worker.track plan view th.baseline) th.walk + th.pending.isSome.toNat +
    match th.phase with
    | .waiting => 5
    | .spawned => 3
    | .walking => 2
    | .leaving => 1
    | .gone => 0

theorem Move.work_lt (h : Move plan view th a th') : th'.work plan view < th.work plan view := by
  cases h with
  | start hphase => simp [work, hphase]
  | @turn w hphase hstored hnext =>
    have hle := Bool.toNat_le (Walk.made th.walk w).isSome
    simp only [work, Walk.turns_of_next? hnext, hstored, Option.isSome_none, Bool.toNat_false]
    omega
  | keep _ hpending _ _ => simp [work, hpending]
  | share _ hpending _ => simp [work, hpending]
  | finish hphase _ _ _ => simp [work, hphase]
  | unwind hphase _ _ => simp [work, hphase]
  | release hphase => simp [work, hphase]

end Thread

end Aperture
