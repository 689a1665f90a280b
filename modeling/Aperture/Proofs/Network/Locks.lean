import Aperture.Proofs.Network.Formed
import Aperture.Proofs.Network.Names
import Aperture.Proofs.Plot.History
import Aperture.Proofs.Plot.Windows

/-!
# Locks

A baseline that is **locked** has a correlated stream of its own. The locks are kept with the
baselines, so they are gone when the baselines are, and they stay as long as the baselines stay.

**The operations** (`Network.Operation`) are all that can be done to a network. An operation takes
effect, or it was refused and the network is as it was.

**The locks of a network** (`Network.locks`) are a function of the names. `Operation.relock` says
what an operation that takes effect makes of them, and nothing else about the network.

* `Performs.locks_eq`: one operation on a network that is up to date.
* `Runs.locks_eq`: any operations, one after the other.
* `UpToDate.done_iff`: when an operation takes effect.
* `window_of_locked`, `writesFrom_of_locked`: a locked baseline looks at its stream only.
-/

namespace Aperture

variable {R : Type}

/-- The streams that baselines are locked to, by their names. -/
abbrev Locks (R : Type) := String → Option (Cube R)

/-! ## The locks of baselines -/

namespace BaselineSet

/-- The stream that the baseline of a name is locked to. -/
def lockOf (s : BaselineSet R) : Locks R := fun name =>
  (s.baselines.find? name).bind Baseline.locked

theorem Reworked.lockOf_eq {s t : BaselineSet R} (h : t.Reworked s) : t.lockOf = s.lockOf := by
  obtain ⟨f, hf, hmap⟩ := h.baselines
  funext name
  rw [lockOf, lockOf, hmap, Roster.find?_map, Option.bind_map]
  exact congrArg _ (funext fun b => (hf b).2.2)

theorem lockOf_modify {s : BaselineSet R} (hs : s.baselines.Indexed) (name : String)
    (locked : Option (Cube R)) :
    ({ s with baselines := s.baselines.modify name fun b => { b with locked } } :
        BaselineSet R).lockOf =
      Function.update s.lockOf name ((s.baselines.find? name).bind fun _ => locked) := by
  funext other
  have hfound := hs.find?_modify name (f := fun b => { b with locked }) (fun _ h => h) other
  rw [lockOf, hfound]
  split
  · next h =>
    subst h
    rw [Function.update_self, Option.bind_map]
    rfl
  · next h =>
    rw [Function.update_of_ne h]
    rfl

theorem lock_eq_ok_iff {s t : BaselineSet R} (hs : s.baselines.Indexed) {name : String}
    {stream : Cube R} :
    s.lock name stream = .ok t ↔ name ∈ s.baselines.names ∧
      t = { s with
        baselines := s.baselines.modify name fun b => { b with locked := some stream } } := by
  rw [lock, ← hs.contains_iff]
  split
  · next h => simp [h, eq_comm]
  · next h => simp [h, fail]

/-- A lock is set for the name alone. -/
theorem lockOf_lock {s t : BaselineSet R} (hs : s.baselines.Indexed) {name : String}
    {stream : Cube R} (h : s.lock name stream = .ok t) :
    t.lockOf = Function.update s.lockOf name (some stream) := by
  obtain ⟨hname, rfl⟩ := (lock_eq_ok_iff hs).1 h
  obtain ⟨b, hb, hnamed⟩ := List.mem_map.1 hname
  rw [lockOf_modify hs, hs.find?_eq_some_iff.2 ⟨hb, hnamed⟩, Option.bind_some]

theorem lockOf_unlock {s : BaselineSet R} (hs : s.baselines.Indexed) (name : String) :
    (s.unlock name).lockOf = Function.update s.lockOf name none := by
  rw [unlock, lockOf_modify hs, Option.bind_fun_none]

/-- Baselines that were formed anew are not locked. -/
theorem lockOf_update [Scalar R] (s : BaselineSet R) (v : View R) (order : Nat) :
    (s.update v order).lockOf = fun _ => none := by
  funext name
  rw [lockOf, Option.bind_eq_none_iff]
  intro b hb
  obtain ⟨slot, -, hslot⟩ := Option.bind_eq_some_iff.1 hb
  rw [s.formed_update v order b (Roster.mem_toList.2 ⟨slot, hslot⟩)]
  rfl

end BaselineSet

/-! ## Operations -/

/-- A change of the settings of baselines or of their image. -/
structure BaselineSet.Rework (R : Type) where
  on : View R → BaselineSet R → BaselineSet R
  reworked : ∀ view set, (on view set).Reworked set

namespace Network

/-- What can be done to a network. -/
inductive Operation (R : Type)
  | add (name : String) (recording : Cube R)
  | remove (name : String)
  | copy (source target : String)
  | filter (source target : String) (filter : Filter R)
  | editRecording (name : String) (f : Cube R → Cube R)
  | setReference (reference : Location R)
  | setRelative (relative : Bool)
  | setOrder (order : Nat)
  /-- List the baselines. -/
  | list
  /-- Change the settings of the baselines or their image. -/
  | rework (change : BaselineSet.Rework R)
  /-- Form the baselines anew. -/
  | rebuild
  | lock (name : String) (stream : Cube R)
  | unlock (name : String)
  | plot (plan : Plan R) (refusal : Option Refusal)

/-- What an operation that takes effect makes of the locks. -/
def Operation.relock (locks : Locks R) : Operation R → Locks R
  | .add .. | .remove _ | .copy .. | .filter .. | .setOrder _ | .rebuild => fun _ => none
  | .lock name stream => Function.update locks name (some stream)
  | .unlock name => Function.update locks name none
  | .editRecording .. | .setReference _ | .setRelative _ | .list | .rework _ | .plot .. => locks

/-- The network that a call leaves behind, and whether the call was answered. -/
def tried {α : Type} (n : Network R) (c : Call (Network R) α) : Network R × Bool :=
  ((c.on n).2, (c.on n).1.isOk)

/-- The streams that the baselines of a network are locked to. As long as they are not formed, none
is locked. -/
def locks (n : Network R) : Locks R := fun name => n.baselines.bind fun set => set.lockOf name

theorem locks_of_none {n : Network R} (h : n.baselines = none) : n.locks = fun _ => none := by
  funext name
  rw [locks, h, Option.bind_none]

section

variable [Scalar R]

theorem lockOf_settle (n : Network R) : n.settle.2.lockOf = n.locks := by
  unfold settle
  split
  · next h =>
    funext name
    rw [locks, h, Option.bind_some]
  · next h =>
    rw [locks_of_none h]
    exact BaselineSet.lockOf_update _ _ _

/-- Forming the baselines locks none. -/
theorem locks_settle (n : Network R) : n.settle.1.locks = n.locks := by
  rw [← lockOf_settle, settle_settle, lockOf_settle]

end

variable [Scalar R] [Trig R] [Fourier.Spectral R]

/-- Carry out an operation. It says whether the operation took effect. -/
def perform (n : Network R) : Operation R → Network R × Bool
  | .add name recording => n.tried (Network.add name recording)
  | .remove name => (n.remove name, n.stations.contains name)
  | .copy source target => n.tried (Network.copy source target)
  | .filter source target filter => n.tried (Network.filter source target filter)
  | .editRecording name f => (n.editRecording name f, true)
  | .setReference reference => n.tried (.update fun n => n.setReference reference)
  | .setRelative relative => (n.setRelative relative, true)
  | .setOrder order => (n.setOrder order, true)
  | .list => (n.settle.1, true)
  | .rework change => (n.adjust change.on, true)
  | .rebuild => (n.adjust fun view set => set.update view n.order, true)
  | .lock name stream => ((n.lock name stream).1, (n.lock name stream).2.isOk)
  | .unlock name => (n.unlock name, true)
  | .plot plan refusal => ((n.plotUnder plan refusal).1, true)

/-- An operation, and whether it takes effect. A plot may be made by a crew in any interleaving. -/
inductive Performs (n : Network R) : Operation R → Bool → Network R → Prop
  | perform (op : Operation R) : Performs n op (n.perform op).2 (n.perform op).1
  | plotted {plan : Plan R} {ceiling : Nat} {c : Crew R} (hc : n.Interleaves plan ceiling c)
      (hdone : c.Complete) : Performs n (.plot plan none) true (n.left plan c)

/-- Operations one after the other. -/
inductive Runs : Network R → List (Operation R × Bool) → Network R → Prop
  | nil (n : Network R) : Runs n [] n
  | cons {n k m : Network R} {op : Operation R} {done : Bool} {ops : List (Operation R × Bool)}
      (hop : n.Performs op done k) (hops : Runs k ops m) : Runs n ((op, done) :: ops) m

/-- What an operation makes of the locks, if it takes effect. -/
def followed (locks : Locks R) (op : Operation R × Bool) : Locks R :=
  if op.2 then op.1.relock locks else locks

variable {n n' m : Network R}

/-! ## What operations do to the locks -/

omit [Scalar R] [Trig R] [Fourier.Spectral R] in
/-- A call that fails before its first change takes effect or leaves the network. -/
theorem tried_cases {α : Type} {P : Network R × Bool → Prop} {c : Call (Network R) α}
    (hc : c.FailsFirst) (hdone : ∀ a n', c.on n = (.ok a, n') → P (n', true))
    (hrefused : P (n, false)) : P (n.tried c) := by
  rw [tried]
  rcases hc.cases n with ⟨a, n', hok⟩ | ⟨e, herror⟩
  · rw [hok]
    exact hdone a n' hok
  · rw [herror]
    exact hrefused

omit [Scalar R] [Trig R] [Fourier.Spectral R] in
/-- A station that gets on the roster drops the locks. -/
theorem locks_of_insert {c : Call (Network R) String} (hc : c.FailsFirst)
    (h : ∀ answer n', c.on n = (.ok answer, n') →
      ∃ s, s.index = n.created ∧ (insert s).on n = (.ok answer, n')) :
    (n.tried c).1.locks = if (n.tried c).2 then fun _ => none else n.locks := by
  refine tried_cases (P := fun p => p.1.locks = if p.2 then fun _ => none else n.locks) hc
    (fun answer n' hok => ?_) rfl
  obtain ⟨s, -, hs⟩ := h answer n' hok
  exact locks_of_none (insert_eq_ok hs).2.1

omit [Scalar R] [Trig R] [Fourier.Spectral R] in
theorem setReference_of_update {reference : Location R} {u : Unit}
    (h : (Call.update fun n : Network R => n.setReference reference).on n = (.ok u, n')) :
    n' = { n with reference } := by
  rw [Call.on_update, setReference] at h
  split at h
  · next hset =>
    split at hset
    · cases hset
    · obtain rfl := Except.ok.inj hset
      exact (congrArg Prod.snd h).symm
  · cases h

omit [Trig R] [Fourier.Spectral R] in
theorem locks_of_reworked {set : BaselineSet R} (h : set.Reworked n.settle.2) :
    ({ n.settle.1 with baselines := some set } : Network R).locks = n.locks :=
  h.lockOf_eq.trans n.lockOf_settle

omit [Trig R] [Fourier.Spectral R] in
theorem locks_lock (hn : n.UpToDate) (name : String) (stream : Cube R) :
    (n.lock name stream).1.locks =
      if (n.lock name stream).2.isOk then Function.update n.locks name (some stream)
      else n.locks := by
  cases hset : n.settle.2.lock name stream with
  | ok set =>
    have hlocks := BaselineSet.lockOf_lock hn.indexed_settle hset
    rw [lockOf_settle] at hlocks
    simp only [lock, hset]
    exact hlocks
  | error e =>
    -- The baselines were formed before one of them was missed.
    simp only [lock, hset]
    exact n.locks_settle

/-- **What one operation does to the locks.** -/
theorem locks_perform (hn : n.UpToDate) (op : Operation R) :
    (n.perform op).1.locks = followed n.locks (op, (n.perform op).2) := by
  cases op with
  | add name recording =>
    exact locks_of_insert (failsFirst_add name recording) fun _ _ h => exists_insert_of_add h
  | remove name =>
    rw [perform, remove]
    split
    · next h => rw [h]; rfl
    · next h => rw [Bool.eq_false_of_not_eq_true h]; rfl
  | copy source target =>
    exact locks_of_insert (failsFirst_derive source _) fun _ _ h => exists_insert_of_copy h
  | filter source target filter =>
    exact locks_of_insert (failsFirst_derive source _) fun _ _ h => exists_insert_of_filter h
  | editRecording name f => rfl
  | setReference reference =>
    refine tried_cases (P := fun p => p.1.locks =
      followed n.locks (.setReference reference, p.2)) (.update _) (fun _ n' h => ?_) rfl
    rw [setReference_of_update h]
    rfl
  | setRelative relative => rfl
  | setOrder order => rfl
  | list => exact n.locks_settle
  | rework change => exact locks_of_reworked (change.reworked _ _)
  | rebuild => exact BaselineSet.lockOf_update _ _ _
  | lock name stream => exact locks_lock hn name stream
  | unlock name =>
    have hlocks := BaselineSet.lockOf_unlock hn.indexed_settle name
    rwa [lockOf_settle] at hlocks
  | plot plan refusal =>
    obtain ⟨set, hset, heq⟩ := n.exists_plotUnder_fst plan refusal
    rw [perform, heq]
    exact locks_of_reworked hset

/-! ## Operations one after the other -/

theorem upToDate_perform (hn : n.UpToDate) (op : Operation R) : (n.perform op).1.UpToDate := by
  cases op with
  | add name recording => exact hn.step (.add name recording)
  | remove name => exact hn.step (.remove name)
  | copy source target => exact hn.step (.copy source target)
  | filter source target filter => exact hn.step (.filter source target filter)
  | editRecording name f => exact hn.step (.editRecording name f)
  | setReference reference =>
    refine tried_cases (P := fun p => p.1.UpToDate) (.update _) (fun _ n' h => ?_) hn
    rw [setReference_of_update h]
    exact ⟨hn.stations, hn.vacancies, hn.groups⟩
  | setRelative relative => exact hn.step (.setRelative relative)
  | setOrder order => exact hn.step (.setOrder order)
  | list => exact hn.settle
  | rework change => exact hn.adjust (change.reworked _ _).sameGroups
  | rebuild => exact hn.step .rebuild
  | lock name stream => exact hn.step (.lock name stream)
  | unlock name => exact hn.step (.unlock name)
  | plot plan refusal => exact hn.plotUnder plan refusal

theorem Performs.of_eq {op : Operation R} {done : Bool} (h : n.perform op = (m, done)) :
    n.Performs op done m := by
  have hperforms := Performs.perform (n := n) op
  rwa [h] at hperforms

/-- **One operation, in whatever way it is carried out.** -/
theorem Performs.locks_eq (hn : n.UpToDate) {op : Operation R} {done : Bool}
    (h : n.Performs op done m) : m.UpToDate ∧ m.locks = followed n.locks (op, done) := by
  cases h with
  | perform => exact ⟨upToDate_perform hn op, locks_perform hn op⟩
  | @plotted plan ceiling c hc hdone =>
    have hplotted : n.Plotted (n.left plan c) := .joined hc hdone
    obtain ⟨set, hset, heq⟩ := hplotted.exists_reworked
    refine ⟨(hplotted.alike hn).1, ?_⟩
    rw [heq]
    exact locks_of_reworked hset

/-- **Operations one after the other.** -/
theorem Runs.locks_eq {ops : List (Operation R × Bool)} (h : Runs n ops m) (hn : n.UpToDate) :
    m.UpToDate ∧ m.locks = ops.foldl followed n.locks := by
  induction h with
  | nil n => exact ⟨hn, rfl⟩
  | cons hop _ ih =>
    obtain ⟨hk, hlocks⟩ := hop.locks_eq hn
    obtain ⟨hm, hrest⟩ := ih hk
    refine ⟨hm, ?_⟩
    rw [hrest, hlocks, List.foldl_cons]

omit [Trig R] [Fourier.Spectral R] in
/-- Baselines are locked under their names. -/
theorem UpToDate.locks_of_mem (hn : n.UpToDate) {b : Baseline R}
    (hb : b ∈ n.settle.2.baselines.toList) : n.locks b.name = b.locked := by
  have hfound : n.settle.2.baselines.find? b.name = some b :=
    hn.indexed_settle.find?_eq_some_iff.2 ⟨hb, rfl⟩
  rw [← lockOf_settle, BaselineSet.lockOf, hfound, Option.bind_some]

omit [Trig R] [Fourier.Spectral R] in
/-- Only baselines are locked. -/
theorem UpToDate.mem_names_of_locks (hn : n.UpToDate) {name : String} {stream : Cube R}
    (h : n.locks name = some stream) : name ∈ n.settle.2.baselines.names := by
  rw [← lockOf_settle] at h
  obtain ⟨b, hb, -⟩ := Option.bind_eq_some_iff.1 h
  obtain ⟨hmem, hname⟩ := hn.indexed_settle.find?_eq_some_iff.1 hb
  exact hname ▸ List.mem_map_of_mem hmem

/-! ## When operations take effect -/

/-- What an operation needs to take effect. -/
def Operation.Possible (n : Network R) : Operation R → Prop
  | .add name _ =>
    if name.isEmpty then ∃ i < 250, Station.generatedName (n.created + i) ∉ n.stations.names
    else name ∉ n.stations.names
  | .remove name => name ∈ n.stations.names
  | .copy source target | .filter source target _ =>
    source ∈ n.stations.names ∧ target ∉ n.stations.names
  | .setReference reference => reference.isRelative = false
  | .lock name _ => name ∈ n.settle.2.baselines.names
  | .editRecording .. | .setRelative _ | .setOrder _ | .list | .rework _ | .rebuild | .unlock _
  | .plot .. => True

omit [Trig R] [Fourier.Spectral R] in
theorem UpToDate.isOk_insert_iff (hn : n.UpToDate) (s : Station R) :
    ((insert s).on n).1.isOk = true ↔ s.name ∉ n.stations.names := by
  by_cases hmem : s.name ∈ n.stations.names
  · have hadd : n.stations.add s = fail (.duplicateName s.name) := hn.stations.add_of_mem hmem
    rw [on_insert, hadd]
    exact iff_of_false Bool.false_ne_true (not_not.2 hmem)
  · rw [hn.insert_of_notMem hmem]
    exact iff_of_true rfl hmem

omit [Trig R] [Fourier.Spectral R] in
/-- A station that is made from another one gets on the roster if that one is there. -/
theorem UpToDate.isOk_derive_iff (hn : n.UpToDate) (source target : String)
    {make : Station R → Nat → Station R} (hmake : ∀ s number, (make s number).name = target) :
    ((derive source make).on n).1.isOk = true ↔
      source ∈ n.stations.names ∧ target ∉ n.stations.names := by
  rw [on_derive, stationNamed]
  cases hfound : n.stations.find? source with
  | none =>
    have habsent : source ∉ n.stations.names := fun hmem => by
      obtain ⟨s, hs, hname⟩ := List.mem_map.1 hmem
      cases hfound.symm.trans (hn.stations.find?_eq_some_iff.2 ⟨hs, hname⟩)
    exact iff_of_false Bool.false_ne_true fun h => habsent h.1
  | some s =>
    obtain ⟨hs, hname⟩ := hn.stations.find?_eq_some_iff.1 hfound
    have hpresent : source ∈ n.stations.names := hname ▸ List.mem_map_of_mem hs
    rw [and_iff_right hpresent, ← hmake s n.created]
    exact hn.isOk_insert_iff (make s n.created)

omit [Trig R] [Fourier.Spectral R] in
theorem UpToDate.isOk_add_iff (hn : n.UpToDate) (name : String) (recording : Cube R) :
    ((Network.add name recording).on n).1.isOk = true ↔
      (Operation.add name recording).Possible n := by
  rw [Operation.Possible]
  split
  · next hempty =>
    obtain rfl : name = "" := by simpa using hempty
    rw [hn.isOk_add_unnamed_iff, Station.exists_lettered_iff n.created]
  · next hname =>
    rw [on_add, nameFor, if_neg hname]
    exact hn.isOk_insert_iff _

omit [Trig R] [Fourier.Spectral R] in
theorem UpToDate.isOk_lock_iff (hn : n.UpToDate) (name : String) (stream : Cube R) :
    (n.lock name stream).2.isOk = true ↔ name ∈ n.settle.2.baselines.names := by
  rw [← hn.indexed_settle.contains_iff]
  simp only [lock, BaselineSet.lock]
  cases n.settle.2.baselines.contains name <;> simp [fail, Except.isOk, Except.toBool]

/-- **When operations take effect.** -/
theorem UpToDate.done_iff (hn : n.UpToDate) (op : Operation R) :
    (n.perform op).2 = true ↔ op.Possible n := by
  cases op with
  | add name recording => exact hn.isOk_add_iff name recording
  | remove name => exact hn.stations.contains_iff
  | copy source target => exact hn.isOk_derive_iff source target fun _ _ => rfl
  | filter source target filter => exact hn.isOk_derive_iff source target fun _ _ => rfl
  | setReference reference =>
    rw [perform, tried, Call.on_update, setReference, Operation.Possible]
    cases reference.isRelative
    · exact iff_of_true rfl rfl
    · exact iff_of_false Bool.false_ne_true (by decide)
  | lock name stream => exact hn.isOk_lock_iff name stream
  | editRecording | setRelative | setOrder | list | rework | rebuild | unlock | plot =>
    exact iff_of_true rfl trivial

end Network

/-! ## What a locked baseline looks at -/

/-- The span of a stream, if it has one. -/
def Cube.span? [Scalar R] (c : Cube R) : Option (R × R) :=
  if Scalar.isFinite c.startSeconds && Scalar.isFinite c.endSeconds &&
      Scalar.lt c.startSeconds c.endSeconds then
    some (c.startSeconds, c.endSeconds)
  else none

section

variable [Scalar R] {b : Baseline R} {stream : Cube R}

theorem Baseline.window_of_locked (h : b.locked = some stream) (view : View R) :
    b.window view = stream.span? := by
  rw [window, h]
  rfl

/-- A walk that wrote nothing but samples of a stream, at the steps of its span. -/
def Worker.WritesFrom (plan : Plan R) (stream : Cube R) (w : Walk R) : Prop :=
  ∀ e ∈ w.writes, ∃ start stop, stream.span? = some (start, stop) ∧
    e.step < stepCount plan start stop ∧
    e.value = (stream.sampleAt (stepTime plan start e.step)).getD Scalar.zero

variable [Trig R]

/-- The worker of a locked baseline writes from its stream, however far it came. -/
theorem Worker.writesFrom_of_locked (h : b.locked = some stream) {plan : Plan R} {view : View R}
    {w : Walk R} (hw : Walk.Reached (track plan view b) w) : WritesFrom plan stream w := by
  intro e he
  obtain ⟨htrack, htaken⟩ := hw.written e he
  have hstep : e.step < (course plan view b).total := htrack
  have hvalue : (course plan view b).value e.step = some e.value := Walk.value_of_limited htaken
  simp only [course, Baseline.window_of_locked h, valueAt_of_locked h] at hstep hvalue
  cases hspan : stream.span? with
  | none =>
    rw [hspan] at hstep
    exact absurd hstep (Nat.not_lt_zero _)
  | some span =>
    rw [hspan] at hstep hvalue
    exact ⟨span.1, span.2, rfl, hstep, (Option.some.inj hvalue).symm⟩

end

end Aperture
