import Aperture.Proofs.Network.Locks

/-!
# Stations in the order of their creation

A station that is created gets the next number and goes behind the others on the roster. A station
that is refused uses no number up, and what is done to the roster otherwise keeps the order: a
station is taken off, its recording is edited, or vacant slots are dropped.

**One operation** (`Network.Change`). Either it enrolls a new station, or the list of stations
becomes what `Operation.onStations` makes of it and no number is given.

**Any operations** (`Network.Chronicle`). The chronicle of a run is the list of the stations that
turned up in it, those that were taken off again included.

* `Chronicle.numbered`: the stations that turn up have the numbers in a row.
* `Chronicle.listed`: what is listed in the end is left over from the list at the start, with the
  chronicle behind it.
* `Runs.mem_of_spares`: a station that nobody touches stays what it is.

**Theorem (`stations_in_creation_order`).** All of this for a network that starts without stations,
and what a copy has in common with its source.
-/

namespace Aperture

variable {R : Type}

/-- Name and number of a station. -/
def Station.badge (s : Station R) : String × Nat := (s.name, s.index)

/-- The same shape and metadata, whatever the samples are. -/
structure Cube.Resembles (c d : Cube R) : Prop where
  shape : c.shape = d.shape
  start : c.start = d.start
  rate : c.rate = d.rate
  wavelength : c.wavelength = d.wavelength
  target : c.target = d.target
  location : c.location = d.location

namespace Network

variable {n k m : Network R}

/-- Names and numbers of the stations, as they are listed. -/
def badges (n : Network R) : List (String × Nat) := n.stations.toList.map Station.badge

theorem map_fst_badges (n : Network R) : n.badges.map Prod.fst = n.stations.names := by
  rw [badges, List.map_map]
  rfl

theorem map_snd_badges (n : Network R) :
    n.badges.map Prod.snd = n.stations.toList.map Station.index := by
  rw [badges, List.map_map]
  rfl

/-! ## What operations do to the stations -/

/-- Whether an operation creates a station when it takes effect. -/
def Operation.creates : Operation R → Bool
  | .add .. | .copy .. | .filter .. => true
  | _ => false

/-- Whether an operation took effect and created a station. -/
def enrolls (op : Operation R × Bool) : Bool := op.1.creates && op.2

/-- What operations that create no station make of the list of stations. -/
def Operation.onStations (stations : List (Station R)) : Operation R → List (Station R)
  | .remove name => stations.filter fun s => s.name != name
  | .editRecording name f =>
    stations.map fun s => if s.name = name then { s with recording := f s.recording } else s
  | _ => stations

/-- Whether an operation leaves the station of a name alone. -/
def Operation.Spares (name : String) : Operation R → Prop
  | .remove other | .editRecording other _ => other ≠ name
  | _ => True

/-- No station turns up or is renumbered. -/
theorem Operation.badges_onStations (op : Operation R) (stations : List (Station R)) :
    ((op.onStations stations).map Station.badge).Sublist (stations.map Station.badge) := by
  cases op with
  | remove name => exact List.filter_sublist.map _
  | editRecording name f =>
    have hkept : (onStations stations (.editRecording name f)).map Station.badge =
        stations.map Station.badge := by
      rw [onStations, List.map_map]
      refine List.map_congr_left fun s _ => ?_
      rw [Function.comp_apply]
      split <;> rfl
    rw [hkept]
  | _ => exact List.Sublist.refl _

theorem Operation.mem_onStations {op : Operation R} {stations : List (Station R)} {s : Station R}
    (hop : op.Spares s.name) (hs : s ∈ stations) : s ∈ op.onStations stations := by
  cases op with
  | remove name => exact List.mem_filter.2 ⟨hs, bne_iff_ne.2 (Ne.symm hop)⟩
  | editRecording name f => exact List.mem_map.2 ⟨s, hs, if_neg (Ne.symm hop)⟩
  | _ => exact hs

/-- A new station is on the roster. It has the next number and is behind the others. -/
structure Enrolled (n : Network R) (s : Station R) (m : Network R) : Prop where
  index : s.index = n.created
  name : s.name ∉ n.stations.names
  toList : m.stations.toList = n.stations.toList ++ [s]
  created : m.created = n.created + 1

/-- The stations that are listed now and whose names were not listed before. -/
def newcomers (n k : Network R) : List (Station R) :=
  k.stations.toList.filter fun s => decide (s.name ∉ n.stations.names)

theorem Enrolled.newcomers {s : Station R} (h : n.Enrolled s m) : n.newcomers m = [s] := by
  have hold : n.stations.toList.filter (fun s => decide (s.name ∉ n.stations.names)) = [] :=
    List.filter_eq_nil_iff.2 fun s hs => by
      simpa using show s.name ∈ n.stations.names from List.mem_map_of_mem hs
  rw [Network.newcomers, h.toList, List.filter_append, hold, List.nil_append,
    List.filter_singleton, decide_eq_true h.name]
  rfl

theorem Enrolled.badges {s : Station R} (h : n.Enrolled s m) :
    m.badges = n.badges ++ [s.badge] := by
  rw [Network.badges, h.toList, List.map_append]
  rfl

/-- What an operation did to the stations. -/
inductive Change (n : Network R) (op : Operation R) (done : Bool) (m : Network R) : Prop
  | enrolled (s : Station R) (henrolls : enrolls (op, done) = true) (h : n.Enrolled s m)
  /-- No station is created, and no number is given. -/
  | kept (henrolls : enrolls (op, done) = false) (created : m.created = n.created)
      (toList : m.stations.toList = op.onStations n.stations.toList)

theorem Change.newcomers_of_kept {op : Operation R}
    (h : m.stations.toList = op.onStations n.stations.toList) : n.newcomers m = [] := by
  refine List.filter_eq_nil_iff.2 fun s hs => ?_
  rw [h] at hs
  have hbadge := (op.badges_onStations _).subset (List.mem_map_of_mem hs)
  have hname : s.name ∈ n.badges.map Prod.fst := List.mem_map_of_mem hbadge
  rw [map_fst_badges] at hname
  simpa using hname

variable [Scalar R]

theorem UpToDate.enrolled {s : Station R} {answer : String} (hn : n.UpToDate)
    (h : (insert s).on n = (.ok answer, m)) (hindex : s.index = n.created) : n.Enrolled s m := by
  have hfree : s.name ∉ n.stations.names := by
    rw [← hn.isOk_insert_iff, h]
    rfl
  rw [hn.insert_of_notMem hfree] at h
  obtain ⟨-, rfl⟩ := Prod.mk.inj h
  exact ⟨hindex, hfree, Roster.toList_push _ s, rfl⟩

/-- A station is added, copied or filtered, or refused. -/
theorem UpToDate.change_of_insert (hn : n.UpToDate) {op : Operation R} (hop : op.creates = true)
    {c : Call (Network R) String} (hc : c.FailsFirst)
    (h : ∀ answer n', c.on n = (.ok answer, n') →
      ∃ s, s.index = n.created ∧ (insert s).on n = (.ok answer, n')) :
    n.Change op (n.tried c).2 (n.tried c).1 := by
  refine tried_cases (P := fun p => n.Change op p.2 p.1) hc (fun answer n' hok => ?_) ?_
  · obtain ⟨s, hindex, hinsert⟩ := h answer n' hok
    exact .enrolled s (by rw [enrolls, hop]; rfl) (hn.enrolled hinsert hindex)
  · refine .kept (by rw [enrolls, Bool.and_false]) rfl ?_
    cases op <;> first | rfl | cases hop

/-- The stations are those of the settled network. -/
theorem change_of_settle {op : Operation R} {done : Bool} (baselines : Option (BaselineSet R))
    (henrolls : enrolls (op, done) = false)
    (hop : op.onStations n.stations.toList = n.stations.toList) :
    n.Change op done { n.settle.1 with baselines } := by
  refine .kept henrolls ?_ (n.toList_settle.trans hop.symm)
  show n.settle.1.created = n.created
  rw [settle_fst]

variable [Trig R] [Fourier.Spectral R]

/-- **What one operation does to the stations.** -/
theorem UpToDate.change_perform (hn : n.UpToDate) (op : Operation R) :
    n.Change op (n.perform op).2 (n.perform op).1 := by
  cases op with
  | add name recording =>
    exact hn.change_of_insert rfl (failsFirst_add name recording) fun _ _ h =>
      exists_insert_of_add h
  | remove name =>
    refine .kept rfl ?_ ?_
    · rw [perform, remove]
      split <;> rfl
    · rw [perform, remove]
      split
      · exact hn.stations.toList_erase name
      · next h =>
        rw [hn.stations.contains_iff] at h
        refine (List.filter_eq_self.2 fun s hs => bne_iff_ne.2 ?_).symm
        rintro rfl
        exact h (List.mem_map_of_mem hs)
  | copy source target =>
    exact hn.change_of_insert rfl (failsFirst_derive source _) fun _ _ h => exists_insert_of_copy h
  | filter source target filter =>
    exact hn.change_of_insert rfl (failsFirst_derive source _) fun _ _ h =>
      exists_insert_of_filter h
  | editRecording name f =>
    refine .kept rfl rfl ?_
    rw [perform, Network.editRecording, hn.stations.modify_eq_map, Roster.toList_map]
    rfl
  | setReference reference =>
    refine tried_cases (P := fun p => n.Change (.setReference reference) p.2 p.1) (.update _)
      (fun _ n' h => ?_) (.kept rfl rfl rfl)
    rw [setReference_of_update h]
    exact .kept rfl rfl rfl
  | setRelative relative => exact .kept rfl rfl rfl
  | setOrder order => exact .kept rfl rfl rfl
  | list => exact change_of_settle n.settle.1.baselines rfl rfl
  | rework change => exact change_of_settle _ rfl rfl
  | rebuild => exact change_of_settle _ rfl rfl
  | lock name stream =>
    simp only [perform, lock]
    split
    · exact change_of_settle _ rfl rfl
    · exact change_of_settle n.settle.1.baselines rfl rfl
  | unlock name => exact change_of_settle _ rfl rfl
  | plot plan refusal =>
    obtain ⟨set, -, heq⟩ := n.exists_plotUnder_fst plan refusal
    rw [perform, heq]
    exact change_of_settle _ rfl rfl

/-- In whatever way an operation is carried out. -/
theorem Performs.change (hn : n.UpToDate) {op : Operation R} {done : Bool}
    (h : n.Performs op done m) : n.Change op done m := by
  cases h with
  | perform => exact hn.change_perform op
  | @plotted plan ceiling c hc hdone =>
    obtain ⟨set, -, heq⟩ := (Plotted.joined hc hdone).exists_reworked
    rw [heq]
    exact change_of_settle _ rfl rfl

/-! ## Operations one after the other -/

/-- Operations one after the other, with the stations that turn up in the course of them. -/
inductive Chronicle : Network R → List (Operation R × Bool) → Network R → List (Station R) → Prop
  | nil (n : Network R) : Chronicle n [] n []
  | cons {n k m : Network R} {op : Operation R} {done : Bool} {ops : List (Operation R × Bool)}
      {log : List (Station R)} (hop : n.Performs op done k) (hops : Chronicle k ops m log) :
      Chronicle n ((op, done) :: ops) m (n.newcomers k ++ log)

theorem Runs.exists_chronicle {ops : List (Operation R × Bool)} (h : Runs n ops m) :
    ∃ log, Chronicle n ops m log := by
  induction h with
  | nil n => exact ⟨[], .nil n⟩
  | cons hop _ ih =>
    obtain ⟨log, hlog⟩ := ih
    exact ⟨_, .cons hop hlog⟩

variable {ops : List (Operation R × Bool)} {log : List (Station R)}

/-- **The stations that turn up have the numbers in a row,** one for each operation that created a
station. -/
theorem Chronicle.numbered (h : Chronicle n ops m log) (hn : n.UpToDate) :
    log.map Station.index = List.range' n.created (ops.countP enrolls) ∧
      m.created = n.created + ops.countP enrolls := by
  induction h with
  | nil n => exact ⟨rfl, rfl⟩
  | @cons n k m op done ops log hop _ ih =>
    obtain ⟨hlog, hm⟩ := ih (hop.locks_eq hn).1
    rw [List.countP_cons]
    cases hop.change hn with
    | enrolled s henrolls h =>
      rw [h.newcomers, if_pos henrolls, hm, h.created]
      refine ⟨?_, by omega⟩
      rw [List.map_append, hlog, h.created, List.range'_succ, ← h.index]
      rfl
    | kept henrolls created toList =>
      rw [Change.newcomers_of_kept toList, henrolls, if_neg Bool.false_ne_true, hm, created]
      rw [created] at hlog
      exact ⟨hlog, rfl⟩

/-- **What is listed was listed before or turned up,** and in this order. -/
theorem Chronicle.listed (h : Chronicle n ops m log) (hn : n.UpToDate) :
    m.badges.Sublist (n.badges ++ log.map Station.badge) := by
  induction h with
  | nil n => simp
  | @cons n k m op done ops log hop _ ih =>
    have hm := ih (hop.locks_eq hn).1
    rw [List.map_append, ← List.append_assoc]
    cases hop.change hn with
    | enrolled s henrolls h => rwa [h.newcomers, List.map_singleton, ← h.badges]
    | kept henrolls created toList =>
      rw [Change.newcomers_of_kept toList, List.map_nil, List.append_nil]
      have hk : k.badges.Sublist n.badges := by
        rw [badges, toList]
        exact op.badges_onStations _
      exact hm.trans (hk.append_right _)

/-- **A station that nobody touches stays what it is.** -/
theorem Runs.mem_of_spares (h : Runs n ops m) (hn : n.UpToDate) {s : Station R}
    (hs : s ∈ n.stations.toList) (hops : ∀ op ∈ ops, op.1.Spares s.name) :
    s ∈ m.stations.toList := by
  induction h with
  | nil n => exact hs
  | @cons n k m op done ops hop _ ih =>
    obtain ⟨hspares, hrest⟩ := List.forall_mem_cons.1 hops
    refine ih (hop.locks_eq hn).1 ?_ hrest
    cases hop.change hn with
    | enrolled added henrolls h =>
      rw [h.toList]
      exact List.mem_append_left _ hs
    | kept henrolls created toList =>
      rw [toList]
      exact Operation.mem_onStations hspares hs

/-- A station is on the roster, and stays what it is until it is taken off or its recording is
edited. -/
def Lasts (n : Network R) (s : Station R) : Prop :=
  s ∈ n.stations.toList ∧ ∀ ops m, Runs n ops m → (∀ op ∈ ops, op.1.Spares s.name) →
    s ∈ m.stations.toList

theorem UpToDate.lasts (hn : n.UpToDate) {s : Station R} (hs : s ∈ n.stations.toList) :
    n.Lasts s :=
  ⟨hs, fun _ _ hops hspares => hops.mem_of_spares hn hs hspares⟩

/-- The station `c` was made from the station `s`, as the next one, and neither depends on the other
from then on. -/
structure Makes (n : Network R) (source : String) (s : Station R) (target : String) (c : Station R)
    (m : Network R) : Prop where
  found : s ∈ n.stations.toList ∧ s.name = source
  name : c.name = target
  enrolled : n.Enrolled c m
  lasts : m.Lasts s ∧ m.Lasts c

theorem UpToDate.exists_makes (hn : n.UpToDate) {source target answer : String}
    (make : Station R → Nat → Station R) (hname : ∀ s number, (make s number).name = target)
    (hindex : ∀ s number, (make s number).index = number)
    (h : (derive source make).on n = (.ok answer, m)) :
    ∃ s, n.Makes source s target (make s n.created) m := by
  obtain ⟨found, hfound, hinsert⟩ := exists_insert_of_derive h
  rw [stationNamed] at hfound
  split at hfound
  · next hfind =>
    obtain rfl := Except.ok.inj hfound
    have hs := hn.stations.find?_eq_some_iff.1 hfind
    have henrolled := hn.enrolled hinsert (hindex _ _)
    have hm := insert_upToDate hn hinsert
    refine ⟨_, hs, hname _ _, henrolled, hm.lasts ?_, hm.lasts ?_⟩
    · rw [henrolled.toList]
      exact List.mem_append_left _ hs.1
    · rw [henrolled.toList]
      exact List.mem_append_right _ List.mem_cons_self
  · cases hfound

/-! ## The theorem -/

/-- **Stations are listed in the order of their creation,** with numbers of their own. After any
operations on a network that starts without stations, in whatever way plots are scheduled:

* Names are different from each other. The numbers increase in the order of the list, and all of
  them are below the number of created stations.
* That number counts the operations that put a station on the roster, and no refused ones.
* The stations that turned up in the course of the operations, those that were taken off again
  included, were given the numbers from zero on, each of them once. Those that are listed are among
  them, in the same order and with the name and the number they were given.
* A copy has the recording of its source, and a filtered copy has filtered samples in the same shape
  and with the same metadata. Both stations stay what they are until they are taken off or edited
  themselves. -/
theorem stations_in_creation_order (ops : List (Operation R × Bool)) (n : Network R)
    (hn : Runs empty ops n) :
    n.stations.names.Nodup ∧
    (n.stations.toList.map Station.index).Pairwise (· < ·) ∧
    (∀ s ∈ n.stations.toList, s.index < n.created) ∧
    n.created = ops.countP enrolls ∧
    (∃ log, Chronicle empty ops n log) ∧
    (∀ log, Chronicle empty ops n log →
      log.map Station.index = List.range n.created ∧ n.badges.Sublist (log.map Station.badge)) ∧
    (∀ source target answer m, (Network.copy source target).on n = (.ok answer, m) →
      ∃ s c, n.Makes source s target c m ∧ c.recording = s.recording) ∧
    ∀ source target filter answer m,
      (Network.filter source target filter).on n = (.ok answer, m) →
      ∃ s c, n.Makes source s target c m ∧ c.recording.Resembles s.recording ∧
        c.recording.samples = filter.apply s.recording.samples s.recording.rate := by
  have hempty : (empty : Network R).UpToDate := upToDate_of_none Roster.indexed_empty rfl
  have hup := (hn.locks_eq hempty).1
  obtain ⟨log, hlog⟩ := hn.exists_chronicle
  have hnumbers {log : List (Station R)} (h : Chronicle empty ops n log) :
      log.map Station.index = List.range n.created ∧ n.badges.Sublist (log.map Station.badge) := by
    obtain ⟨hindices, hcreated⟩ := h.numbered hempty
    refine ⟨?_, h.listed hempty⟩
    rw [hindices, hcreated, List.range_eq_range']
    show List.range' 0 _ = List.range' 0 (0 + _)
    rw [Nat.zero_add]
  have hrange : (n.stations.toList.map Station.index).Sublist (List.range n.created) := by
    obtain ⟨hindices, hlisted⟩ := hnumbers hlog
    rw [← map_snd_badges, ← hindices]
    have hsnd := hlisted.map Prod.snd
    rwa [List.map_map] at hsnd
  refine ⟨hup.nodup, List.pairwise_lt_range.sublist hrange, fun s hs => ?_, ?_, ⟨log, hlog⟩,
    fun _ => hnumbers, fun source target answer m h => ?_,
    fun source target filter answer m h => ?_⟩
  · exact List.mem_range.1 (hrange.subset (List.mem_map_of_mem hs))
  · exact (hlog.numbered hempty).2.trans (Nat.zero_add _)
  · obtain ⟨s, hs⟩ := hup.exists_makes (fun s => s.duplicate target) (fun _ _ => rfl)
      (fun _ _ => rfl) h
    exact ⟨s, _, hs, rfl⟩
  · obtain ⟨s, hs⟩ := hup.exists_makes (fun s number => s.filtered target number filter)
      (fun _ _ => rfl) (fun _ _ => rfl) h
    exact ⟨s, _, hs, ⟨rfl, rfl, rfl, rfl, rfl, rfl⟩, rfl⟩

/-! ## A network whose first station came back -/

/-- Carry out operations one after the other. -/
def carryOut (n : Network R) : List (Operation R) → List (Operation R × Bool) × Network R
  | [] => ([], n)
  | op :: ops =>
    let (rest, m) := (n.perform op).1.carryOut ops
    ((op, (n.perform op).2) :: rest, m)

theorem runs_carryOut (n : Network R) (ops : List (Operation R)) :
    Runs n (n.carryOut ops).1 (n.carryOut ops).2 := by
  induction ops generalizing n with
  | nil => exact .nil n
  | cons op ops ih => exact .cons (.perform op) (ih _)

/-- A station that was taken off comes back as a copy of another one. -/
def comeback : List (Operation Binary64) :=
  [.add "" (Cube.ofSamples #[Scalar.one]), .add "A0" (Cube.ofSamples #[]),
    .add "b" (Cube.ofSamples #[Scalar.zero, Scalar.one]), .remove "A0", .list, .copy "c" "d",
    .copy "b" "A0"]

theorem stations_in_creation_order_comeback :
    let ran := (empty : Network Binary64).carryOut comeback
    Runs empty ran.1 ran.2 ∧ ran.1.map Prod.snd = [true, false, true, true, true, false, true] ∧
    ran.2.badges = [("b", 1), ("A0", 2)] ∧ ran.2.created = 3 ∧ ran.1.countP enrolls = 3 ∧
    (∃ log, Chronicle empty ran.1 ran.2 log ∧ log.map Station.index = [0, 1, 2] ∧
      [("b", 1), ("A0", 2)].Sublist (log.map Station.badge)) ∧
    ∃ answer m s c, (Network.copy "A0" "e").on ran.2 = (.ok answer, m) ∧
      ran.2.Makes "A0" s "e" c m ∧ c.recording = s.recording := by
  intro ran
  have hruns : Runs empty ran.1 ran.2 := runs_carryOut _ _
  have hbadges : ran.2.badges = [("b", 1), ("A0", 2)] := by decide +kernel
  have hcreated : ran.2.created = 3 := by decide +kernel
  obtain ⟨-, -, -, hcount, ⟨log, hlog⟩, hlogs, hcopy, -⟩ :=
    stations_in_creation_order ran.1 ran.2 hruns
  obtain ⟨hindices, hlisted⟩ := hlogs log hlog
  rw [hcreated] at hindices
  rw [hbadges] at hlisted
  refine ⟨hruns, by decide +kernel, hbadges, hcreated, hcount.symm.trans hcreated,
    ⟨log, hlog, hindices, hlisted⟩, ?_⟩
  have hok : ((Network.copy "A0" "e").on ran.2).1.isOk = true := by decide +kernel
  rcases failsFirst_derive "A0" _ |>.cases ran.2 with ⟨answer, m, hcopied⟩ | ⟨e, hrefused⟩
  · obtain ⟨s, c, hmakes, hsame⟩ := hcopy "A0" "e" answer m hcopied
    exact ⟨_, _, s, c, hcopied, hmakes, hsame⟩
  · rw [Network.copy, hrefused] at hok
    cases hok

end Network

end Aperture
