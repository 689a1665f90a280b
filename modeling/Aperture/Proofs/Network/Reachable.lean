import Aperture.Imaging.Plot
import Aperture.Proofs.Call
import Aperture.Proofs.Network.Groups
import Mathlib.Logic.Relation

/-!
# Networks that can be reached

**The steps** (`Network.Step`). What can be done to a network: the station set, the frame and the
order change, recordings are edited in place, the baselines are formed, changed and locked, and the
network is plotted. A call that fails is a step to what it leaves behind.

**The invariant** (`Network.UpToDate`). The stations are found by name. As long as baselines are
kept, the roster of stations has no vacant slot, and the baselines are the groups that would be
formed now.

Main results: `Reachable.upToDate`.
-/

namespace Aperture

open Network

variable {R : Type}

/-! ## Groups stay what they are -/

/-- The same groups of the same order, whatever their settings, and found by name as before. -/
structure BaselineSet.SameGroups (s t : BaselineSet R) : Prop where
  order : s.order = t.order
  groups : s.baselines.groups = t.baselines.groups
  indexed (h : t.baselines.Indexed) : s.baselines.Indexed

theorem BaselineSet.SameGroups.trans {s t u : BaselineSet R} (h : s.SameGroups t)
    (h' : t.SameGroups u) : s.SameGroups u :=
  ⟨h.order.trans h'.order, h.groups.trans h'.groups, fun hu => h.indexed (h'.indexed hu)⟩

/-- A change of every baseline that keeps name and members keeps the groups. -/
theorem BaselineSet.sameGroups_of_map {s t : BaselineSet R} {f : Baseline R → Baseline R}
    (h : ∀ b, (f b).name = b.name ∧ (f b).members = b.members) (horder : s.order = t.order)
    (hmap : s.baselines = t.baselines.map f) : s.SameGroups t := by
  refine ⟨horder, ?_, fun ht => ?_⟩
  · rw [hmap, Roster.groups, Roster.toList_map, List.map_map]
    exact List.map_congr_left fun b _ => Prod.ext (h b).1 (h b).2
  · rw [hmap]
    exact ht.map fun b _ => (h b).1

theorem BaselineSet.sameGroups_modify {s : BaselineSet R} (hs : s.baselines.Indexed)
    (name : String) {f : Baseline R → Baseline R}
    (h : ∀ b, (f b).name = b.name ∧ (f b).members = b.members) :
    { s with baselines := s.baselines.modify name f }.SameGroups s := by
  refine sameGroups_of_map (fun b => ?_) rfl (hs.modify_eq_map name f)
  split
  · exact h b
  · exact ⟨rfl, rfl⟩

theorem BaselineSet.sameGroups_lock [Scalar R] {s t : BaselineSet R} (hs : s.baselines.Indexed)
    {name : String} {stream : Cube R} (h : s.lock name stream = .ok t) : t.SameGroups s := by
  rw [BaselineSet.lock] at h
  split at h
  · obtain rfl := Except.ok.inj h
    exact sameGroups_modify hs name fun _ => ⟨rfl, rfl⟩
  · cases h

theorem BaselineSet.sameGroups_unlock [Scalar R] {s : BaselineSet R} (hs : s.baselines.Indexed)
    (name : String) : (s.unlock name).SameGroups s :=
  sameGroups_modify hs name fun _ => ⟨rfl, rfl⟩

/-- The same baselines with the same locks, whatever became of their settings and of the image. -/
structure BaselineSet.Reworked (t s : BaselineSet R) : Prop where
  order : t.order = s.order
  baselines : ∃ f : Baseline R → Baseline R,
    (∀ b, (f b).name = b.name ∧ (f b).members = b.members ∧ (f b).locked = b.locked) ∧
      t.baselines = s.baselines.map f

namespace BaselineSet.Reworked

variable {s t u : BaselineSet R}

theorem sameGroups (h : t.Reworked s) : t.SameGroups s := by
  obtain ⟨f, hf, hmap⟩ := h.baselines
  exact BaselineSet.sameGroups_of_map (fun b => ⟨(hf b).1, (hf b).2.1⟩) h.order hmap

theorem refl (s : BaselineSet R) : s.Reworked s :=
  ⟨rfl, id, fun _ => ⟨rfl, rfl, rfl⟩, s.baselines.map_id.symm⟩

theorem map (h : t.Reworked s) {f : Baseline R → Baseline R}
    (hf : ∀ b, (f b).name = b.name ∧ (f b).members = b.members ∧ (f b).locked = b.locked)
    (horder : u.order = t.order) (hmap : u.baselines = t.baselines.map f) : u.Reworked s := by
  obtain ⟨g, hg, hmapped⟩ := h.baselines
  refine ⟨horder.trans h.order, f ∘ g, fun b => ?_, ?_⟩
  · exact ⟨(hf _).1.trans (hg b).1, (hf _).2.1.trans (hg b).2.1, (hf _).2.2.trans (hg b).2.2⟩
  · rw [hmap, hmapped, Roster.map_map]

theorem trans (h : u.Reworked t) (h' : t.Reworked s) : u.Reworked s := by
  obtain ⟨f, hf, hmap⟩ := h.baselines
  exact h'.map hf h.order hmap

/-- A change of anything but the order and the baselines. -/
theorem of_eq (horder : t.order = s.order) (h : t.baselines = s.baselines) : t.Reworked s :=
  (refl s).map (fun _ => ⟨rfl, rfl, rfl⟩) horder (h.trans s.baselines.map_id.symm)

end BaselineSet.Reworked

/-- A call that keeps the baselines with their locks, also when it fails. -/
def BaselineSet.Reworks {α : Type} (c : Call (BaselineSet R) α) : Prop :=
  ∀ s, (c.on s).2.Reworked s

namespace BaselineSet.Reworks

variable {α β : Type} {c : Call (BaselineSet R) α} {f : α → Call (BaselineSet R) β}

theorem modify {g : BaselineSet R → BaselineSet R} (h : ∀ s, (g s).Reworked s) :
    Reworks (modify g : Call (BaselineSet R) PUnit) := h

theorem bind (hc : Reworks c) (hf : ∀ a, Reworks (f a)) : Reworks (c >>= f) := by
  intro s
  have hfirst := hc s
  rw [Call.on_bind]
  generalize c.on s = left at hfirst ⊢
  rcases left with ⟨e | a, t⟩
  · exact hfirst
  · exact (hf a t).trans hfirst

/-- What a call does with the set that it looked at. -/
theorem of_get {f : BaselineSet R → Call (BaselineSet R) β} (h : ∀ s, ((f s).on s).2.Reworked s) :
    Reworks (get >>= f) := fun s => by
  rw [Call.on_bind, Call.on_get]
  exact h s

end BaselineSet.Reworks

/-- Slot and name of the stations. -/
def View.labels (v : View R) : List (Nat × String) :=
  v.stations.enumerate.map fun s => (s.1, s.2.name)

/-- The groups depend on nothing but the slots and the names of the stations. -/
theorem View.candidates_eq (v : View R) (order : Nat) :
    v.candidates order = (choices order v.labels).map fun g =>
      (String.intercalate "_" (g.map Prod.snd), g.map Prod.fst) := by
  rw [View.labels, choices_map, List.map_map]
  refine List.map_congr_left fun g _ => ?_
  simp [groupOf, Function.comp_def]

namespace Network

theorem two_le_order (n : Network R) : 2 ≤ n.order := Nat.le_max_right _ _

theorem order_pos (n : Network R) : 0 < n.order :=
  Nat.lt_of_lt_of_le Nat.zero_lt_two n.two_le_order

/-! ## Stations that are put on the roster -/

/-- A station is put on the roster, or it is refused before anything is changed. -/
theorem on_insert (s : Station R) (n : Network R) :
    (insert s).on n =
      match n.stations.add s with
      | .ok stations =>
        (.ok s.name, { n with stations, created := n.created + 1, baselines := none })
      | .error e => (.error e, n) := by
  rw [insert, Call.on_bind, onStations, Call.on_within, Call.on_update]
  cases n.stations.add s <;> rfl

theorem failsFirst_insert (s : Station R) : (insert s).FailsFirst :=
  (Call.FailsFirst.within (.update _) fun _ => rfl).then_total fun _ =>
    .bind (.modify _) fun _ => .bind (.modify _) fun _ => .pure s.name

theorem failsFirst_derive (source : String) (make : Station R → Nat → Station R) :
    (derive source make).FailsFirst :=
  .after_quiet .get fun _ => .after_quiet (.result _) fun _ => failsFirst_insert _

theorem failsFirst_add (name : String) (recording : Cube R) : (add name recording).FailsFirst :=
  .after_quiet .get fun _ => .after_quiet (.result _) fun _ => failsFirst_insert _

theorem insert_eq_ok {n n' : Network R} {answer : String} {s : Station R}
    (h : (insert s).on n = (.ok answer, n')) : answer = s.name ∧ n'.baselines = none ∧
      n.stations.add s = .ok n'.stations := by
  rw [on_insert] at h
  cases hadd : n.stations.add s with
  | error e =>
    rw [hadd] at h
    cases h
  | ok stations =>
    rw [hadd] at h
    cases h
    exact ⟨rfl, rfl, rfl⟩

theorem on_add (name : String) (recording : Cube R) (n : Network R) :
    (add name recording).on n =
      match n.nameFor name with
      | .ok given => (insert { name := given, index := n.created, recording }).on n
      | .error e => (.error e, n) := by
  simp only [add, Call.on_bind, Call.on_get, Call.on_result]
  cases n.nameFor name <;> rfl

theorem on_derive (source : String) (make : Station R → Nat → Station R) (n : Network R) :
    (derive source make).on n =
      match n.stationNamed source with
      | .ok s => (insert (make s n.created)).on n
      | .error e => (.error e, n) := by
  simp only [derive, Call.on_bind, Call.on_get, Call.on_result]
  cases n.stationNamed source <;> rfl

/-- A station that is added gets the next number. -/
theorem exists_insert_of_add {n n' : Network R} {name answer : String} {recording : Cube R}
    (h : (add name recording).on n = (.ok answer, n')) :
    ∃ s, s.index = n.created ∧ (insert s).on n = (.ok answer, n') := by
  rw [on_add] at h
  cases hname : n.nameFor name with
  | error e =>
    rw [hname] at h
    cases h
  | ok given =>
    rw [hname] at h
    exact ⟨_, rfl, h⟩

theorem exists_insert_of_derive {n n' : Network R} {source answer : String}
    {make : Station R → Nat → Station R} (h : (derive source make).on n = (.ok answer, n')) :
    ∃ s, n.stationNamed source = .ok s ∧ (insert (make s n.created)).on n = (.ok answer, n') := by
  rw [on_derive] at h
  cases hfound : n.stationNamed source with
  | error e =>
    rw [hfound] at h
    cases h
  | ok s =>
    rw [hfound] at h
    exact ⟨s, rfl, h⟩

theorem exists_insert_of_copy {n n' : Network R} {source target answer : String}
    (h : (copy source target).on n = (.ok answer, n')) :
    ∃ s, s.index = n.created ∧ (insert s).on n = (.ok answer, n') := by
  obtain ⟨s, -, hinsert⟩ := exists_insert_of_derive h
  exact ⟨_, rfl, hinsert⟩

theorem exists_insert_of_filter [Scalar R] [Fourier.Spectral R] {n n' : Network R}
    {source target answer : String} {filter : Filter R}
    (h : (Network.filter source target filter).on n = (.ok answer, n')) :
    ∃ s, s.index = n.created ∧ (insert s).on n = (.ok answer, n') := by
  obtain ⟨s, -, hinsert⟩ := exists_insert_of_derive h
  exact ⟨_, rfl, hinsert⟩

end Network

/-! ## Baselines that are formed or configured -/

variable [Scalar R]

/-- What was there before has no influence on the groups. -/
theorem BaselineSet.sameGroups_update (s : BaselineSet R) (v : View R) {order : Nat}
    (horder : 0 < order) : (s.update v order).SameGroups (BaselineSet.build v order) := by
  refine ⟨rfl, ?_, fun _ => indexed_update s v horder⟩
  rw [groups_update s v horder, BaselineSet.build, groups_update _ v horder]

theorem BaselineSet.reworks_resetImage : Reworks (resetImage : Call (BaselineSet R) Unit) := by
  intro s
  rw [on_resetImage]
  split
  · exact .of_eq rfl rfl
  · exact .refl s

theorem Plot.reworked_dress (plan : Plan R) (s : BaselineSet R) : (dress plan s).Reworked s := by
  refine ⟨rfl, _, fun b => ?_, by
    simp only [dress, BaselineSet.setTarget, BaselineSet.setFrequency, BaselineSet.setWavelength,
      BaselineSet.setRate, BaselineSet.setCorrelator, Roster.map_map]
    rfl⟩
  exact ⟨rfl, rfl, rfl⟩

theorem Plot.reworks_configure (plan : Plan R) : BaselineSet.Reworks (configure plan) :=
  .bind (.bind (.modify fun _ => .of_eq rfl rfl) fun _ => BaselineSet.reworks_resetImage) fun _ =>
    .bind (.bind (.modify fun _ => .of_eq rfl rfl) fun _ => BaselineSet.reworks_resetImage) fun _ =>
      .modify (reworked_dress plan)

/-- To store an image changes nothing else, whether it is stored or not. -/
theorem Plot.exists_answer_snd (image : Result (Array R)) (outcome : Outcome) (s : BaselineSet R) :
    ∃ cells, ((answer image outcome).on s).2 = { s with image := cells } := by
  cases image with
  | error e => exact ⟨s.image, rfl⟩
  | ok image =>
    simp only [answer, Call.on_bind, Call.on_result, Call.on_update]
    cases hset : s.setImage image with
    | error e => exact ⟨s.image, rfl⟩
    | ok t =>
      obtain ⟨size, -, hset⟩ := bind_eq_ok_iff.1 hset
      split at hset
      · obtain rfl := Except.ok.inj hset
        refine ⟨image, ?_⟩
        dsimp only [Call.on_query]
        split <;> next h => exact (congrArg Prod.snd h).symm
      · cases hset

theorem Plot.reworks_answer (image : Result (Array R)) (outcome : Outcome) :
    BaselineSet.Reworks (answer image outcome) := by
  intro s
  obtain ⟨cells, hleft⟩ := exists_answer_snd image outcome s
  rw [hleft]
  exact .of_eq rfl rfl

theorem Worker.keeps_run [Trig R] (plan : Plan R) (view : View R) (b : Baseline R) :
    (run plan view b).baseline.name = b.name ∧ (run plan view b).baseline.members = b.members ∧
      (run plan view b).baseline.locked = b.locked := by
  refine ⟨name_run plan view b, members_run plan view b, ?_⟩
  simp only [run, aim]
  split
  · split <;> rfl
  · rfl

theorem Plot.reworks_integrate [Trig R] (plan : Plan R) (view : View R) :
    BaselineSet.Reworks (integrate plan view) := by
  refine .of_get fun s => ?_
  have hkept : BaselineSet.Reworked
      { s with baselines := (s.baselines.map (Worker.run plan view)).map WorkerRun.baseline } s :=
    (BaselineSet.Reworked.refl s).map (Worker.keeps_run plan view) rfl (Roster.map_map ..)
  rw [Call.on_bind, Call.on_modify]
  dsimp only
  split
  · exact hkept
  · exact (reworks_answer _ _ _).trans hkept

theorem Plot.reworks_integrateUnder [Trig R] (plan : Plan R) (view : View R)
    (refusal : Option Refusal) : BaselineSet.Reworks (integrateUnder plan view refusal) := by
  cases refusal with
  | none => exact reworks_integrate plan view
  | some refusal =>
    refine .of_get fun s => ?_
    split
    · exact reworks_integrate plan view s
    · rw [Call.on_bind, Call.on_modify]
      refine (BaselineSet.Reworked.refl s).map (fun b => ?_) rfl rfl
      split
      · exact Worker.keeps_run plan view b
      · exact ⟨rfl, rfl, rfl⟩

namespace Network

/-! ## The invariant -/

/-- Baselines that are kept are those that would be formed now. -/
structure UpToDate (n : Network R) : Prop where
  stations : n.stations.Indexed
  vacancies : n.baselines.isSome = true → n.stations.vacancies = 0
  groups : ∀ set ∈ n.baselines, set.SameGroups (BaselineSet.build n.view n.order)

theorem UpToDate.nodup {n : Network R} (hn : n.UpToDate) : n.stations.names.Nodup :=
  hn.stations.nodup_names

theorem UpToDate.indexed {n : Network R} (hn : n.UpToDate) {set : BaselineSet R}
    (hset : n.baselines = some set) : set.baselines.Indexed :=
  (hn.groups set hset).indexed (indexed_update _ _ n.order_pos)

/-- Baselines that are kept are the first groups of their names. -/
theorem UpToDate.groups_eq {n : Network R} (hn : n.UpToDate) {set : BaselineSet R}
    (hset : n.baselines = some set) :
    set.baselines.groups = firsts (n.view.candidates n.order) := by
  rw [(hn.groups set hset).groups, BaselineSet.build, groups_update _ _ n.order_pos]

theorem upToDate_of_none {n : Network R} (hstations : n.stations.Indexed)
    (h : n.baselines = none) : n.UpToDate := by
  refine ⟨hstations, fun hsome => ?_, fun set hset => ?_⟩
  · rw [h] at hsome
    cases hsome
  · rw [h] at hset
    cases hset

/-- Whatever becomes of the baselines that are kept, the groups stay. -/
theorem UpToDate.keep {n : Network R} (hn : n.UpToDate) {set set' : BaselineSet R}
    (hset : n.baselines = some set) (h : set'.SameGroups set) :
    { n with baselines := some set' }.UpToDate := by
  refine ⟨hn.stations, fun _ => hn.vacancies (by rw [hset]; rfl), fun s hs => ?_⟩
  obtain rfl := Option.some.inj hs
  exact h.trans (hn.groups set hset)

theorem insert_upToDate {n n' : Network R} {answer : String} {s : Station R} (hn : n.UpToDate)
    (h : (insert s).on n = (.ok answer, n')) : n'.UpToDate := by
  obtain ⟨-, hnone, hadd⟩ := insert_eq_ok h
  exact upToDate_of_none (hn.stations.add hadd) hnone

/-- What a call that puts a station on the roster leaves behind, refused or not. -/
theorem UpToDate.left {n : Network R} (hn : n.UpToDate) {c : Call (Network R) String}
    (hc : c.FailsFirst) (h : ∀ answer n', c.on n = (.ok answer, n') →
      ∃ s, s.index = n.created ∧ (insert s).on n = (.ok answer, n')) : (c.on n).2.UpToDate := by
  rcases hc.cases n with ⟨answer, n', hok⟩ | ⟨e, herror⟩
  · obtain ⟨s, -, hinsert⟩ := h answer n' hok
    rw [hok]
    exact insert_upToDate hn hinsert
  · rw [herror]
    exact hn

theorem settle_baselines (n : Network R) : n.settle.1.baselines = some n.settle.2 := by
  unfold settle
  split
  · next h => exact h
  · rfl

theorem UpToDate.settle {n : Network R} (hn : n.UpToDate) : n.settle.1.UpToDate := by
  unfold Network.settle
  split
  · exact hn
  · refine ⟨hn.stations.compact, fun _ => hn.stations.vacancies_compact, fun set hset => ?_⟩
    obtain rfl := Option.some.inj hset
    exact ⟨rfl, rfl, id⟩

theorem UpToDate.indexed_settle {n : Network R} (hn : n.UpToDate) :
    n.settle.2.baselines.Indexed :=
  hn.settle.indexed n.settle_baselines

theorem UpToDate.order_settle {n : Network R} (hn : n.UpToDate) : n.settle.1.order = n.order := by
  unfold Network.settle
  split
  · rfl
  · have hsize : n.stations.compact.size = n.stations.size := by
      rw [hn.stations.compact.size_eq, Roster.toList_compact, hn.stations.size_eq]
    simp only [order, hsize]

theorem UpToDate.adjust {n : Network R} (hn : n.UpToDate)
    {f : View R → BaselineSet R → BaselineSet R}
    (h : (f n.settle.1.view n.settle.2).SameGroups n.settle.2) : (n.adjust f).UpToDate :=
  hn.settle.keep n.settle_baselines h

theorem UpToDate.editRecording {n : Network R} (hn : n.UpToDate) (name : String)
    (f : Cube R → Cube R) : (n.editRecording name f).UpToDate := by
  have hname (s : Station R) :
      (if Named.name s = name then { s with recording := f s.recording } else s).name = s.name := by
    split <;> rfl
  have hstations := hn.stations.modify_eq_map name fun s => { s with recording := f s.recording }
  have hlabels : (n.editRecording name f).view.labels = n.view.labels := by
    simp only [View.labels, view, Network.editRecording, hstations, Roster.enumerate_map,
      List.map_map]
    exact List.map_congr_left fun s _ => Prod.ext rfl (hname s.2)
  have horder : (n.editRecording name f).order = n.order := by
    simp only [order, Network.editRecording, hstations, Roster.size_map]
  refine ⟨?_, fun hsome => ?_, fun set hset => ?_⟩
  · rw [Network.editRecording, hstations]
    exact hn.stations.map fun s _ => hname s
  · rw [Network.editRecording, hstations, Roster.vacancies_map]
    exact hn.vacancies hsome
  · have hgroups := hn.groups set hset
    rw [horder]
    refine hgroups.trans ⟨rfl, ?_, fun _ => indexed_update _ _ n.order_pos⟩
    rw [BaselineSet.build, groups_update _ _ n.order_pos, BaselineSet.build,
      groups_update _ _ n.order_pos, View.candidates_eq, View.candidates_eq, hlabels]

theorem onBaselines_fst {α : Type} (n : Network R) (call : View R → Call (BaselineSet R) α) :
    (n.onBaselines call).1 =
      { n.settle.1 with baselines := some ((call n.settle.1.view).on n.settle.2).2 } := rfl

/-- However a plot ends, it leaves the settled network with the baselines reworked. -/
theorem exists_plotUnder_fst [Trig R] (n : Network R) (plan : Plan R) (refusal : Option Refusal) :
    ∃ set : BaselineSet R, set.Reworked n.settle.2 ∧
      (n.plotUnder plan refusal).1 = { n.settle.1 with baselines := some set } := by
  refine ⟨_, ?_, n.onBaselines_fst _⟩
  exact (Plot.reworks_configure plan).bind (fun _ => Plot.reworks_integrateUnder plan _ refusal) _

theorem exists_plot_fst [Trig R] (n : Network R) (plan : Plan R) :
    ∃ set : BaselineSet R, set.Reworked n.settle.2 ∧
      (n.plot plan).1 = { n.settle.1 with baselines := some set } :=
  n.exists_plotUnder_fst plan none

theorem UpToDate.plotUnder [Trig R] {n : Network R} (hn : n.UpToDate) (plan : Plan R)
    (refusal : Option Refusal) : (n.plotUnder plan refusal).1.UpToDate := by
  obtain ⟨set, hset, heq⟩ := n.exists_plotUnder_fst plan refusal
  rw [heq]
  exact hn.settle.keep n.settle_baselines hset.sameGroups

/-! ## Steps -/

variable [Trig R] [Fourier.Spectral R]

/-- What can be done to a network. -/
inductive Step (n : Network R) : Network R → Prop
  | add (name : String) (recording : Cube R) : Step n ((Network.add name recording).on n).2
  | remove (name : String) : Step n (n.remove name)
  | copy (source target : String) : Step n ((Network.copy source target).on n).2
  | filter (source target : String) (filter : Filter R) :
      Step n ((Network.filter source target filter).on n).2
  | editRecording (name : String) (f : Cube R → Cube R) : Step n (n.editRecording name f)
  | setReference {n' : Network R} (reference : Location R) (h : n.setReference reference = .ok n') :
      Step n n'
  | setRelative (relative : Bool) : Step n (n.setRelative relative)
  | setOrder (order : Nat) : Step n (n.setOrder order)
  | settle : Step n n.settle.1
  /-- Change the settings of the baselines and their image, but not the groups. -/
  | adjust (f : View R → BaselineSet R → BaselineSet R)
      (h : ∀ view set, (f view set).SameGroups set) : Step n (n.adjust f)
  | rebuild : Step n (n.adjust fun view set => set.update view n.order)
  | lock (name : String) (stream : Cube R) : Step n (n.lock name stream).1
  | unlock (name : String) : Step n (n.unlock name)
  | plot (plan : Plan R) : Step n (n.plot plan).1

/-- A network that starts without stations comes to `n`. -/
def Reachable (n : Network R) : Prop := Relation.ReflTransGen Step empty n

theorem UpToDate.step {n n' : Network R} (hn : n.UpToDate) (h : Step n n') : n'.UpToDate := by
  cases h with
  | add name recording =>
    exact hn.left (failsFirst_add name recording) fun _ _ h => exists_insert_of_add h
  | remove name =>
    unfold remove
    split
    · exact upToDate_of_none (hn.stations.erase name) rfl
    · exact hn
  | copy source target =>
    exact hn.left (failsFirst_derive source _) fun _ _ h => exists_insert_of_copy h
  | filter source target filter =>
    exact hn.left (failsFirst_derive source _) fun _ _ h => exists_insert_of_filter h
  | editRecording name f => exact hn.editRecording name f
  | setReference reference h =>
    unfold setReference at h
    split at h
    · cases h
    · obtain rfl := Except.ok.inj h
      exact ⟨hn.stations, hn.vacancies, hn.groups⟩
  | setRelative relative => exact ⟨hn.stations, hn.vacancies, hn.groups⟩
  | setOrder order => exact upToDate_of_none hn.stations rfl
  | settle => exact hn.settle
  | adjust f h => exact hn.adjust (h _ _)
  | rebuild =>
    have hnow := n.settle.2.sameGroups_update n.settle.1.view n.order_pos
    have hkept := hn.settle.groups _ n.settle_baselines
    rw [hn.order_settle] at hkept
    refine hn.adjust ⟨hnow.order.trans hkept.order.symm, hnow.groups.trans hkept.groups.symm, ?_⟩
    exact fun _ => indexed_update _ _ n.order_pos
  | lock name stream =>
    simp only [lock]
    split
    · next hlock =>
      exact hn.settle.keep n.settle_baselines (BaselineSet.sameGroups_lock hn.indexed_settle hlock)
    · exact hn.settle
  | unlock name => exact hn.adjust (BaselineSet.sameGroups_unlock hn.indexed_settle name)
  | plot plan =>
    obtain ⟨set, hset, heq⟩ := n.exists_plot_fst plan
    rw [heq]
    exact hn.settle.keep n.settle_baselines hset.sameGroups

/-- **Baselines are never stale.** -/
theorem Reachable.upToDate {n : Network R} (hn : n.Reachable) : n.UpToDate := by
  induction hn with
  | refl => exact upToDate_of_none Roster.indexed_empty rfl
  | tail _ hstep ih => exact ih.step hstep

end Network

end Aperture
