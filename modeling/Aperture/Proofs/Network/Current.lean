import Aperture.Proofs.Network.Names

/-!
# The baselines of a network are those of its stations

`BaselineSet.Current` says what it means for baselines to belong to the stations that a network has
now. Members are slots, so this needs that no slot moved since the baselines were formed.

**Theorem (`kept_baselines_current`).** In a network that can be reached, baselines that are kept
are current. So a station that is removed is in none of the baselines that are used next, and a
station that is added is in one of them.

The invariant `UpToDate` says that the baselines are the first groups of their names. A group is a
choice of stations, which gives its members and its name; `exists_first_group` gives every station a
first group.
-/

namespace Aperture

open Network

variable {R : Type}

theorem Network.order_le_size {n : Network R} (h : 2 ≤ n.stations.size) :
    n.order ≤ n.stations.size :=
  Nat.max_le.2 ⟨Nat.min_le_right _ _, h⟩

variable [Scalar R]

/-- The baselines are those of the stations that the network has now. -/
structure BaselineSet.Current (set : BaselineSet R) (n : Network R) : Prop where
  vacancies : n.stations.vacancies = 0 ∧ none ∉ n.stations.slots
  order : set.order = n.order
  /-- Names and members are what forming the baselines now would give. -/
  groups : set.baselines.groups = (BaselineSet.build n.view n.order).baselines.groups
  /-- The members of a baseline are slots of stations, whose names joined are its name. -/
  members : ∀ b ∈ set.baselines.toList, ∃ stations : List (Station R),
    b.members.map n.stations.atSlot? = stations.map some ∧ stations.length = n.order ∧
      b.name = String.intercalate "_" (stations.map Station.name)
  /-- No station is left out, if there are two of them to correlate. -/
  everyone : 2 ≤ n.stations.size → ∀ s ∈ n.stations.toList,
    ∃ b ∈ set.baselines.toList, s ∈ b.stations n.view

namespace BaselineSet.Current

variable {set : BaselineSet R} {n : Network R}

/-- The stations of a baseline are stations of the network. -/
theorem mem_stations (h : set.Current n) {b : Baseline R} (hb : b ∈ set.baselines.toList)
    {s : Station R} (hs : s ∈ b.stations n.view) : s ∈ n.stations.toList := by
  obtain ⟨stations, hmembers, -, -⟩ := h.members b hb
  rw [stations_of_members hmembers] at hs
  have hlive : some s ∈ b.members.map n.stations.atSlot? := by
    rw [hmembers]
    exact List.mem_map_of_mem hs
  obtain ⟨slot, -, hslot⟩ := List.mem_map.1 hlive
  exact Roster.mem_toList.2 ⟨slot, hslot⟩

end BaselineSet.Current

namespace Network

variable {n : Network R}

/-- Every group was chosen from the stations. -/
theorem UpToDate.exists_choice (hn : n.UpToDate) {set : BaselineSet R}
    (hset : n.baselines = some set) {b : Baseline R} (hb : b ∈ set.baselines.toList) :
    ∃ g ∈ choices n.order n.stations.enumerate, groupOf g = (b.name, b.members) := by
  have hgroup : (b.name, b.members) ∈ set.baselines.groups := List.mem_map_of_mem hb
  rw [hn.groups_eq hset] at hgroup
  exact List.mem_map.1 ((firsts_sublist _).subset hgroup)

theorem UpToDate.exists_stations (hn : n.UpToDate) {set : BaselineSet R}
    (hset : n.baselines = some set) {b : Baseline R} (hb : b ∈ set.baselines.toList) :
    ∃ stations : List (Station R),
      b.members.map n.stations.atSlot? = stations.map some ∧ stations.length = n.order ∧
        b.name = String.intercalate "_" (stations.map Station.name) := by
  obtain ⟨g, hg, hgroup⟩ := hn.exists_choice hset hb
  obtain ⟨hname, hmembers⟩ := Prod.mk.inj hgroup
  obtain ⟨hsub, hlength⟩ := mem_choices.1 hg
  refine ⟨g.map Prod.snd, ?_, by rw [List.length_map, hlength], ?_⟩
  · rw [← hmembers, List.map_map, List.map_map]
    exact List.map_congr_left fun s hs => Roster.mem_enumerate.1 (hsub.subset hs)
  · rw [← hname, List.map_map]
    rfl

theorem UpToDate.exists_baseline_of_station (hn : n.UpToDate) {set : BaselineSet R}
    (hset : n.baselines = some set) (hsize : 2 ≤ n.stations.size) {s : Station R}
    (hs : s ∈ n.stations.toList) : ∃ b ∈ set.baselines.toList, s ∈ b.stations n.view := by
  obtain ⟨slot, hslot⟩ := Roster.mem_toList.1 hs
  have hnames : (n.stations.enumerate.map fun s => s.2.name).Nodup := by
    have hnodup := hn.nodup
    rwa [Roster.names, ← Roster.map_snd_enumerate, List.map_map] at hnodup
  have hlength : n.order - 1 + 1 ≤ n.stations.enumerate.length := by
    have hsnd := congrArg List.length n.stations.map_snd_enumerate
    rw [List.length_map] at hsnd
    rw [Nat.sub_add_cancel n.order_pos, hsnd, ← hn.stations.size_eq]
    exact order_le_size hsize
  obtain ⟨g, hg, hsg, hfirst⟩ :=
    exists_first_group hnames hlength (Roster.mem_enumerate.2 hslot)
  rw [Nat.sub_add_cancel n.order_pos] at hg hfirst
  have hgroup : groupOf g ∈ set.baselines.groups := by
    rw [hn.groups_eq hset]
    exact hfirst
  obtain ⟨b, hb, hname⟩ := List.mem_map.1 hgroup
  have hlive : ∀ s ∈ g, s ∈ n.view.stations.enumerate := fun s hs =>
    (mem_choices.1 hg).1.subset hs
  refine ⟨b, hb, ?_⟩
  rw [stations_of_group hlive (congrArg Prod.snd hname)]
  exact List.mem_map_of_mem hsg

theorem UpToDate.current (hn : n.UpToDate) {set : BaselineSet R}
    (hset : n.baselines = some set) : set.Current n where
  vacancies := by
    have hnone := hn.vacancies (by rw [hset]; rfl)
    refine ⟨hnone, fun hmem => ?_⟩
    rw [hn.stations.vacancies_eq, List.countP_eq_zero] at hnone
    exact hnone none hmem rfl
  order := (hn.groups set hset).order
  groups := (hn.groups set hset).groups
  members _ hb := hn.exists_stations hset hb
  everyone hsize _ hs := hn.exists_baseline_of_station hset hsize hs

theorem UpToDate.current_settle (hn : n.UpToDate) : n.settle.2.Current n.settle.1 :=
  hn.settle.current n.settle_baselines

theorem UpToDate.size_settle (hn : n.UpToDate) : n.settle.1.stations.size = n.stations.size := by
  have hlength := congrArg List.length n.names_settle
  rw [Roster.names, Roster.names, List.length_map, List.length_map] at hlength
  rw [hn.settle.stations.size_eq, hn.stations.size_eq, hlength]

/-- Every name on the roster is among the stations of the baselines that are used next. -/
theorem UpToDate.exists_baseline_of_name (hn : n.UpToDate) (hsize : 2 ≤ n.stations.size)
    {name : String} (hname : name ∈ n.stations.names) :
    ∃ b ∈ n.settle.2.baselines.toList, ∃ s ∈ b.stations n.settle.1.view, s.name = name := by
  rw [← n.names_settle] at hname
  obtain ⟨s, hs, rfl⟩ := List.mem_map.1 hname
  rw [← hn.size_settle] at hsize
  obtain ⟨b, hb, hmem⟩ := hn.current_settle.everyone hsize s hs
  exact ⟨b, hb, s, hmem, rfl⟩

theorem name_notMem_remove (hn : n.UpToDate) (name : String) :
    name ∉ (n.remove name).stations.names := by
  rw [hn.names_remove]
  simp

variable [Fourier.Spectral R]

/-- A station gets on the roster under a name. -/
inductive Joins (n : Network R) (answer : String) (n' : Network R) : Prop
  | add (name : String) (recording : Cube R)
      (h : (Network.add name recording).on n = (.ok answer, n'))
  | copy (source target : String) (h : (Network.copy source target).on n = (.ok answer, n'))
  | filter (source target : String) (filter : Filter R)
      (h : (Network.filter source target filter).on n = (.ok answer, n'))

theorem Joins.mem_names {n' : Network R} {answer : String} (h : n.Joins answer n') :
    answer ∈ n'.stations.names := by
  obtain ⟨s, -, hinsert⟩ : ∃ s, s.index = n.created ∧ (insert s).on n = (.ok answer, n') := by
    cases h with
    | add name recording h => exact exists_insert_of_add h
    | copy source target h => exact exists_insert_of_copy h
    | filter source target filter h => exact exists_insert_of_filter h
  rw [names_insert hinsert]
  exact List.mem_append_right _ List.mem_cons_self

variable [Trig R]

theorem Joins.step {n' : Network R} {answer : String} (h : n.Joins answer n') : Step n n' := by
  cases h with
  | add name recording h =>
    have hstep : Step n ((Network.add name recording).on n).2 := .add name recording
    rwa [h] at hstep
  | copy source target h =>
    have hstep : Step n ((Network.copy source target).on n).2 := .copy source target
    rwa [h] at hstep
  | filter source target filter h =>
    have hstep : Step n ((Network.filter source target filter).on n).2 :=
      .filter source target filter
    rwa [h] at hstep

/-- **Baselines that are kept are current,** whatever was done to the network. A station that is
removed is in no baseline that is used next. A station that is added, as a recording, a copy or a
filtered copy, is in one, unless it is the only station. -/
theorem kept_baselines_current (n : Network R) (hn : n.Reachable) :
    (∀ set ∈ n.baselines, set.Current n) ∧
    n.settle.2.Current n.settle.1 ∧
    (∀ name, ∀ b ∈ (n.remove name).settle.2.baselines.toList,
      ∀ s ∈ b.stations (n.remove name).settle.1.view, s.name ≠ name) ∧
    (∀ answer n', n.Joins answer n' → 2 ≤ n'.stations.size →
      ∃ b ∈ n'.settle.2.baselines.toList, ∃ s ∈ b.stations n'.settle.1.view, s.name = answer) := by
  have hup := hn.upToDate
  refine ⟨fun set hset => hup.current hset, hup.current_settle, ?_, ?_⟩
  · intro name b hb s hs heq
    have hremoved : (n.remove name).UpToDate := hup.step (.remove name)
    have hlive := hremoved.current_settle.mem_stations hb hs
    have hmem : name ∈ (n.remove name).settle.1.stations.names :=
      List.mem_map.2 ⟨s, hlive, heq⟩
    rw [names_settle] at hmem
    exact name_notMem_remove hup name hmem
  · intro answer n' hjoins hsize
    have hjoined : n'.UpToDate := hup.step hjoins.step
    exact hjoined.exists_baseline_of_name hsize hjoins.mem_names

end Network

/-- A network that lost its first station and got another one while it had baselines, and was asked
for baselines again. -/
def Network.regrown : Network Binary64 :=
  ((Network.lettered.settle.1.remove "a").grow "d").settle.1

theorem Network.kept_baselines_current_regrown :
    Network.regrown.Reachable ∧ Network.regrown.baselines.isSome = true ∧
      Network.regrown.settle.2.baselines.groups =
        [("b_c", [0, 1]), ("b_d", [0, 2]), ("c_d", [1, 2])] ∧
      (∀ set ∈ Network.regrown.baselines, set.Current Network.regrown) ∧
      ∀ b ∈ (Network.regrown.remove "c").settle.2.baselines.toList,
        ∀ s ∈ b.stations (Network.regrown.remove "c").settle.1.view, s.name ≠ "c" := by
  have hlettered : Network.lettered.Reachable :=
    ((Reachable.grow .refl (by decide) (by decide +kernel)).grow (by decide)
      (by decide +kernel)).grow (by decide) (by decide +kernel)
  have hremoved : (Network.lettered.settle.1.remove "a").Reachable :=
    (hlettered.tail .settle).tail (.remove "a")
  have hreachable : Network.regrown.Reachable :=
    (hremoved.grow (by decide) (by decide +kernel)).tail .settle
  obtain ⟨hcurrent, -, hgone, -⟩ := kept_baselines_current Network.regrown hreachable
  exact ⟨hreachable, by decide +kernel, by decide +kernel, hcurrent, hgone "c"⟩

end Aperture
