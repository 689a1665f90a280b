import Aperture.Proofs.Combinations.Order
import Aperture.Proofs.Network.AllGroups

/-!
# What forming the baselines gives

The stations of a group are **picked** by their positions among all stations of the view. A position
counts stations, not slots, so vacant slots do not matter.

* `toList_update`: a baseline that was formed has nothing of its own but its group. Whatever else it
  holds comes from the set (`BaselineSet.formed`), and it is unlocked.
* `View.candidates_eq_picks`: the candidates are the groups of the combinations.

Main results: `BaselineSet.update_keeps_firsts`, for all views, whatever the names. The empty group
is not formed: `BaselineSet.no_group_without_members`.
-/

namespace Aperture

variable {R : Type}

/-! ## Groups by position -/

/-- The stations at some positions, with their slots. -/
def View.pick (v : View R) (positions : List Nat) : List (Nat × Station R) :=
  positions.filterMap fun i => v.stations.enumerate[i]?

theorem View.length_enumerate (v : View R) :
    v.stations.enumerate.length = v.stations.toList.length := by
  rw [← Roster.map_snd_enumerate, List.length_map]

theorem View.candidates_eq_picks (v : View R) {order : Nat} (horder : 0 < order) :
    v.candidates order =
      (combinations v.stations.toList.length order).map fun c => groupOf (v.pick c) := by
  rw [View.candidates, ← choices_positions, ← combinations_eq_choices _ horder, List.map_map,
    v.length_enumerate]
  rfl

theorem View.atSlot?_of_mem_pick {v : View R} {c : List Nat} {p : Nat × Station R}
    (hp : p ∈ v.pick c) : v.stations.atSlot? p.1 = some p.2 := by
  obtain ⟨i, -, hi⟩ := List.mem_filterMap.1 hp
  exact Roster.mem_enumerate.1 (List.mem_of_getElem? hi)

/-- The stations that are picked are those at the positions. -/
theorem View.map_snd_pick (v : View R) {k : Nat} {c : List Nat}
    (hc : IsSubset v.stations.toList.length k c) :
    ((v.pick c).map Prod.snd).map some = c.map fun i => v.stations.toList[i]? := by
  rw [View.pick, List.map_filterMap, List.map_filterMap, ← Roster.map_snd_enumerate,
    ← List.filterMap_eq_map]
  refine List.filterMap_congr fun i hi => ?_
  have hlt : i < v.stations.enumerate.length := by
    rw [v.length_enumerate]
    exact hc.below i hi
  simp [List.getElem?_eq_getElem hlt]

theorem View.length_pick (v : View R) {k : Nat} {c : List Nat}
    (hc : IsSubset v.stations.toList.length k c) : (v.pick c).length = k := by
  have hlength := congrArg List.length (v.map_snd_pick hc)
  rwa [List.length_map, List.length_map, List.length_map, hc.length] at hlength

/-- The names that are picked are those at the positions. -/
theorem View.names_pick (v : View R) {k : Nat} {c : List Nat}
    (hc : IsSubset v.stations.toList.length k c) :
    ((v.pick c).map fun p => p.2.name).map some = c.map fun i => v.stations.names[i]? := by
  have hnames := congrArg (List.map (Option.map Station.name)) (v.map_snd_pick hc)
  simpa [Roster.names, Named.name, Function.comp_def] using hnames

/-- When the stations have different names without underscore, a group is known by its joined
name. -/
theorem View.eq_of_joined_pick_eq {v : View R} (hnodup : v.stations.names.Nodup)
    (hplain : ∀ name ∈ v.stations.names, '_' ∉ name.toList) {k : Nat} (hk : 0 < k)
    {l l' : List Nat} (hl : IsSubset v.stations.toList.length k l)
    (hl' : IsSubset v.stations.toList.length k l')
    (h : (groupOf (v.pick l)).1 = (groupOf (v.pick l')).1) : l = l' := by
  have hne {l : List Nat} (hl : IsSubset v.stations.toList.length k l) :
      (v.pick l).map (fun p => p.2.name) ≠ [] := by
    refine List.ne_nil_of_length_pos ?_
    rwa [List.length_map, v.length_pick hl]
  have hlive {l : List Nat} : ∀ name ∈ (v.pick l).map (fun p => p.2.name), '_' ∉ name.toList := by
    intro name hname
    obtain ⟨p, hp, rfl⟩ := List.mem_map.1 hname
    have hmem : p.2 ∈ v.stations.toList := Roster.mem_toList.2 ⟨p.1, atSlot?_of_mem_pick hp⟩
    exact hplain _ (List.mem_map_of_mem hmem)
  have hsame : (v.pick l).map (fun p => p.2.name) = (v.pick l').map fun p => p.2.name :=
    eq_of_joined_eq (hne hl) (hne hl') hlive hlive h
  -- The names at two lists of positions agree, so the positions do.
  have hread : (l.map fun i => v.stations.names[i]?) = l'.map fun i => v.stations.names[i]? := by
    rw [← v.names_pick hl, hsame, v.names_pick hl']
  refine List.ext_getElem (hl.length.trans hl'.length.symm) fun i hi hi' => ?_
  have hbelow : l[i] < v.stations.names.length := by
    rw [Roster.names, List.length_map]
    exact hl.below _ (List.getElem_mem hi)
  have hname : v.stations.names[l[i]]? = v.stations.names[l'[i]]? := by
    have hat := congrArg (·[i]?) hread
    simpa [hi, hi'] using hat
  exact (List.getElem?_inj hbelow hnodup).1 hname

/-! ## What a baseline is formed with -/

variable [Scalar R]

namespace BaselineSet

/-- The baseline of a group, unlocked, with the settings of the set. -/
def formed (s : BaselineSet R) (group : String × List Nat) : Baseline R where
  name := group.1
  members := group.2
  locked := none
  target := s.target
  wavelength := s.wavelength
  rate := s.rate
  correlator := s.correlator
  vector := .zero
  uv := .zero
  pointing := []

theorem adopt_ofMembers? (s : BaselineSet R) {v : View R} {members : List Nat} {b : Baseline R}
    (h : Baseline.ofMembers? members v = some b) : s.adopt b = s.formed (b.name, b.members) := by
  obtain ⟨stations, -, hb⟩ := Option.bind_eq_some_iff.1 h
  obtain rfl := Option.some.inj hb
  rfl

/-- Adding a group adds nothing but a baseline that was formed. -/
theorem formed_addGroup (s : BaselineSet R) (v : View R) {r : Roster (Baseline R)}
    (hr : ∀ b ∈ r.toList, b = s.formed (b.name, b.members)) (members : List Nat) :
    ∀ b ∈ (s.addGroup v r members).toList, b = s.formed (b.name, b.members) := by
  unfold addGroup
  split
  · exact hr
  · next new hnew =>
    split
    · next longer hadd =>
      rw [Roster.toList_add hadd]
      intro b hb
      rcases List.mem_append.1 hb with hb | hb
      · exact hr b hb
      · obtain rfl := List.mem_singleton.1 hb
        exact s.adopt_ofMembers? hnew
    · exact hr

theorem formed_update (s : BaselineSet R) (v : View R) (order : Nat) :
    ∀ b ∈ (s.update v order).baselines.toList, b = s.formed (b.name, b.members) := by
  rw [update]
  refine List.foldlRecOn (motive := fun r => ∀ b ∈ r.toList, b = s.formed (b.name, b.members))
    _ (s.addGroup v) (fun b hb => ?_) fun r hr members _ => s.formed_addGroup v hr members
  cases hb

/-- The baselines are formed from their groups. -/
theorem toList_update (s : BaselineSet R) (v : View R) (order : Nat) :
    (s.update v order).baselines.toList =
      (s.update v order).baselines.groups.map s.formed := by
  rw [Roster.groups, List.map_map]
  conv_lhs => rw [← List.map_id (s.update v order).baselines.toList]
  exact List.map_congr_left fun b hb => s.formed_update v order b hb

/-- Groups without members are not formed. -/
theorem toList_update_zero (s : BaselineSet R) (v : View R) :
    (s.update v 0).baselines.toList = [] := by
  simp only [update, combinations_zero]
  rfl

theorem toList_update_eq (s : BaselineSet R) (v : View R) (order : Nat) :
    (s.update v order).baselines.toList =
      (firsts ((combinations v.stations.toList.length order).map fun c =>
        groupOf (v.pick c))).map s.formed := by
  rcases Nat.eq_zero_or_pos order with rfl | horder
  · rw [toList_update_zero, combinations_zero]
    rfl
  · rw [toList_update, groups_update s v horder, v.candidates_eq_picks horder]

/-- **What forming the baselines gives, for any names.** Let the subsets of a size be given in
lexicographic order, as positions of stations. For every set, view and size:

* Every subset picks the stations at its positions, in their slots.
* The baselines are those of the first subset of every joined name, in this order. Each of them is
  unlocked and has the settings of the set. For size zero there are none.
* The settings and the image of the set stay. What baselines it had before, and of what size, has no
  influence, so forming them again gives the same set.
* If the stations have different names, none with an underscore, different subsets have different
  joined names, and every one of them has its baseline. The stations of a network that can be
  reached have different names. -/
theorem update_keeps_firsts [Trig R] [Fourier.Spectral R] (s : BaselineSet R) (v : View R)
    (order : Nat) :
    (∃ subsets : List (List Nat),
      (subsets.Pairwise (· < ·) ∧
        ∀ c, c ∈ subsets ↔ 0 < order ∧ IsSubset v.stations.toList.length order c) ∧
      (∀ c ∈ subsets, ((v.pick c).map Prod.snd).map some = c.map (fun i => v.stations.toList[i]?) ∧
        ∀ p ∈ v.pick c, v.stations.atSlot? p.1 = some p.2) ∧
      (s.update v order).baselines.toList =
        (firsts (subsets.map fun c => groupOf (v.pick c))).map s.formed) ∧
    s.update v order = { s with order, baselines := (s.update v order).baselines } ∧
    (∀ baselines size, { s with baselines, order := size }.update v order = s.update v order) ∧
    (s.update v order).update v order = s.update v order ∧
    (0 < order → v.stations.names.Nodup → (∀ name ∈ v.stations.names, '_' ∉ name.toList) →
      (∀ c d, IsSubset v.stations.toList.length order c →
        IsSubset v.stations.toList.length order d →
        (groupOf (v.pick c)).1 = (groupOf (v.pick d)).1 → c = d) ∧
      (s.update v order).baselines.toList.length = v.stations.toList.length.choose order) ∧
    ∀ n : Network R, n.Reachable → n.view.stations.names.Nodup := by
  refine ⟨⟨combinations v.stations.toList.length order, ⟨pairwise_combinations _ _, fun c =>
    mem_combinations⟩, fun c hc => ⟨v.map_snd_pick (mem_combinations.1 hc).2, fun p hp =>
      View.atSlot?_of_mem_pick hp⟩, s.toList_update_eq v order⟩, rfl, fun _ _ => rfl, rfl, ?_,
    fun n hn => hn.upToDate.nodup⟩
  intro horder hnodup hplain
  have hapart : ∀ c d, IsSubset v.stations.toList.length order c →
      IsSubset v.stations.toList.length order d →
      (groupOf (v.pick c)).1 = (groupOf (v.pick d)).1 → c = d := fun c d hc hd =>
    View.eq_of_joined_pick_eq hnodup hplain horder hc hd
  refine ⟨hapart, ?_⟩
  have hsubsets : (combinations v.stations.toList.length order).Nodup :=
    (pairwise_combinations _ _).imp ne_of_lt
  have hfirsts : (((combinations v.stations.toList.length order).map fun c =>
      groupOf (v.pick c)).map Prod.fst).Nodup := by
    rw [List.map_map]
    refine hsubsets.map_on fun c hc d hd => ?_
    exact hapart c d (mem_combinations.1 hc).2 (mem_combinations.1 hd).2
  rw [toList_update_eq, firsts_eq_self hfirsts, List.length_map, List.length_map,
    length_combinations _ horder]

/-- The three stations of `Network.lettered` have a baseline for every two of them. -/
theorem update_keeps_firsts_lettered :
    Network.lettered.view.stations.names = ["a", "b", "c"] ∧
      (build Network.lettered.view 2).baselines.groups =
        [("a_b", [0, 1]), ("a_c", [0, 2]), ("b_c", [1, 2])] ∧
      (build Network.lettered.view 2).baselines.toList.length = Nat.choose 3 2 := by
  have hnames : Network.lettered.view.stations.names = ["a", "b", "c"] := rfl
  obtain ⟨-, -, -, -, hall, hnodup⟩ := update_keeps_firsts empty Network.lettered.view 2
  refine ⟨hnames, by decide +kernel, (hall (by decide) ?_ ?_).2⟩
  · exact hnodup Network.lettered Network.reachable_lettered
  · rw [hnames]
    decide +kernel

end BaselineSet

/-- A network of two stations. -/
def Network.paired : Network Binary64 := (Network.empty.grow "a").grow "b"

/-- Two stations have one subset of size zero, and it has no baseline. -/
theorem BaselineSet.no_group_without_members :
    Network.paired.view.stations.names = ["a", "b"] ∧
      IsSubset Network.paired.view.stations.toList.length 0 [] ∧
      (build Network.paired.view 0).baselines.toList = [] ∧
      (build Network.paired.view 0).baselines.toList.length ≠ Nat.choose 2 0 := by
  have hnone : (build Network.paired.view 0).baselines.toList = [] := toList_update_zero empty _
  refine ⟨rfl, ⟨rfl, List.Pairwise.nil, nofun⟩, hnone, ?_⟩
  rw [hnone]
  decide

end Aperture
