import Aperture.Binary64
import Aperture.Fourier.Arrangement
import Aperture.Proofs.Network.Reachable
import Mathlib.Data.Finset.Card

/-!
# When every group of stations has its baseline

The members of a group are known by their names, since the stations of a network that can be reached
have different names. A group whose joined name another group took before has no baseline.

Main results: `covers_iff_names_apart`. Every group of stations has exactly one baseline if and only
if no two groups have the same joined name, and so if no name has an underscore in it.
`joined_names_collide` is a network with a group that has none.
-/

namespace Aperture

/-! ## Sublists of different names -/

/-- A sublist of different names is known by its members. -/
theorem sublist_eq_filter {l s : List String} (hl : l.Nodup) (h : s.Sublist l) :
    s = l.filter (· ∈ s) := by
  have hsub : s.Sublist (l.filter (· ∈ s)) := by
    have hfilter := h.filter (· ∈ s)
    rwa [List.filter_eq_self.2 (by simp)] at hfilter
  have hsubset : l.filter (· ∈ s) ⊆ s := fun a ha => by simpa using (List.mem_filter.1 ha).2
  exact hsub.eq_of_length_le ((hl.filter _).subperm hsubset).length_le

theorem eq_of_toFinset_eq {l s s' : List String} (hl : l.Nodup) (h : s.Sublist l)
    (h' : s'.Sublist l) (heq : s.toFinset = s'.toFinset) : s = s' := by
  rw [sublist_eq_filter hl h, sublist_eq_filter hl h']
  apply List.filter_congr
  intro a _
  have hmem : a ∈ s ↔ a ∈ s' := by
    rw [← List.mem_toFinset, heq, List.mem_toFinset]
  simp [hmem]

/-- Names without an underscore can be read off their joined name. -/
theorem eq_of_joined_eq {l l' : List String} (hl : l ≠ []) (hl' : l' ≠ [])
    (hplain : ∀ name ∈ l, '_' ∉ name.toList) (hplain' : ∀ name ∈ l', '_' ∉ name.toList)
    (h : String.intercalate "_" l = String.intercalate "_" l') : l = l' := by
  have hsplit {l : List String} (hne : l ≠ []) (hplain : ∀ name ∈ l, '_' ∉ name.toList) :
      (String.intercalate "_" l).toList.splitOn '_' = l.map String.toList := by
    rw [String.toList_intercalate]
    refine List.splitOn_intercalate '_' (fun chars hchars => ?_) (by simpa using hne)
    obtain ⟨name, hname, rfl⟩ := List.mem_map.1 hchars
    exact hplain name hname
  have hchars := hsplit hl hplain
  rw [h, hsplit hl' hplain'] at hchars
  exact (List.map_injective_iff.2 (fun _ _ => String.toList_inj.1) hchars).symm

/-! ## Groups and baselines -/

variable {R : Type}

theorem View.names_candidates (v : View R) (order : Nat) :
    (v.candidates order).map Prod.fst =
      (choices order v.stations.names).map (String.intercalate "_") := by
  rw [Roster.names, ← Roster.map_snd_enumerate, List.map_map, choices_map, List.map_map,
    View.candidates, List.map_map]
  rfl

namespace Network

variable [Scalar R]

/-- Every group of as many stations as are correlated together has exactly one baseline. -/
structure Covers (n : Network R) : Prop where
  size : n.settle.2.baselines.size = n.stations.size.choose n.order
  unique (names : Finset String) (hlive : names ⊆ n.stations.names.toFinset)
    (hcard : names.card = n.order) : ∃! b, b ∈ n.settle.2.baselines.toList ∧
      ((b.stations n.settle.1.view).map Station.name).toFinset = names

theorem names_settle (n : Network R) : n.settle.1.stations.names = n.stations.names := by
  unfold settle
  split
  · rfl
  · exact Roster.names_compact _

/-- The baselines of a network that is up to date are the first groups of their names. -/
theorem UpToDate.groups_settle {n : Network R} (hn : n.UpToDate) :
    n.settle.2.baselines.groups = firsts (n.settle.1.view.candidates n.order) := by
  have hkept := hn.settle.groups_eq n.settle_baselines
  rwa [hn.order_settle] at hkept

theorem UpToDate.nodup_baselines {n : Network R} (hn : n.UpToDate) :
    n.settle.2.baselines.names.Nodup := by
  rw [names_eq_map_groups, hn.groups_settle]
  exact nodup_firsts _

/-- There are as many baselines as groups exactly when no joined name comes twice. -/
theorem UpToDate.size_iff {n : Network R} (hn : n.UpToDate) :
    n.settle.2.baselines.size = n.stations.size.choose n.order ↔
      ((n.settle.1.view.candidates n.order).map Prod.fst).Nodup := by
  have hsize : n.settle.2.baselines.size = n.settle.2.baselines.groups.length := by
    rw [hn.indexed_settle.size_eq, Roster.groups, List.length_map]
  have hnames := congrArg List.length n.names_settle
  have hall : (n.settle.1.view.candidates n.order).length = n.stations.size.choose n.order := by
    have hlength := congrArg List.length (View.names_candidates n.settle.1.view n.order)
    rw [List.length_map, List.length_map, length_choices] at hlength
    rw [hlength]
    show n.settle.1.stations.names.length.choose _ = _
    rw [hnames, Roster.names, List.length_map, hn.stations.size_eq]
  rw [hsize, hn.groups_settle, ← hall, length_firsts_iff]

theorem UpToDate.stations_of_mem {n : Network R} (hn : n.UpToDate) {b : Baseline R}
    (hb : b ∈ n.settle.2.baselines.toList) :
    ((b.stations n.settle.1.view).map Station.name).Sublist n.stations.names ∧
      b.name = String.intercalate "_" ((b.stations n.settle.1.view).map Station.name) := by
  have hgroup : (b.name, b.members) ∈ n.settle.2.baselines.groups := List.mem_map_of_mem hb
  rw [hn.groups_settle] at hgroup
  obtain ⟨g, hg, heq⟩ := List.mem_map.1 ((firsts_sublist _).subset hgroup)
  obtain ⟨hname, hmembers⟩ := Prod.mk.inj heq
  have hsub := (mem_choices.1 hg).1
  rw [stations_of_group (fun s hs => hsub.subset hs) hmembers.symm, List.map_map]
  refine ⟨?_, hname.symm⟩
  rw [← n.names_settle, Roster.names, ← Roster.map_snd_enumerate, List.map_map]
  exact hsub.map _

/-- When no joined name comes twice, every group has a baseline. -/
theorem UpToDate.exists_baseline {n : Network R} (hn : n.UpToDate)
    (hnodup : ((n.settle.1.view.candidates n.order).map Prod.fst).Nodup) {l : List String}
    (hl : l.Sublist n.stations.names) (hlength : l.length = n.order) :
    ∃ b ∈ n.settle.2.baselines.toList, (b.stations n.settle.1.view).map Station.name = l := by
  have hmem : l ∈ choices n.order n.settle.1.stations.names := by
    rw [n.names_settle]
    exact mem_choices.2 ⟨hl, hlength⟩
  rw [Roster.names, ← Roster.map_snd_enumerate, List.map_map, choices_map] at hmem
  obtain ⟨g, hg, rfl⟩ := List.mem_map.1 hmem
  have hgroup : groupOf g ∈ n.settle.2.baselines.groups := by
    rw [hn.groups_settle, firsts_eq_self hnodup]
    exact List.mem_map_of_mem hg
  obtain ⟨b, hb, heq⟩ := List.mem_map.1 hgroup
  have hsub := (mem_choices.1 hg).1
  refine ⟨b, hb, ?_⟩
  rw [stations_of_group (fun s hs => hsub.subset hs) (congrArg Prod.snd heq), List.map_map]
  rfl

theorem UpToDate.covers_iff {n : Network R} (hn : n.UpToDate) :
    n.Covers ↔ ((n.settle.1.view.candidates n.order).map Prod.fst).Nodup := by
  refine ⟨fun h => hn.size_iff.1 h.size, fun hnodup => ⟨hn.size_iff.2 hnodup, ?_⟩⟩
  intro names hlive hcard
  have hfilter : (n.stations.names.filter (· ∈ names)).toFinset = names := by
    ext name
    rw [List.mem_toFinset, List.mem_filter]
    refine ⟨fun h => by simpa using h.2, fun h => ⟨?_, by simpa using h⟩⟩
    exact List.mem_toFinset.1 (hlive h)
  have hlength : (n.stations.names.filter (· ∈ names)).length = n.order := by
    rw [← List.toFinset_card_of_nodup (hn.nodup.filter _), hfilter, hcard]
  obtain ⟨b, hb, hstations⟩ := hn.exists_baseline hnodup List.filter_sublist hlength
  refine ⟨b, ⟨hb, by rw [hstations, hfilter]⟩, fun c ⟨hc, hsame⟩ => ?_⟩
  -- The same members in the order of the stations have the same joined name.
  obtain ⟨hsub, hname⟩ := hn.stations_of_mem hb
  obtain ⟨hsub', hname'⟩ := hn.stations_of_mem hc
  have hjoined : c.name = b.name := by
    rw [hname, hname', eq_of_toFinset_eq hn.nodup hsub' hsub]
    rw [hsame, hstations, hfilter]
  exact List.inj_on_of_nodup_map hn.nodup_baselines hc hb hjoined

variable [Trig R] [Fourier.Spectral R]

/-- **When every group of stations has its baseline.** The baselines of a network that can be
reached have different names. They cover all groups of stations if and only if no two groups have
the same joined name, their members taken in the order of the stations. No underscore in the names
of the stations is enough for that. -/
theorem covers_iff_names_apart (n : Network R) (hn : n.Reachable) :
    n.settle.2.baselines.names.Nodup ∧
    (n.Covers ↔ ∀ l l' : List String, l.Sublist n.stations.names → l'.Sublist n.stations.names →
      l.length = n.order → l'.length = n.order →
      String.intercalate "_" l = String.intercalate "_" l' → l = l') ∧
    ((∀ name ∈ n.stations.names, '_' ∉ name.toList) → n.Covers) := by
  have hup := hn.upToDate
  have hiff : n.Covers ↔ ∀ l l' : List String, l.Sublist n.stations.names →
      l'.Sublist n.stations.names → l.length = n.order → l'.length = n.order →
      String.intercalate "_" l = String.intercalate "_" l' → l = l' := by
    rw [hup.covers_iff, View.names_candidates]
    show ((choices n.order n.settle.1.stations.names).map _).Nodup ↔ _
    rw [n.names_settle, List.nodup_map_iff_inj_on (nodup_choices _ hup.nodup)]
    constructor
    · intro h l l' hl hl' hlength hlength' heq
      exact h l (mem_choices.2 ⟨hl, hlength⟩) l' (mem_choices.2 ⟨hl', hlength'⟩) heq
    · intro h l hl l' hl' heq
      exact h l l' (mem_choices.1 hl).1 (mem_choices.1 hl').1 (mem_choices.1 hl).2
        (mem_choices.1 hl').2 heq
  refine ⟨hup.nodup_baselines, hiff, ?_⟩
  intro hplain
  have hne {l : List String} (hlength : l.length = n.order) : l ≠ [] := by
    rintro rfl
    exact absurd hlength (Nat.ne_of_lt n.order_pos)
  apply hiff.2
  intro l l' hl hl' hlength hlength' heq
  exact eq_of_joined_eq (hne hlength) (hne hlength') (fun name h => hplain name (hl.subset h))
    (fun name h => hplain name (hl'.subset h)) heq

/-- The network with one more station, of a name that is free. -/
def grow (n : Network R) (name : String) : Network R where
  stations := n.stations.push
    { name, index := n.created, recording := Cube.ofSamples #[Scalar.one] }
  reference := n.reference
  frame := n.frame
  requestedOrder := n.requestedOrder
  created := n.created + 1
  baselines := none

theorem Reachable.grow {n : Network R} (hn : n.Reachable) {name : String}
    (hname : name.isEmpty = false) (hfree : n.stations.contains name = false) :
    (n.grow name).Reachable := by
  have hroster (s : Station R) (hs : s.name = name) :
      n.stations.add s = .ok (n.stations.push s) := by
    refine if_neg ?_
    show ¬n.stations.contains s.name = true
    rw [hs, hfree]
    exact Bool.false_ne_true
  have hadd : ((Network.add name (Cube.ofSamples #[Scalar.one])).on n).2 = n.grow name := by
    rw [on_add, nameFor, if_neg (by rw [hname]; exact Bool.false_ne_true)]
    show ((insert _).on n).2 = _
    rw [on_insert, hroster _ rfl]
    rfl
  exact hadd ▸ hn.tail (.add name _)

end Network

/-- A network of three stations in the order of their names. -/
def Network.lettered : Network Binary64 := ((Network.empty.grow "a").grow "b").grow "c"

theorem Network.reachable_lettered : Network.lettered.Reachable :=
  ((Reachable.grow .refl (by decide) (by decide +kernel)).grow (by decide)
    (by decide +kernel)).grow (by decide) (by decide +kernel)

theorem Network.covers_lettered :
    Network.lettered.Reachable ∧ Network.lettered.stations.names = ["a", "b", "c"] ∧
      Network.lettered.Covers := by
  have hreachable := Network.reachable_lettered
  have hnames : Network.lettered.stations.names = ["a", "b", "c"] := rfl
  refine ⟨hreachable, hnames, (covers_iff_names_apart _ hreachable).2.2 ?_⟩
  rw [hnames]
  decide +kernel

/-- A network in which the second and the third station have the joined name of the first two. -/
def Network.colliding : Network Binary64 := ((Network.empty.grow "a_b").grow "a").grow "b_a"

/-- The second and the third station have no baseline: their joined name is taken. -/
theorem Network.joined_names_collide :
    Network.colliding.Reachable ∧ Network.colliding.order = 2 ∧
      Network.colliding.stations.names = ["a_b", "a", "b_a"] ∧
      Network.colliding.settle.2.baselines.names = ["a_b_a", "a_b_b_a"] ∧
      ¬Network.colliding.Covers := by
  have hnames : Network.colliding.settle.2.baselines.names = ["a_b_a", "a_b_b_a"] := by
    decide +kernel
  have hreachable : Network.colliding.Reachable :=
    ((Reachable.grow .refl (by decide) (by decide +kernel)).grow (by decide)
      (by decide +kernel)).grow (by decide) (by decide +kernel)
  refine ⟨hreachable, rfl, rfl, hnames, ?_⟩
  intro hcovers
  have hsize := congrArg List.length hnames
  rw [Roster.names, List.length_map] at hsize
  have hthree : Network.colliding.settle.2.baselines.toList.length = 3 := hcovers.size
  rw [hsize] at hthree
  exact absurd hthree (by decide)

end Aperture
