import Aperture.BaselineSet
import Aperture.Proofs.Combinations
import Aperture.Proofs.Roster.Indexed

/-!
# The groups of a baseline set

A **candidate** is a group of stations with its name and its slots; the candidates of an order are
listed in lexicographic order. `firsts` keeps the first candidate of every name.

Main results: `groups_update` and `indexed_update`. Forming the baselines anew keeps the first
candidate of every name, and nothing of the baselines that were there before; the baselines are
found by name.
-/

namespace Aperture

/-! ## The first of every name -/

/-- The pairs whose name none before them has. -/
def firsts {β : Type} : List (String × β) → List (String × β)
  | [] => []
  | g :: l => g :: (firsts l).filter fun h => h.1 ≠ g.1

section

variable {β : Type}

theorem firsts_sublist (l : List (String × β)) : (firsts l).Sublist l := by
  induction l with
  | nil => exact List.Sublist.refl _
  | cons g l ih => exact (List.filter_sublist.trans ih).cons_cons g

theorem nodup_firsts (l : List (String × β)) : ((firsts l).map Prod.fst).Nodup := by
  induction l with
  | nil => exact List.nodup_nil
  | cons g l ih =>
    rw [firsts, List.map_cons, List.nodup_cons]
    refine ⟨?_, (List.filter_sublist.map Prod.fst).nodup ih⟩
    intro hmem
    obtain ⟨h, hh, hname⟩ := List.mem_map.1 hmem
    have hne := (List.mem_filter.1 hh).2
    simp [hname] at hne

theorem firsts_eq_self {l : List (String × β)} (h : (l.map Prod.fst).Nodup) : firsts l = l := by
  induction l with
  | nil => rfl
  | cons g l ih =>
    rw [List.map_cons, List.nodup_cons] at h
    rw [firsts, ih h.2, List.filter_eq_self.2]
    intro a ha
    have hne : a.1 ≠ g.1 := fun heq => h.1 (heq ▸ List.mem_map_of_mem ha)
    simpa using hne

theorem mem_firsts_append {l : List (String × β)} {g : String × β} (h : g ∈ firsts l)
    (l' : List (String × β)) : g ∈ firsts (l ++ l') := by
  induction l with
  | nil => cases h
  | cons a l ih =>
    rw [firsts, List.mem_cons, List.mem_filter] at h
    rw [List.cons_append, firsts, List.mem_cons, List.mem_filter]
    exact h.imp_right fun ⟨hmem, hne⟩ => ⟨ih hmem, hne⟩

/-- New names that are different as before pick the same pairs. -/
theorem firsts_map {γ : Type} {rename : String → String} (hinj : rename.Injective) (f : β → γ)
    (l : List (String × β)) :
    firsts (l.map (Prod.map rename f)) = (firsts l).map (Prod.map rename f) := by
  induction l with
  | nil => rfl
  | cons g l ih =>
    rw [List.map_cons, firsts, firsts, List.map_cons, ih, List.filter_map]
    congr 2
    apply List.filter_congr
    intro h _
    simp [hinj.eq_iff]

/-- All pairs are kept exactly when no name comes twice. -/
theorem length_firsts_iff (l : List (String × β)) :
    (firsts l).length = l.length ↔ (l.map Prod.fst).Nodup := by
  constructor
  · intro h
    rw [← (firsts_sublist l).eq_of_length h]
    exact nodup_firsts l
  · intro h
    rw [firsts_eq_self h]

/-- Taking pairs one after the other, unless their name is there. -/
theorem foldl_firsts (l acc : List (String × β)) :
    l.foldl (fun acc g => if g.1 ∈ acc.map Prod.fst then acc else acc ++ [g]) acc =
      acc ++ (firsts l).filter fun g => g.1 ∉ acc.map Prod.fst := by
  induction l generalizing acc with
  | nil => simp [firsts]
  | cons g l ih =>
    rw [List.foldl_cons, ih, firsts, List.filter_cons, List.filter_filter]
    by_cases h : g.1 ∈ acc.map Prod.fst
    · rw [if_pos h, if_neg (by simpa using h)]
      congr 1
      apply List.filter_congr
      intro a _
      by_cases hname : a.1 = g.1
      · simpa [hname] using h
      · simp [hname]
    · rw [if_neg h, if_pos (by simpa using h), List.append_assoc, List.singleton_append]
      congr 2
      apply List.filter_congr
      intro a _
      have hsplit : a.1 ∈ (acc ++ [g]).map Prod.fst ↔ a.1 ∈ acc.map Prod.fst ∨ a.1 = g.1 := by
        rw [List.map_append, List.mem_append]
        simp
      simp only [hsplit]
      simp

end

/-! ## Candidates -/

variable {R : Type}

/-- Name and slots of a group of stations. -/
def groupOf (g : List (Nat × Station R)) : String × List Nat :=
  (String.intercalate "_" (g.map fun s => s.2.name), g.map Prod.fst)

/-- The groups of `order` stations, in lexicographic order. -/
def View.candidates (v : View R) (order : Nat) : List (String × List Nat) :=
  (choices order v.stations.enumerate).map groupOf

/-- Name and members of the baselines. -/
def Roster.groups (r : Roster (Baseline R)) : List (String × List Nat) :=
  r.toList.map fun b => (b.name, b.members)

theorem names_eq_map_groups (r : Roster (Baseline R)) : r.names = r.groups.map Prod.fst := by
  simp [Roster.names, Roster.groups, Named.name]

theorem mapM_station? {v : View R} {g : List (Nat × Station R)}
    (h : ∀ s ∈ g, s ∈ v.stations.enumerate) :
    (g.map Prod.fst).mapM v.station? = some (g.map Prod.snd) := by
  induction g with
  | nil => rfl
  | cons s g ih =>
    have hs : v.station? s.1 = some s.2 := Roster.mem_enumerate.1 (h s List.mem_cons_self)
    have hg := ih fun a ha => h a (List.mem_cons_of_mem _ ha)
    simp [List.mapM_cons, hs, hg]

theorem stations_of_members {v : View R} {b : Baseline R} {stations : List (Station R)}
    (h : b.members.map v.stations.atSlot? = stations.map some) : b.stations v = stations := by
  have hid : (b.members.map v.stations.atSlot?).filterMap id = stations := by
    rw [h, List.filterMap_map]
    exact List.filterMap_some
  rwa [List.filterMap_map] at hid

theorem stations_of_group {v : View R} {b : Baseline R} {g : List (Nat × Station R)}
    (h : ∀ s ∈ g, s ∈ v.stations.enumerate) (hb : b.members = g.map Prod.fst) :
    b.stations v = g.map Prod.snd := by
  rw [Baseline.stations, hb, List.filterMap_map, ← List.filterMap_eq_map]
  exact List.filterMap_congr fun s hs => Roster.mem_enumerate.1 (h s hs)

/-! ## No station is left out -/

theorem groupOf_cons (a : Nat × Station R) {g : List (Nat × Station R)} (h : g ≠ []) :
    groupOf (a :: g) = Prod.map (a.2.name ++ "_" ++ ·) (a.1 :: ·) (groupOf g) := by
  rw [groupOf, List.map_cons, String.intercalate_cons_of_ne_nil (by simpa using h)]
  rfl

/-- A first group stays one when a new first station joins all groups. -/
theorem mem_firsts_cons (a : Nat × Station R) {k : Nat} {l g : List (Nat × Station R)}
    (hg : g ∈ choices (k + 1) l) (h : groupOf g ∈ firsts ((choices (k + 1) l).map groupOf)) :
    groupOf (a :: g) ∈ firsts ((choices (k + 2) (a :: l)).map groupOf) := by
  have hjoin {g : List (Nat × Station R)} (hg : g ∈ choices (k + 1) l) :
      groupOf (a :: g) = Prod.map (a.2.name ++ "_" ++ ·) (a.1 :: ·) (groupOf g) :=
    groupOf_cons a (List.ne_nil_of_length_eq_add_one (mem_choices.1 hg).2)
  have hblock : ((choices (k + 1) l).map (a :: ·)).map groupOf =
      ((choices (k + 1) l).map groupOf).map (Prod.map (a.2.name ++ "_" ++ ·) (a.1 :: ·)) := by
    rw [List.map_map, List.map_map]
    exact List.map_congr_left fun g hg => hjoin hg
  have hinj : Function.Injective (a.2.name ++ "_" ++ ·) := fun _ _ h =>
    (String.append_right_inj _).1 h
  rw [choices, List.map_append, hblock]
  refine mem_firsts_append ?_ _
  rw [firsts_map hinj, hjoin hg]
  exact List.mem_map_of_mem h

theorem firsts_singles {l : List (Nat × Station R)} (hl : (l.map fun s => s.2.name).Nodup) :
    firsts ((choices 1 l).map groupOf) = (choices 1 l).map groupOf := by
  apply firsts_eq_self
  rw [List.map_map]
  refine (nodup_choices 1 (.of_map _ hl)).map_on fun g hg g' hg' heq => ?_
  obtain ⟨hsub, hlength⟩ := mem_choices.1 hg
  obtain ⟨hsub', hlength'⟩ := mem_choices.1 hg'
  obtain ⟨a, rfl⟩ := List.length_eq_one_iff.1 hlength
  obtain ⟨b, rfl⟩ := List.length_eq_one_iff.1 hlength'
  have hname : a.2.name = b.2.name := by simpa [groupOf] using heq
  rw [List.inj_on_of_nodup_map hl (hsub.subset (List.mem_singleton_self a))
    (hsub'.subset (List.mem_singleton_self b)) hname]

/-- Every station is in a group that is the first of its name. It is the group of the first stations
and this one: all groups before it differ from it in the last member only. -/
theorem exists_first_group {l : List (Nat × Station R)} (hl : (l.map fun s => s.2.name).Nodup)
    {k : Nat} (hk : k + 1 ≤ l.length) {s : Nat × Station R} (hs : s ∈ l) :
    ∃ g ∈ choices (k + 1) l, s ∈ g ∧ groupOf g ∈ firsts ((choices (k + 1) l).map groupOf) := by
  induction k generalizing l s with
  | zero =>
    have hgroup : [s] ∈ choices 1 l := mem_choices.2 ⟨List.singleton_sublist.2 hs, rfl⟩
    refine ⟨[s], hgroup, List.mem_singleton_self s, ?_⟩
    rw [firsts_singles hl]
    exact List.mem_map_of_mem hgroup
  | succ k ih =>
    cases l with
    | nil => cases hs
    | cons a l =>
      have hrest : (l.map fun s => s.2.name).Nodup := (List.nodup_cons.1 hl).2
      have hlength : k + 1 ≤ l.length := Nat.le_of_succ_le_succ hk
      have hmem {g : List (Nat × Station R)} (hg : g ∈ choices (k + 1) l) :
          a :: g ∈ choices (k + 2) (a :: l) := List.mem_append_left _ (List.mem_map_of_mem hg)
      rcases List.mem_cons.1 hs with rfl | hs
      · have hpos : 0 < l.length := Nat.lt_of_lt_of_le (Nat.succ_pos k) hlength
        obtain ⟨g, hg, -, hfirst⟩ := ih hrest hlength (List.getElem_mem hpos)
        exact ⟨s :: g, hmem hg, List.mem_cons_self, mem_firsts_cons s hg hfirst⟩
      · obtain ⟨g, hg, hsg, hfirst⟩ := ih hrest hlength hs
        exact ⟨a :: g, hmem hg, List.mem_cons_of_mem _ hsg, mem_firsts_cons a hg hfirst⟩

/-! ## Forming the groups -/

variable [Scalar R]

theorem ofMembers?_groupOf {v : View R} {g : List (Nat × Station R)}
    (h : ∀ s ∈ g, s ∈ v.stations.enumerate) :
    ∃ b, Baseline.ofMembers? (g.map Prod.fst) v = some b ∧ (b.name, b.members) = groupOf g := by
  simp only [Baseline.ofMembers?, mapM_station? h]
  refine ⟨_, rfl, ?_⟩
  simp only [groupOf, List.map_map]
  rfl

/-- Adding a group takes its name and slots, unless the name is there. -/
theorem groups_addGroup (set : BaselineSet R) {v : View R} {r : Roster (Baseline R)}
    (hr : r.Indexed) {g : List (Nat × Station R)} (h : ∀ s ∈ g, s ∈ v.stations.enumerate) :
    (set.addGroup v r (g.map Prod.fst)).Indexed ∧
      (set.addGroup v r (g.map Prod.fst)).groups =
        if (groupOf g).1 ∈ r.groups.map Prod.fst then r.groups else r.groups ++ [groupOf g] := by
  obtain ⟨b, hb, hgroup⟩ := ofMembers?_groupOf h
  have hname : (set.adopt b).name = (groupOf g).1 := congrArg Prod.fst hgroup
  have htaken : Named.name (set.adopt b) ∈ r.names ↔ (groupOf g).1 ∈ r.groups.map Prod.fst := by
    rw [names_eq_map_groups, ← hname]
    rfl
  simp only [BaselineSet.addGroup, hb]
  by_cases hmem : (groupOf g).1 ∈ r.groups.map Prod.fst
  · rw [if_pos hmem, hr.add_of_mem (htaken.2 hmem)]
    exact ⟨hr, rfl⟩
  · have hadd := hr.add_of_notMem fun hc => hmem (htaken.1 hc)
    rw [if_neg hmem, hadd]
    refine ⟨hr.add hadd, ?_⟩
    rw [← hgroup]
    simp [Roster.groups, BaselineSet.adopt]

theorem groups_foldl (set : BaselineSet R) {v : View R} (gs : List (List (Nat × Station R)))
    (h : ∀ g ∈ gs, ∀ s ∈ g, s ∈ v.stations.enumerate) {r : Roster (Baseline R)} (hr : r.Indexed) :
    ((gs.map fun g => g.map Prod.fst).foldl (set.addGroup v) r).Indexed ∧
      ((gs.map fun g => g.map Prod.fst).foldl (set.addGroup v) r).groups =
        (gs.map groupOf).foldl
          (fun acc g => if g.1 ∈ acc.map Prod.fst then acc else acc ++ [g]) r.groups := by
  induction gs generalizing r with
  | nil => exact ⟨hr, rfl⟩
  | cons g gs ih =>
    have hrest : ∀ g ∈ gs, ∀ s ∈ g, s ∈ v.stations.enumerate :=
      fun a ha => h a (List.mem_cons_of_mem _ ha)
    obtain ⟨hindexed, hgroups⟩ := groups_addGroup set hr (h g List.mem_cons_self)
    rw [List.map_cons, List.map_cons, List.foldl_cons, List.foldl_cons, ← hgroups]
    exact ih hrest hindexed

/-- **What forming the baselines anew gives.** -/
theorem indexed_and_groups_update (set : BaselineSet R) (v : View R) {order : Nat}
    (horder : 0 < order) :
    (set.update v order).baselines.Indexed ∧
      (set.update v order).baselines.groups = firsts (v.candidates order) := by
  have hmembers : (combinations (v.stations.enumerate.map Prod.fst).length order).map
      (fun c => c.filterMap fun i => (v.stations.enumerate.map Prod.fst)[i]?) =
      (choices order v.stations.enumerate).map fun g => g.map Prod.fst := by
    rw [combinations_eq_choices _ horder, choices_positions, choices_map]
  have hlive : ∀ g ∈ choices order v.stations.enumerate, ∀ s ∈ g, s ∈ v.stations.enumerate := by
    intro g hg s hs
    exact (mem_choices.1 hg).1.subset hs
  obtain ⟨hindexed, hfold⟩ :=
    groups_foldl set (choices order v.stations.enumerate) hlive Roster.indexed_empty
  rw [foldl_firsts] at hfold
  simp only [BaselineSet.update, hmembers]
  refine ⟨hindexed, hfold.trans ?_⟩
  exact List.filter_eq_self.2 fun g _ => by simp [Roster.groups]

theorem indexed_update (set : BaselineSet R) (v : View R) {order : Nat} (horder : 0 < order) :
    (set.update v order).baselines.Indexed :=
  (indexed_and_groups_update set v horder).1

theorem groups_update (set : BaselineSet R) (v : View R) {order : Nat} (horder : 0 < order) :
    (set.update v order).baselines.groups = firsts (v.candidates order) :=
  (indexed_and_groups_update set v horder).2

end Aperture
