import Aperture.Call
import Aperture.Proofs.Network.AllGroups
import Mathlib.Data.Nat.Find

/-!
# The names of stations

A name is **lettered** if it is a letter from `A` to `Y` and a digit. The generated names run
through the 250 lettered names over and over: the letter is a remainder of the number and the digit
comes from the quotient, and together they tell the number up to multiples of 250
(`generatedName_eq_iff`). So 250 generated names in a row are all the lettered names, each of them
once, whatever number they begin at (`lettered_iff`).

**Theorem (`unnamed_station_named`).** In every network that can be reached, a station without a
name gets the first lettered name that is free, counted cyclically from the number of created
stations. If none is free it is refused, and nothing changes.

The other steps give no names of their own. `Step.allNamed_iff` says when a step leaves a station
without a name: only copies under the empty name do.
-/

namespace Aperture

namespace Station

/-- A letter from `A` to `Y` and a digit. -/
def Lettered (name : String) : Prop :=
  ∃ letter digit : Char, 'A' ≤ letter ∧ letter ≤ 'Y' ∧ '0' ≤ digit ∧ digit ≤ '9' ∧
    name = String.ofList [letter, digit]

theorem Lettered.ne_empty {name : String} (h : Lettered name) : name ≠ "" := by
  obtain ⟨letter, digit, -, -, -, -, rfl⟩ := h
  rw [Ne, String.ofList_eq_empty_iff]
  exact List.cons_ne_nil _ _

theorem toNat_ofNat_of_ascii {n : Nat} (h : n < 128) : (Char.ofNat n).toNat = n := by
  have hvalid : n.isValidChar := .inl (by omega)
  rw [Char.ofNat, dif_pos hvalid]
  rfl

/-- The characters of a generated name. -/
theorem generatedName_eq_ofList_iff {index : Nat} {letter digit : Char} :
    generatedName index = String.ofList [letter, digit] ↔
      letter.toNat = 65 + index % 25 ∧ digit.toNat = 48 + index / 25 % 10 := by
  have hletter : (Char.ofNat ('A'.toNat + index % 25)).toNat = 65 + index % 25 :=
    toNat_ofNat_of_ascii (by show 65 + _ < 128; omega)
  have hdigit : (Char.ofNat ('0'.toNat + index / 25 % 10)).toNat = 48 + index / 25 % 10 :=
    toNat_ofNat_of_ascii (by show 48 + _ < 128; omega)
  rw [generatedName, String.ofList_inj, List.cons.injEq, List.cons.injEq, ← Char.toNat_inj,
    ← Char.toNat_inj, hletter, hdigit]
  simp [eq_comm]

/-- **Generated names repeat after 250 numbers,** and not before. -/
theorem generatedName_eq_iff {i j : Nat} :
    generatedName i = generatedName j ↔ i % 250 = j % 250 := by
  obtain ⟨hletter, hdigit⟩ := generatedName_eq_ofList_iff.1 (generatedName.eq_1 j)
  rw [generatedName.eq_1 j, generatedName_eq_ofList_iff, hletter, hdigit]
  omega

theorem lettered_generatedName (index : Nat) : Lettered (generatedName index) := by
  obtain ⟨hletter, hdigit⟩ := generatedName_eq_ofList_iff.1 (generatedName.eq_1 index)
  refine ⟨_, _, ?_, ?_, ?_, ?_, generatedName.eq_1 index⟩
  · show 65 ≤ Char.toNat _
    omega
  · show Char.toNat _ ≤ 89
    omega
  · show 48 ≤ Char.toNat _
    omega
  · show Char.toNat _ ≤ 57
    omega

/-- The lettered names are 250 generated names in a row, wherever they begin. -/
theorem lettered_iff (k : Nat) {name : String} :
    Lettered name ↔ ∃ i < 250, name = generatedName (k + i) := by
  constructor
  · rintro ⟨letter, digit, hA, hY, h0, h9, rfl⟩
    have hletter : 65 ≤ letter.toNat ∧ letter.toNat ≤ 89 := ⟨hA, hY⟩
    have hdigit : 48 ≤ digit.toNat ∧ digit.toNat ≤ 57 := ⟨h0, h9⟩
    let number := letter.toNat - 65 + 25 * (digit.toNat - 48)
    have hname : generatedName number = String.ofList [letter, digit] :=
      generatedName_eq_ofList_iff.2 (by omega)
    -- The window begins anywhere between two multiples of 250, so the number may have to wrap.
    refine ⟨(number + 250 - k % 250) % 250, Nat.mod_lt _ (by decide), ?_⟩
    rw [← hname, generatedName_eq_iff]
    omega
  · rintro ⟨i, -, rfl⟩
    exact lettered_generatedName _

theorem exists_lettered_iff (k : Nat) {P : String → Prop} :
    (∃ name, Lettered name ∧ P name) ↔ ∃ i < 250, P (generatedName (k + i)) := by
  constructor
  · rintro ⟨name, hname, hP⟩
    obtain ⟨i, hi, rfl⟩ := (lettered_iff k).1 hname
    exact ⟨i, hi, hP⟩
  · rintro ⟨i, -, hP⟩
    exact ⟨_, lettered_generatedName _, hP⟩

end Station

namespace Network

variable {R : Type} {n : Network R}

/-! ## The search for a free name -/

open Station (Lettered generatedName)

/-- The name is the first one that is free, counting from the number of created stations. -/
def FirstFree (n : Network R) (name : String) : Prop :=
  ∃ i < 250, name = generatedName (n.created + i) ∧ name ∉ n.stations.names ∧
    ∀ j < i, generatedName (n.created + j) ∈ n.stations.names

section

variable [Scalar R]

/-- A name that is not found is free. -/
theorem UpToDate.not_contains_iff (hn : n.UpToDate) {name : String} :
    (!n.stations.contains name) = true ↔ name ∉ n.stations.names := by
  rw [Bool.not_eq_true', ← Bool.not_eq_true, hn.stations.contains_iff]

/-- **What the search finds.** -/
theorem UpToDate.freeName_eq_ok_iff (hn : n.UpToDate) {name : String} :
    n.freeName = .ok name ↔ n.FirstFree name := by
  have hfound : ((List.range 250).map fun i => generatedName (n.created + i)).find?
      (fun name => !n.stations.contains name) = some name ↔ n.FirstFree name := by
    rw [List.find?_eq_some_iff_getElem, hn.not_contains_iff]
    constructor
    · rintro ⟨hfree, i, hi, rfl, htaken⟩
      rw [List.length_map, List.length_range] at hi
      refine ⟨i, hi, by simp, hfree, fun j hj => ?_⟩
      have hcontained := htaken j hj
      simp only [List.getElem_map, List.getElem_range, Bool.not_not] at hcontained
      exact hn.stations.contains_iff.1 hcontained
    · rintro ⟨i, hi, rfl, hfree, htaken⟩
      refine ⟨hfree, i, by simpa using hi, by simp, fun j hj => ?_⟩
      simpa using hn.stations.contains_iff.2 (htaken j hj)
  rw [freeName, ← hfound]
  split
  · next h => rw [h, Except.ok.injEq, Option.some.injEq]
  · next h => simp [h, fail]

/-- The search fails when all the lettered names are taken. -/
theorem UpToDate.freeName_eq_fail (hn : n.UpToDate)
    (h : ∀ name, Lettered name → name ∈ n.stations.names) :
    n.freeName = fail (.duplicateName (generatedName n.created)) := by
  rw [freeName, List.find?_eq_none.2]
  intro name hname hfree
  obtain ⟨i, -, rfl⟩ := List.mem_map.1 hname
  exact hn.not_contains_iff.1 hfree (h _ (Station.lettered_generatedName _))

end

/-- A lettered name is free if and only if there is a first one. -/
theorem exists_firstFree_iff :
    (∃ name, n.FirstFree name) ↔ ∃ name, Lettered name ∧ name ∉ n.stations.names := by
  rw [Station.exists_lettered_iff n.created]
  constructor
  · rintro ⟨name, i, hi, rfl, hfree, -⟩
    exact ⟨i, hi, hfree⟩
  · rintro ⟨i, hi, hfree⟩
    have hsome : ∃ i, generatedName (n.created + i) ∉ n.stations.names := ⟨i, hfree⟩
    refine ⟨_, Nat.find hsome, (Nat.find_le hfree).trans_lt hi, rfl, Nat.find_spec hsome, ?_⟩
    exact fun j hj => not_not.1 (Nat.find_min hsome hj)

/-! ## Stations that are added under no name -/

/-- The network with one station more. -/
def withStation (n : Network R) (s : Station R) : Network R :=
  { n with stations := n.stations.push s, created := n.created + 1, baselines := none }

section

variable [Scalar R]

theorem UpToDate.insert_of_notMem (hn : n.UpToDate) {s : Station R}
    (h : s.name ∉ n.stations.names) : (insert s).on n = (.ok s.name, n.withStation s) := by
  rw [on_insert, hn.stations.add_of_notMem h]
  rfl

theorem UpToDate.add_of_firstFree (hn : n.UpToDate) {name : String} (recording : Cube R)
    (h : n.FirstFree name) : (add "" recording).on n =
      (.ok name, n.withStation { name, index := n.created, recording }) := by
  obtain ⟨-, -, -, hfree, -⟩ := id h
  have hname : n.nameFor "" = .ok name := hn.freeName_eq_ok_iff.2 h
  rw [on_add, hname]
  exact hn.insert_of_notMem hfree

theorem UpToDate.add_of_taken (hn : n.UpToDate) (recording : Cube R)
    (h : ∀ name, Lettered name → name ∈ n.stations.names) :
    (add "" recording).on n = (fail (.duplicateName (generatedName n.created)), n) := by
  have hname : n.nameFor "" = fail (.duplicateName (generatedName n.created)) :=
    hn.freeName_eq_fail h
  rw [on_add, hname]
  rfl

/-- What comes of a station that is added under no name. -/
theorem UpToDate.add_unnamed_cases (hn : n.UpToDate) (recording : Cube R) :
    (∃ name, n.FirstFree name ∧ (add "" recording).on n =
      (.ok name, n.withStation { name, index := n.created, recording })) ∨
    (¬∃ name, n.FirstFree name) ∧
      (add "" recording).on n = (fail (.duplicateName (generatedName n.created)), n) := by
  by_cases hfirst : ∃ name, n.FirstFree name
  · obtain ⟨name, hname⟩ := hfirst
    exact .inl ⟨name, hname, hn.add_of_firstFree recording hname⟩
  · have htaken : ∀ name, Lettered name → name ∈ n.stations.names := fun name hname =>
      not_not.1 fun hfree => hfirst (exists_firstFree_iff.2 ⟨name, hname, hfree⟩)
    exact .inr ⟨hfirst, hn.add_of_taken recording htaken⟩

theorem UpToDate.isOk_add_unnamed_iff (hn : n.UpToDate) (recording : Cube R) :
    ((add "" recording).on n).1.isOk = true ↔
      ∃ name, Lettered name ∧ name ∉ n.stations.names := by
  rw [← exists_firstFree_iff]
  rcases hn.add_unnamed_cases recording with ⟨name, hname, hadd⟩ | ⟨hnone, hadd⟩
  · rw [hadd]
    exact iff_of_true rfl ⟨name, hname⟩
  · rw [hadd]
    exact iff_of_false Bool.false_ne_true hnone

/-- There is one first free name at most. -/
theorem UpToDate.firstFree_unique (hn : n.UpToDate) {name other : String} (h : n.FirstFree name)
    (h' : n.FirstFree other) : name = other :=
  Except.ok.inj ((hn.freeName_eq_ok_iff.2 h).symm.trans (hn.freeName_eq_ok_iff.2 h'))

end

section

variable [Scalar R] [Trig R] [Fourier.Spectral R]

/-- **A station without a name is named.** In every network that can be reached:

* It is added if and only if one of the 250 lettered names is free.
* The name it gets is the first free one in the cyclic order that begins at the number of created
  stations. The station goes behind the others, and the baselines are out of date.
* If no lettered name is free, the failure reports the generated name of that number, and the
  network is as before, its number of created stations and its baselines included. -/
theorem unnamed_station_named (hn : n.Reachable) (recording : Cube R) :
    let added := (Network.add "" recording).on n
    (∀ name, Lettered name ↔ ∃ i < 250, name = generatedName (n.created + i)) ∧
    (∀ i j, generatedName i = generatedName j ↔ i % 250 = j % 250) ∧
    (added.1.isOk = true ↔ ∃ name, Lettered name ∧ name ∉ n.stations.names) ∧
    (∀ name, added.1 = .ok name ↔ n.FirstFree name) ∧
    (∀ name, added.1 = .ok name →
      added.2 = n.withStation { name, index := n.created, recording }) ∧
    (added.1.isOk = false → added = (fail (.duplicateName (generatedName n.created)), n)) := by
  have hup := hn.upToDate
  intro added
  refine ⟨fun name => Station.lettered_iff _, fun i j => Station.generatedName_eq_iff, ?_⟩
  rw [← exists_firstFree_iff]
  rcases hup.add_unnamed_cases recording with ⟨first, hfirst, hadd⟩ | ⟨hnone, hadd⟩
  · rw [show added = _ from hadd]
    refine ⟨iff_of_true rfl ⟨first, hfirst⟩, fun name => ?_, fun name h => ?_, fun h => by cases h⟩
    · rw [Except.ok.injEq]
      exact ⟨fun h => h ▸ hfirst, hup.firstFree_unique hfirst⟩
    · obtain rfl := Except.ok.inj h
      rfl
  · rw [show added = _ from hadd]
    refine ⟨iff_of_false Bool.false_ne_true hnone, fun name => ?_, fun name h => ?_, fun _ => rfl⟩
    · exact iff_of_false (fun h => by cases h) fun h => hnone ⟨name, h⟩
    · cases h

/-- The name of the second station was given to the first one, so the second one gets the third
name. -/
theorem unnamed_station_named_behind_taken :
    let n : Network Binary64 := Network.empty.grow "B0"
    let recording : Cube Binary64 := Cube.ofSamples #[Scalar.one]
    n.Reachable ∧ n.created = 1 ∧ n.stations.names = ["B0"] ∧ n.FirstFree "C0" ∧
    (Network.add "" recording).on n =
      (.ok "C0", n.withStation { name := "C0", index := 1, recording }) := by
  intro n recording
  have hreachable : n.Reachable := Reachable.grow .refl (by decide) (by decide +kernel)
  have hfirst : n.FirstFree "C0" := ⟨1, by decide, by decide +kernel, by decide, by decide⟩
  obtain ⟨-, -, -, hnamed, hleft, -⟩ := unnamed_station_named hreachable recording
  have hanswer := (hnamed "C0").2 hfirst
  exact ⟨hreachable, rfl, rfl, hfirst, Prod.ext hanswer (hleft "C0" hanswer)⟩

end

/-! ## The names on the roster -/

/-- The name that a station gets when it is added. -/
def Gives (n : Network R) (asked given : String) : Prop :=
  if asked.isEmpty then n.FirstFree given else given = asked

/-- Every station has a name. -/
def AllNamed (n : Network R) : Prop := "" ∉ n.stations.names

theorem FirstFree.ne_empty {name : String} (h : n.FirstFree name) : name ≠ "" := by
  obtain ⟨i, -, rfl, -⟩ := h
  exact (Station.lettered_generatedName _).ne_empty

theorem Gives.ne_empty {asked given : String} (h : n.Gives asked given) : given ≠ "" := by
  unfold Gives at h
  split at h
  · exact h.ne_empty
  · next hasked =>
    subst h
    simpa using hasked

variable {n' : Network R} {answer : String}

/-- A change that keeps the names. -/
theorem AllNamed.of_names (h : n.AllNamed) (hnames : n'.stations.names = n.stations.names) :
    n'.AllNamed := by
  rwa [AllNamed, hnames]

/-- A station that joins under a name. -/
theorem AllNamed.of_append (h : n.AllNamed) {given : String} (hgiven : given ≠ "")
    (hnames : n'.stations.names = n.stations.names ++ [given]) : n'.AllNamed := by
  rw [AllNamed, hnames, List.mem_append, List.mem_singleton]
  exact not_or.2 ⟨h, hgiven.symm⟩

theorem not_allNamed_of_append (hnames : n'.stations.names = n.stations.names ++ [""]) :
    ¬n'.AllNamed := fun h => h (hnames ▸ List.mem_append_right _ List.mem_cons_self)

theorem names_insert {s : Station R} (h : (insert s).on n = (.ok answer, n')) :
    n'.stations.names = n.stations.names ++ [answer] := by
  obtain ⟨rfl, -, hadd⟩ := insert_eq_ok h
  rw [Roster.names, Roster.toList_add hadd, List.map_append]
  rfl

/-- A station that is made from another one goes behind the others. -/
theorem names_derive {source target : String} {make : Station R → Nat → Station R}
    (hmake : ∀ s number, (make s number).name = target)
    (h : (derive source make).on n = (.ok answer, n')) :
    n'.stations.names = n.stations.names ++ [target] := by
  obtain ⟨s, -, hinsert⟩ := exists_insert_of_derive h
  rw [names_insert hinsert, (insert_eq_ok hinsert).1, hmake]

theorem names_copy {source target : String} (h : (copy source target).on n = (.ok answer, n')) :
    n'.stations.names = n.stations.names ++ [target] :=
  names_derive (fun _ _ => rfl) h

theorem names_setReference {reference : Location R} (h : n.setReference reference = .ok n') :
    n'.stations.names = n.stations.names := by
  unfold setReference at h
  split at h
  · cases h
  · obtain rfl := Except.ok.inj h
    rfl

variable [Scalar R]

theorem names_filter [Fourier.Spectral R] {source target : String} {filter : Filter R}
    (h : (Network.filter source target filter).on n = (.ok answer, n')) :
    n'.stations.names = n.stations.names ++ [target] :=
  names_derive (fun _ _ => rfl) h

/-- A station that is added goes behind the others, under the name that was given to it. -/
theorem UpToDate.names_add (hn : n.UpToDate) {name : String} {recording : Cube R}
    (h : (add name recording).on n = (.ok answer, n')) :
    n.Gives name answer ∧ n'.stations.names = n.stations.names ++ [answer] := by
  rw [on_add] at h
  cases hname : n.nameFor name with
  | error e =>
    rw [hname] at h
    cases h
  | ok given =>
    rw [hname] at h
    obtain ⟨rfl, -, -⟩ := insert_eq_ok h
    refine ⟨?_, names_insert h⟩
    unfold nameFor at hname
    unfold Gives
    split at hname
    · next hempty =>
      rw [if_pos hempty]
      exact hn.freeName_eq_ok_iff.1 hname
    · next hasked =>
      rw [if_neg hasked]
      exact (Except.ok.inj hname).symm

theorem UpToDate.names_remove (hn : n.UpToDate) (name : String) :
    (n.remove name).stations.names = n.stations.names.filter fun other => other != name := by
  unfold remove
  split
  · exact hn.stations.names_erase name
  · next h =>
    rw [hn.stations.contains_iff] at h
    exact (List.filter_eq_self.2 fun other hother => by
      simpa using fun heq : other = name => h (heq ▸ hother)).symm

theorem UpToDate.allNamed_remove (hn : n.UpToDate) (h : n.AllNamed) (name : String) :
    (n.remove name).AllNamed := by
  rw [AllNamed, hn.names_remove]
  exact fun hmem => h (List.mem_of_mem_filter hmem)

theorem UpToDate.names_editRecording (hn : n.UpToDate) (name : String) (f : Cube R → Cube R) :
    (n.editRecording name f).stations.names = n.stations.names := by
  rw [Network.editRecording, hn.stations.modify_eq_map, Roster.names, Roster.toList_map,
    List.map_map]
  refine List.map_congr_left fun s _ => ?_
  rw [Function.comp_apply]
  split <;> rfl

theorem names_lock (n : Network R) (name : String) (stream : Cube R) :
    (n.lock name stream).1.stations.names = n.stations.names := by
  simp only [lock]
  split <;> exact n.names_settle

variable [Trig R]

theorem names_plotUnder (n : Network R) (plan : Plan R) (refusal : Option Refusal) :
    (n.plotUnder plan refusal).1.stations.names = n.stations.names := by
  obtain ⟨set, -, heq⟩ := n.exists_plotUnder_fst plan refusal
  rw [heq]
  exact n.names_settle

variable [Fourier.Spectral R]

/-- A station is copied under the empty name, filtered or not. -/
inductive CopiesUnnamed (n n' : Network R) : Prop
  | copy {answer : String} (source : String) (h : (Network.copy source "").on n = (.ok answer, n'))
  | filter {answer : String} (source : String) (filter : Filter R)
      (h : (Network.filter source "" filter).on n = (.ok answer, n'))

omit [Trig R] in
theorem CopiesUnnamed.names (h : n.CopiesUnnamed n') :
    n'.stations.names = n.stations.names ++ [""] := by
  cases h with
  | copy source h => exact names_copy h
  | filter source filter h => exact names_filter h

omit [Scalar R] [Trig R] [Fourier.Spectral R] in
/-- A copy that is refused leaves the names as they were. -/
theorem AllNamed.of_left (h : n.AllNamed) {c : Call (Network R) String} (hc : c.FailsFirst)
    (hok : ∀ answer n', c.on n = (.ok answer, n') → n'.AllNamed) : (c.on n).2.AllNamed := by
  rcases hc.cases n with ⟨answer, n', heq⟩ | ⟨e, heq⟩
  · rw [heq]
    exact hok answer n' heq
  · rw [heq]
    exact h

/-- **What a step does to the names:** only a copy leaves an empty one. -/
theorem Step.allNamed_iff (hn : n.UpToDate) (hnamed : n.AllNamed) (h : n.Step n') :
    n'.AllNamed ↔ ¬n.CopiesUnnamed n' := by
  constructor
  · exact fun hall hcopies => not_allNamed_of_append hcopies.names hall
  · intro hcopies
    cases h with
    | add name recording =>
      refine hnamed.of_left (failsFirst_add name recording) fun answer n' h => ?_
      obtain ⟨hgives, hnames⟩ := hn.names_add h
      exact hnamed.of_append hgives.ne_empty hnames
    | remove name => exact hn.allNamed_remove hnamed name
    | copy source target =>
      refine hnamed.of_left (failsFirst_derive source _) fun answer n' h => ?_
      refine hnamed.of_append ?_ (names_copy h)
      rintro rfl
      exact hcopies (h ▸ .copy source h)
    | filter source target filter =>
      refine hnamed.of_left (failsFirst_derive source _) fun answer n' h => ?_
      refine hnamed.of_append ?_ (names_filter h)
      rintro rfl
      exact hcopies (h ▸ .filter source filter h)
    | editRecording name f => exact hnamed.of_names (hn.names_editRecording name f)
    | setReference reference h => exact hnamed.of_names (names_setReference h)
    | setRelative relative => exact hnamed
    | setOrder order => exact hnamed
    | settle => exact hnamed.of_names n.names_settle
    | adjust f h => exact hnamed.of_names n.names_settle
    | rebuild => exact hnamed.of_names n.names_settle
    | lock name stream => exact hnamed.of_names (n.names_lock name stream)
    | unlock name => exact hnamed.of_names n.names_settle
    | plot plan => exact hnamed.of_names (n.names_plotUnder plan none)

end Network

end Aperture
