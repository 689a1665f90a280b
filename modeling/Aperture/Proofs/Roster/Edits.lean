import Aperture.Binary64
import Aperture.Proofs.Roster.Indexed
import Aperture.Station

/-!
# Rosters under a sequence of edits

An **edit** adds an item, takes one off, changes items in place without touching their names,
closes up the vacant slots, or clears the roster. To somebody who does not look at the slots a
roster is a list of items with different names, and every edit does something simple to that list
(`Edit.onList`).

**Theorem (`edits_refine_list`).** After any edits of an empty roster, the roster shows the list
that the edits made of the empty list, whichever way it is looked at (`Shows`): through the slots,
through the index, or as a whole. Another edit then succeeds, fails and answers as it would on the
list, and an item that is not taken off stays in its slot until the vacant slots are closed up.

The proof carries `Indexed` along the edits. Everything that is shown follows from it.
-/

namespace Aperture.Roster

variable {α : Type} [Named α]

/-! ## Edits -/

/-- A change of an item that keeps its name. A change that keeps the names of certain items agrees
on them with one that keeps all names. Since the items of a roster have different names, a change of
them all may treat each in its own way. -/
structure Touch (α : Type) [Named α] where
  on : α → α
  name_on : ∀ a, Named.name (on a) = Named.name a

inductive Edit (α : Type) [Named α]
  | add (item : α)
  | take (name : String)
  | change (name : String) (touch : Touch α)
  | changeAll (touch : Touch α)
  | compact
  | clear

namespace Edit

/-- An edit of a roster. An item that is refused leaves the roster as it is. -/
def apply (r : Roster α) : Edit α → Roster α
  | add item =>
    match r.add item with
    | .ok s => s
    | .error _ => r
  | take name => (r.take name).2
  | change name touch => r.modify name touch.on
  | changeAll touch => r.map touch.on
  | compact => r.compact
  | clear => {}

/-- The same edit of a list of items. -/
def onList (items : List α) : Edit α → List α
  | add item => if Named.name item ∈ items.map Named.name then items else items ++ [item]
  | take name => items.filter fun a => Named.name a != name
  | change name touch => items.map fun a => if Named.name a = name then touch.on a else a
  | changeAll touch => items.map touch.on
  | compact => items
  | clear => []

/-- The edit neither takes the item of the name off nor renumbers the slots. -/
def Spares (name : String) : Edit α → Prop
  | add _ | change _ _ | changeAll _ => True
  | take gone => gone ≠ name
  | compact | clear => False

end Edit

/-! ## Single edits -/

theorem indexed_apply {r : Roster α} (hr : r.Indexed) (e : Edit α) : (e.apply r).Indexed := by
  cases e with
  | add item =>
    by_cases h : Named.name item ∈ r.names
    · simpa only [Edit.apply, hr.add_of_mem h, fail] using hr
    · simpa only [Edit.apply, hr.add_of_notMem h] using hr.push h
  | take name => exact hr.erase name
  | change name touch => exact hr.modify fun a _ h => (touch.name_on a).trans h
  | changeAll touch => exact hr.map fun a _ => touch.name_on a
  | compact => exact hr.compact
  | clear => exact indexed_empty

theorem toList_apply {r : Roster α} (hr : r.Indexed) (e : Edit α) :
    (e.apply r).toList = e.onList r.toList := by
  cases e with
  | add item =>
    by_cases h : Named.name item ∈ r.names
    · simp only [Edit.apply, hr.add_of_mem h, fail]
      exact (if_pos h).symm
    · simp only [Edit.apply, hr.add_of_notMem h, toList_push]
      exact (if_neg h).symm
  | take name => exact hr.toList_erase name
  | change name touch =>
    rw [Edit.apply, hr.modify_eq_map, toList_map]
    rfl
  | changeAll touch => exact toList_map r touch.on
  | compact => exact toList_compact r
  | clear => rfl

theorem slotOf?_apply {r : Roster α} (hr : r.Indexed) {e : Edit α} {name : String} {slot : Nat}
    (he : e.Spares name) (h : r.slotOf? name = some slot) :
    (e.apply r).slotOf? name = some slot := by
  cases e with
  | add item =>
    by_cases hitem : Named.name item ∈ r.names
    · simpa only [Edit.apply, hr.add_of_mem hitem, fail] using h
    · have hother : name ≠ Named.name item := by
        rintro rfl
        rw [hr.slotOf?_eq_none_iff.2 hitem] at h
        cases h
      simp only [Edit.apply, hr.add_of_notMem hitem]
      rwa [slotOf?_push, if_neg hother]
  | take gone =>
    have hgone : name ≠ gone := Ne.symm he
    simp only [Edit.apply, take]
    split
    · rwa [slotOf?_vacate, if_neg hgone]
    · exact h
  | change changed touch =>
    rw [Edit.apply, hr.modify_eq_map]
    exact h
  | changeAll touch => exact h
  | compact => exact he.elim
  | clear => exact he.elim

/-! ## Runs -/

theorem indexed_foldl {r : Roster α} (hr : r.Indexed) (edits : List (Edit α)) :
    (edits.foldl Edit.apply r).Indexed := by
  induction edits generalizing r with
  | nil => exact hr
  | cons e edits ih => exact ih (indexed_apply hr e)

theorem toList_foldl {r : Roster α} (hr : r.Indexed) (edits : List (Edit α)) :
    (edits.foldl Edit.apply r).toList = edits.foldl Edit.onList r.toList := by
  induction edits generalizing r with
  | nil => rfl
  | cons e edits ih =>
    rw [List.foldl_cons, List.foldl_cons, ih (indexed_apply hr e), toList_apply hr]

theorem slotOf?_foldl {r : Roster α} (hr : r.Indexed) {edits : List (Edit α)} {name : String}
    {slot : Nat} (hedits : ∀ e ∈ edits, e.Spares name) (h : r.slotOf? name = some slot) :
    (edits.foldl Edit.apply r).slotOf? name = some slot := by
  induction edits generalizing r with
  | nil => exact h
  | cons e edits ih =>
    obtain ⟨he, hrest⟩ := List.forall_mem_cons.1 hedits
    exact ih (indexed_apply hr e) hrest (slotOf?_apply hr he h)

/-! ## What a roster shows -/

/-- Every look at the roster agrees with a list of items. -/
structure Shows (r : Roster α) (items : List α) : Prop where
  toList : r.toList = items
  names : r.names = items.map Named.name
  nodup_names : r.names.Nodup
  size : r.size = items.length
  isEmpty : r.isEmpty = items.isEmpty
  at? : ∀ i, r.at? i = items[i]?
  position? : ∀ name i, r.position? name = some i ↔ items[i]?.map Named.name = some name
  find? : ∀ name a, r.find? name = some a ↔ a ∈ items ∧ Named.name a = name
  contains : ∀ name, r.contains name = true ↔ ∃ a ∈ items, Named.name a = name
  /-- The slots come in the order of the items. -/
  enumerate : r.enumerate.map Prod.snd = items ∧ (r.enumerate.map Prod.fst).Pairwise (· < ·)
  atSlot? : ∀ slot a, r.atSlot? slot = some a ↔ (slot, a) ∈ r.enumerate
  slotOf? : ∀ name slot,
    r.slotOf? name = some slot ↔ ∃ a, (slot, a) ∈ r.enumerate ∧ Named.name a = name
  /-- The index holds the names of the items and no others. -/
  index : r.index.entries.Perm (r.enumerate.map fun s => (Named.name s.2, s.1))
  /-- There are no more names than slots, and the other slots are the vacant ones. -/
  vacancies : r.size + r.vacancies = r.slots.length ∧
    r.vacancies = r.slots.countP Option.isNone

theorem Indexed.position?_eq_some_iff {r : Roster α} (hr : r.Indexed) {name : String} {i : Nat} :
    r.position? name = some i ↔ r.toList[i]?.map Named.name = some name := by
  rw [position?, List.findIdx?_eq_some_iff_getElem]
  constructor
  · rintro ⟨hi, hname, -⟩
    simpa [hi] using hname
  · intro h
    obtain ⟨a, ha, hname⟩ := Option.map_eq_some_iff.1 h
    obtain ⟨hi, rfl⟩ := List.getElem?_eq_some_iff.1 ha
    refine ⟨hi, by simpa using hname, fun j hj heq => ?_⟩
    have hlt : j < r.names.length := by
      rw [Roster.names, List.length_map]
      exact Nat.lt_trans hj hi
    have hnames : r.names[j]? = r.names[i]? := by
      rw [Roster.names, List.getElem?_map, List.getElem?_map, h,
        List.getElem?_eq_getElem (Nat.lt_trans hj hi), Option.map_some, eq_of_beq heq]
    exact absurd ((List.getElem?_inj hlt hr.nodup_names).1 hnames) (Nat.ne_of_lt hj)

theorem Indexed.shows {r : Roster α} (hr : r.Indexed) : r.Shows r.toList where
  toList := rfl
  names := rfl
  nodup_names := hr.nodup_names
  size := hr.size_eq
  isEmpty := by
    rw [Roster.isEmpty, hr.size_eq]
    cases r.toList <;> rfl
  at? _ := rfl
  position? _ _ := hr.position?_eq_some_iff
  find? _ _ := hr.find?_eq_some_iff
  contains _ := hr.contains_iff.trans List.mem_map
  enumerate := ⟨map_snd_enumerate r, pairwise_enumerate r⟩
  atSlot? _ _ := mem_enumerate.symm
  slotOf? name slot := by
    rw [hr name slot, Option.map_eq_some_iff]
    simp only [mem_enumerate]
  index := hr.entries_perm
  vacancies := by
    have hlength := r.length_toList_add_countP
    rw [hr.vacancies_eq, hr.size_eq]
    exact ⟨hlength, rfl⟩

/-- Closing the vacant slots up leaves one slot for every item. -/
theorem Indexed.slots_compact {r : Roster α} (hr : r.Indexed) :
    r.compact.slots = r.toList.map some := by
  have hfull := hr.compact.vacancies_eq
  rw [hr.vacancies_compact, eq_comm, List.countP_eq_zero] at hfull
  rw [← toList_compact, Roster.toList, List.map_filterMap]
  symm
  calc r.compact.slots.filterMap (fun slot => (id slot).map some)
      = r.compact.slots.filterMap some := by
        refine List.filterMap_congr fun slot hslot => ?_
        cases slot with
        | none => exact absurd rfl (hfull _ hslot)
        | some a => rfl
    _ = r.compact.slots := List.filterMap_some

/-! ## The refinement -/

/-- **Rosters refine lists of items with different names.** After any edits of an empty roster, and
with the list that the same edits make of the empty list:

* every look at the roster shows the list;
* an item is refused exactly when its name is on the list, and is put at the end otherwise;
* taking a name off hands out its item and deletes this item only, and does nothing without one;
* closing the vacant slots up leaves the list alone, and no slot vacant;
* a name that further edits spare stays in its slot. -/
theorem edits_refine_list (edits : List (Edit α)) :
    let r := edits.foldl Edit.apply ({} : Roster α)
    let items := edits.foldl Edit.onList []
    r.Shows items ∧
    (∀ item, Named.name item ∈ items.map Named.name →
      r.add item = fail (.duplicateName (Named.name item))) ∧
    (∀ item, Named.name item ∉ items.map Named.name → ∃ s, r.add item = .ok s ∧
      s.Shows (items ++ [item]) ∧ s.slotOf? (Named.name item) = some r.slots.length) ∧
    (∀ name, (∀ a, (r.take name).1 = some a ↔ a ∈ items ∧ Named.name a = name) ∧
      (r.take name).2.Shows (items.filter fun a => Named.name a != name)) ∧
    (∀ name, name ∉ items.map Named.name → r.take name = (none, r)) ∧
    (r.compact.Shows items ∧ r.compact.vacancies = 0 ∧ r.compact.slots = items.map some) ∧
    (∀ name slot (more : List (Edit α)), r.slotOf? name = some slot →
      (∀ e ∈ more, e.Spares name) → (more.foldl Edit.apply r).slotOf? name = some slot) := by
  intro r items
  have hr : r.Indexed := indexed_foldl indexed_empty edits
  have hitems : r.toList = items := toList_foldl indexed_empty edits
  rw [← hitems]
  refine ⟨hr.shows, fun item => hr.add_of_mem, fun item hfree => ?_, fun name => ?_,
    fun name => hr.take_of_notMem, ⟨?_, hr.vacancies_compact, hr.slots_compact⟩,
    fun name slot more hslot hmore => slotOf?_foldl hr hmore hslot⟩
  · refine ⟨r.push item, hr.add_of_notMem hfree, ?_, ?_⟩
    · rw [← toList_push]
      exact (hr.push hfree).shows
    · rw [slotOf?_push, if_pos rfl, nextSlot]
  · refine ⟨fun a => ?_, ?_⟩
    · rw [fst_take, hr.find?_eq_some_iff]
    · rw [← hr.toList_erase]
      exact (hr.erase name).shows
  · have hshows := hr.compact.shows
    rwa [toList_compact] at hshows

/-- Stations `a` to `d`, where `b` is taken off and comes back behind `d` in a slot of its own. -/
def Edit.comeback : List (Edit (Station Binary64)) :=
  let station (name : String) : Station Binary64 :=
    { name, index := 0, recording := Cube.ofSamples #[Scalar.one] }
  [add (station "a"), add (station "b"), add (station "c"), take "b", add (station "d"),
    add (station "b"), add (station "a")]

theorem edits_refine_list_comeback :
    let r := Edit.comeback.foldl Edit.apply {}
    r.names = ["a", "c", "d", "b"] ∧ r.slotOf? "b" = some 4 ∧ r.vacancies = 1 ∧
    r.Shows (Edit.comeback.foldl Edit.onList []) ∧
    (∀ a, Named.name a = "b" → r.add a = fail (.duplicateName "b")) ∧
    (([.take "a", .take "x"] : List (Edit (Station Binary64))).foldl Edit.apply r).slotOf? "b" =
      some 4 := by
  obtain ⟨hshows, hrefused, -, -, -, -, hslot⟩ := edits_refine_list Edit.comeback
  have hb : (Edit.comeback.foldl Edit.apply {}).slotOf? "b" = some 4 := by decide +kernel
  have hlisted : "b" ∈ (Edit.comeback.foldl Edit.onList []).map Named.name := by decide +kernel
  refine ⟨by decide +kernel, hb, by decide +kernel, hshows, fun a ha => ?_, ?_⟩
  · have hadd := hrefused a (ha ▸ hlisted)
    rwa [ha] at hadd
  · exact hslot "b" 4 [.take "a", .take "x"] hb (by simp [Edit.Spares])

end Aperture.Roster
