import Aperture.Roster
import Mathlib.Data.List.Nodup

/-!
# Rosters whose index is in step

**The invariant** (`Roster.Indexed`). The index points a name to a slot exactly when the slot holds
an item of this name.

Every change of a roster keeps it, as long as a change in place keeps the names. It gives what is
said of the contents: the names are different, the index counts the items, looking a name up finds
the item of this name, and taking or changing the item of a name does to the slots what a search of
the slots would do.
-/

namespace Aperture.Roster

variable {α β : Type}

/-! ## Slots -/

theorem mem_enumerate {r : Roster α} {i : Nat} {a : α} :
    (i, a) ∈ r.enumerate ↔ r.atSlot? i = some a := by
  simp only [enumerate, atSlot?, List.mem_filterMap, Option.join_eq_some_iff]
  constructor
  · rintro ⟨⟨slot, j⟩, hmem, hitem⟩
    obtain ⟨item, rfl, hpair⟩ := Option.map_eq_some_iff.1 hitem
    obtain ⟨rfl, rfl⟩ := Prod.mk.inj hpair
    exact List.mem_zipIdx_iff_getElem?.1 hmem
  · intro h
    exact ⟨(some a, i), List.mem_zipIdx_iff_getElem?.2 h, rfl⟩

theorem map_snd_enumerate (r : Roster α) : r.enumerate.map Prod.snd = r.toList := by
  have hslots : r.slots = r.slots.zipIdx.map Prod.fst := (List.zipIdx_map_fst 0 r.slots).symm
  rw [enumerate, toList, List.map_filterMap]
  conv_rhs => rw [hslots, List.filterMap_map]
  refine List.filterMap_congr fun s _ => ?_
  cases h : s.1 <;> simp [h]

theorem mem_toList {r : Roster α} {a : α} : a ∈ r.toList ↔ ∃ slot, r.atSlot? slot = some a := by
  simp [← map_snd_enumerate, mem_enumerate]

/-- The slots come in increasing order. -/
theorem pairwise_enumerate (r : Roster α) : (r.enumerate.map Prod.fst).Pairwise (· < ·) := by
  have hfst : r.enumerate.map Prod.fst =
      (r.slots.zipIdx.filter fun s => s.1.isSome).map Prod.snd := by
    rw [enumerate, List.map_filterMap, ← List.filterMap_eq_map, List.filterMap_filter]
    refine List.filterMap_congr fun s _ => ?_
    cases s.1 <;> simp
  have hsub := (List.filter_sublist (p := fun s => s.1.isSome) (l := r.slots.zipIdx)).map Prod.snd
  rw [List.zipIdx_map_snd, ← List.range_eq_range'] at hsub
  rw [hfst]
  exact List.pairwise_lt_range.sublist hsub

theorem nodup_enumerate (r : Roster α) : r.enumerate.Nodup :=
  .of_map Prod.fst (r.pairwise_enumerate.imp Nat.ne_of_lt)

theorem atSlot?_map (r : Roster α) (f : α → β) (slot : Nat) :
    (r.map f).atSlot? slot = (r.atSlot? slot).map f := by
  simp only [atSlot?, map, List.getElem?_map]
  cases r.slots[slot]? <;> simp

theorem find?_map (r : Roster α) (f : α → β) (name : String) :
    (r.map f).find? name = (r.find? name).map f := by
  have hslot : (r.map f).slotOf? name = r.slotOf? name := rfl
  rw [find?, hslot, find?]
  cases r.slotOf? name with
  | none => rfl
  | some slot => exact r.atSlot?_map f slot

theorem enumerate_map (r : Roster α) (f : α → β) :
    (r.map f).enumerate = r.enumerate.map fun s => (s.1, f s.2) := by
  simp only [enumerate, map, List.zipIdx_map, List.filterMap_map, List.map_filterMap]
  refine List.filterMap_congr fun s _ => ?_
  cases h : s.1 <;> simp [h]

theorem map_id (r : Roster α) : r.map id = r := by
  simp [map]

theorem map_map {γ : Type} (r : Roster α) (f : α → β) (g : β → γ) :
    (r.map f).map g = r.map (g ∘ f) := by
  simp [map]

/-- Only the items are mapped. -/
theorem map_congr {r : Roster α} {f g : α → β} (h : ∀ a ∈ r.toList, f a = g a) :
    r.map f = r.map g := by
  have hslots : r.slots.map (Option.map f) = r.slots.map (Option.map g) := by
    refine List.map_congr_left fun slot hslot => ?_
    cases slot with
    | none => rfl
    | some a => exact congrArg some (h a (List.mem_filterMap.2 ⟨some a, hslot, rfl⟩))
  rw [map, map, hslots]

/-- Items and vacant slots make up the slots. -/
theorem length_toList_add_countP (r : Roster α) :
    r.toList.length + r.slots.countP Option.isNone = r.slots.length := by
  obtain ⟨slots, index⟩ := r
  simp only [toList]
  induction slots with
  | nil => rfl
  | cons slot slots ih =>
    cases slot with
    | none => simpa [← Nat.add_assoc] using ih
    | some a => simp [Nat.add_right_comm, ← ih]

theorem atSlot?_vacate (r : Roster α) (index : NameIndex) (gone slot : Nat) :
    (⟨r.slots.set gone none, index⟩ : Roster α).atSlot? slot =
      if slot = gone then none else r.atSlot? slot := by
  simp only [atSlot?, List.getElem?_set]
  by_cases h : slot = gone
  · subst h
    by_cases hlt : slot < r.slots.length <;> simp [hlt]
  · simp [h, Ne.symm h]

theorem atSlot?_change (r : Roster α) (f : α → α) (changed slot : Nat) :
    ({ r with slots := r.slots.modify changed (Option.map f) } : Roster α).atSlot? slot =
      if changed = slot then (r.atSlot? slot).map f else r.atSlot? slot := by
  simp only [atSlot?, List.getElem?_modify]
  split <;> cases r.slots[slot]? <;> simp

theorem slotOf?_vacate (r : Roster α) (slots : List (Option α)) (gone name : String) :
    (⟨slots, r.index.erase gone⟩ : Roster α).slotOf? name =
      if name = gone then none else r.slotOf? name :=
  NameIndex.find?_erase ..

theorem fst_take (r : Roster α) (name : String) : (r.take name).1 = r.find? name := by
  rw [take, find?]
  cases r.slotOf? name <;> rfl

variable [Named α]

theorem atSlot?_push (r : Roster α) (item : α) (slot : Nat) :
    (r.push item).atSlot? slot = if slot = r.nextSlot then some item else r.atSlot? slot := by
  rcases Nat.lt_trichotomy slot r.nextSlot with h | h | h
  · have hbefore : (r.slots ++ [some item])[slot]? = r.slots[slot]? := List.getElem?_append_left h
    rw [if_neg (Nat.ne_of_lt h), atSlot?, push, hbefore, atSlot?]
  · rw [if_pos h, h]
    simp [atSlot?, push, nextSlot]
  · have hpast : (r.slots ++ [some item])[slot]? = none :=
      List.getElem?_eq_none (by rw [List.length_append]; exact h)
    rw [if_neg (Nat.ne_of_gt h), atSlot?, push, hpast, atSlot?,
      List.getElem?_eq_none (Nat.le_of_lt h)]

theorem slots_foldl_push (items : List α) (r : Roster α) :
    (items.foldl push r).slots = r.slots ++ items.map some := by
  induction items generalizing r with
  | nil => simp
  | cons item items ih => simp [ih, push]

theorem slotOf?_push (r : Roster α) (item : α) (name : String) :
    (r.push item).slotOf? name =
      if name = Named.name item then some r.nextSlot else r.slotOf? name :=
  NameIndex.find?_insert ..

theorem contains_of_add {r s : Roster α} {item : α} (h : r.add item = .ok s) :
    s.contains (Named.name item) = true := by
  unfold add at h
  split at h
  · cases h
  · obtain rfl := Except.ok.inj h
    rw [contains, slotOf?_push, if_pos rfl]
    rfl

/-! ## The invariant -/

/-- The index points every name to the slot of its item, and nowhere else. -/
def Indexed (r : Roster α) : Prop :=
  ∀ name slot, r.slotOf? name = some slot ↔ (r.atSlot? slot).map Named.name = some name

theorem indexed_empty : ({} : Roster α).Indexed := by
  intro name slot
  simp [slotOf?, NameIndex.find?, atSlot?]

namespace Indexed

variable {r : Roster α}

theorem contains_iff (hr : r.Indexed) {name : String} :
    r.contains name = true ↔ name ∈ r.names := by
  rw [contains, Option.isSome_iff_exists, names, List.mem_map]
  constructor
  · rintro ⟨slot, hslot⟩
    obtain ⟨a, ha, hname⟩ := Option.map_eq_some_iff.1 ((hr name slot).1 hslot)
    exact ⟨a, mem_toList.2 ⟨slot, ha⟩, hname⟩
  · rintro ⟨a, ha, hname⟩
    obtain ⟨slot, hslot⟩ := mem_toList.1 ha
    exact ⟨slot, (hr name slot).2 (by simp [hslot, hname])⟩

theorem slotOf?_eq_none_iff (hr : r.Indexed) {name : String} :
    r.slotOf? name = none ↔ name ∉ r.names := by
  rw [← hr.contains_iff, contains, Option.not_isSome_iff_eq_none]

theorem add_of_mem (hr : r.Indexed) {item : α} (h : Named.name item ∈ r.names) :
    r.add item = fail (.duplicateName (Named.name item)) :=
  add_eq_error_iff.2 ⟨rfl, hr.contains_iff.2 h⟩

theorem add_of_notMem (hr : r.Indexed) {item : α} (h : Named.name item ∉ r.names) :
    r.add item = .ok (r.push item) :=
  if_neg fun hmem => h (hr.contains_iff.1 hmem)

theorem take_of_notMem (hr : r.Indexed) {name : String} (h : name ∉ r.names) :
    r.take name = (none, r) := by
  rw [take, hr.slotOf?_eq_none_iff.2 h]

/-- Items of one name are in one slot. -/
theorem slot_unique (hr : r.Indexed) {i j : Nat} {a b : α} (ha : r.atSlot? i = some a)
    (hb : r.atSlot? j = some b) (h : Named.name a = Named.name b) : i = j := by
  have hi := (hr (Named.name a) i).2 (by rw [ha]; rfl)
  have hj := (hr (Named.name a) j).2 (by rw [hb, h]; rfl)
  exact Option.some.inj (hi.symm.trans hj)

theorem nodup_names (hr : r.Indexed) : r.names.Nodup := by
  rw [names, ← map_snd_enumerate, List.map_map]
  refine r.nodup_enumerate.map_on fun s hs t ht h => ?_
  have hslot := hr.slot_unique (mem_enumerate.1 hs) (mem_enumerate.1 ht) h
  have hitem := (mem_enumerate.1 hs).symm.trans (hslot ▸ mem_enumerate.1 ht)
  exact Prod.ext hslot (Option.some.inj hitem)

/-- The entries of the index are the items with their slots. -/
theorem entries_perm (hr : r.Indexed) :
    r.index.entries.Perm (r.enumerate.map fun s => (Named.name s.2, s.1)) := by
  have hlabels : (r.enumerate.map fun s => (Named.name s.2, s.1)).Nodup :=
    r.nodup_enumerate.map_on fun s hs t ht h => by
      obtain ⟨hname, hslot⟩ := Prod.mk.inj h
      have hitem := (mem_enumerate.1 hs).symm.trans (hslot ▸ mem_enumerate.1 ht)
      exact Prod.ext hslot (Option.some.inj hitem)
  rw [List.perm_ext_iff_of_nodup (.of_map Prod.fst r.index.nodup) hlabels]
  intro ⟨name, slot⟩
  rw [← NameIndex.find?_eq_some_iff]
  refine (hr name slot).trans ?_
  simp only [Option.map_eq_some_iff, List.mem_map, Prod.mk.injEq]
  constructor
  · rintro ⟨a, ha, hname⟩
    exact ⟨(slot, a), mem_enumerate.2 ha, hname, rfl⟩
  · rintro ⟨s, hs, hname, rfl⟩
    exact ⟨s.2, mem_enumerate.1 hs, hname⟩

theorem size_eq (hr : r.Indexed) : r.size = r.toList.length := by
  rw [← map_snd_enumerate, List.length_map]
  exact hr.entries_perm.length_eq.trans (List.length_map _)

theorem vacancies_eq (hr : r.Indexed) : r.vacancies = r.slots.countP Option.isNone := by
  have hlength := r.length_toList_add_countP
  rw [vacancies, hr.size_eq]
  omega

theorem find?_eq_some_iff (hr : r.Indexed) {name : String} {a : α} :
    r.find? name = some a ↔ a ∈ r.toList ∧ Named.name a = name := by
  rw [Roster.find?, Option.bind_eq_some_iff]
  constructor
  · rintro ⟨slot, hslot, ha⟩
    have hname := (hr name slot).1 hslot
    rw [ha] at hname
    exact ⟨mem_toList.2 ⟨slot, ha⟩, Option.some.inj hname⟩
  · rintro ⟨hmem, hname⟩
    obtain ⟨slot, ha⟩ := mem_toList.1 hmem
    exact ⟨slot, (hr name slot).2 (by rw [ha, Option.map_some, hname]), ha⟩

/-- An item is found where a search for its name finds it. -/
theorem find?_eq (hr : r.Indexed) (name : String) :
    r.find? name = r.toList.find? fun a => Named.name a == name := by
  apply Option.ext
  intro a
  rw [hr.find?_eq_some_iff]
  constructor
  · rintro ⟨hmem, hname⟩
    have hfound : (r.toList.find? fun b => Named.name b == name).isSome := by
      rw [List.find?_isSome]
      exact ⟨a, hmem, by simpa using hname⟩
    obtain ⟨b, hb⟩ := Option.isSome_iff_exists.1 hfound
    have hsame : Named.name b = Named.name a := by
      rw [hname]
      simpa using List.find?_some hb
    rw [hb, List.inj_on_of_nodup_map hr.nodup_names (List.mem_of_find?_eq_some hb) hmem hsame]
  · intro h
    exact ⟨List.mem_of_find?_eq_some h, by simpa using List.find?_some h⟩

/-! ## What keeps it -/

theorem push (hr : r.Indexed) {item : α} (hfree : Named.name item ∉ r.names) :
    (r.push item).Indexed := by
  intro name slot
  have hpast : r.atSlot? r.nextSlot = none := by simp [atSlot?, nextSlot]
  have hold := hr name slot
  rw [atSlot?_push, slotOf?_push]
  by_cases hname : name = Named.name item
  · subst hname
    have habsent : ¬(r.atSlot? slot).map Named.name = some (Named.name item) := by
      simp [← hold, hr.slotOf?_eq_none_iff.2 hfree]
    by_cases hslot : slot = r.nextSlot
    · simp [hslot]
    · simp [hslot, Ne.symm hslot, habsent]
  · by_cases hslot : slot = r.nextSlot
    · subst hslot
      simpa [hname, hpast, Ne.symm hname] using hold
    · simpa [hname, hslot] using hold

theorem add {s : Roster α} {item : α} (hr : r.Indexed) (h : r.add item = .ok s) : s.Indexed := by
  unfold Roster.add at h
  split at h
  · cases h
  · next hfree =>
    obtain rfl := Except.ok.inj h
    exact hr.push fun hmem => hfree (hr.contains_iff.2 hmem)

theorem erase (hr : r.Indexed) (gone : String) : (r.erase gone).Indexed := by
  rw [Roster.erase, take]
  cases hgone : r.slotOf? gone with
  | none => exact hr
  | some i =>
    intro name slot
    have hold := hr name slot
    have hitem := (hr gone i).1 hgone
    rw [atSlot?_vacate, slotOf?_vacate]
    by_cases hname : name = gone
    · subst hname
      by_cases hslot : slot = i
      · simp [hslot]
      · have helse : ¬(r.atSlot? slot).map Named.name = some name := by
          rw [← hold, hgone]
          exact fun h => hslot (Option.some.inj h).symm
        simp [hslot, helse]
    · by_cases hslot : slot = i
      · subst hslot
        rw [hitem] at hold
        simpa [hname, Ne.symm hname] using hold
      · simpa [hname, hslot] using hold

theorem map [Named β] (hr : r.Indexed) {f : α → β}
    (h : ∀ a ∈ r.toList, Named.name (f a) = Named.name a) : (r.map f).Indexed := by
  intro name slot
  rw [atSlot?_map, Option.map_map]
  refine (hr name slot).trans ?_
  cases hslot : r.atSlot? slot with
  | none => simp
  | some a => simp [h a (mem_toList.2 ⟨slot, hslot⟩)]

theorem modify (hr : r.Indexed) {name : String} {f : α → α}
    (h : ∀ a ∈ r.toList, Named.name a = name → Named.name (f a) = name) :
    (r.modify name f).Indexed := by
  rw [Roster.modify]
  cases hslot : r.slotOf? name with
  | none => exact hr
  | some i =>
    obtain ⟨a, ha, hname⟩ := Option.map_eq_some_iff.1 ((hr name i).1 hslot)
    intro other slot
    refine (hr other slot).trans ?_
    rw [atSlot?_change]
    by_cases hi : i = slot
    · subst hi
      simp [ha, hname, h a (mem_toList.2 ⟨i, ha⟩) hname]
    · simp [hi]

theorem foldl_push (hr : r.Indexed) {items : List α} (h : (r.names ++ items.map Named.name).Nodup) :
    (items.foldl Roster.push r).Indexed := by
  induction items generalizing r with
  | nil => exact hr
  | cons item items ih =>
    obtain ⟨-, -, hapart⟩ := List.nodup_append.1 h
    have hfree : Named.name item ∉ r.names := fun hmem =>
      hapart _ hmem _ (List.mem_map_of_mem List.mem_cons_self) rfl
    refine ih (hr.push hfree) ?_
    rwa [names, toList_push, List.map_append, List.append_assoc]

theorem compact (hr : r.Indexed) : r.compact.Indexed := by
  unfold Roster.compact
  split
  · exact hr
  · exact indexed_empty.foldl_push hr.nodup_names

/-! ## What a change does to the slots -/

/-- The index knows which items have a name. -/
theorem name_eq_iff (hr : r.Indexed) {a : α} {slot : Nat} (h : r.slots[slot]? = some (some a))
    (name : String) : Named.name a = name ↔ r.slotOf? name = some slot := by
  rw [hr name slot]
  simp [atSlot?, h]

/-- Taking an item off vacates the slots that a search for its name finds. -/
theorem slots_erase (hr : r.Indexed) (name : String) :
    (r.erase name).slots = r.slots.map (Option.filter fun a => Named.name a != name) := by
  refine List.ext_getElem? fun slot => ?_
  have hiff {a : α} (h : r.slots[slot]? = some (some a)) := hr.name_eq_iff h name
  rw [List.getElem?_map, Roster.erase, take]
  cases hslot : r.slotOf? name with
  | none =>
    rcases h : r.slots[slot]? with _ | _ | a
    · rfl
    · rfl
    · simp [Option.filter_some, hiff h, hslot]
  | some i =>
    rw [List.getElem?_set]
    rcases h : r.slots[slot]? with _ | _ | a
    · have hpast := List.getElem?_eq_none_iff.1 h
      by_cases hi : i = slot <;> simp [hi, hpast]
    · obtain ⟨hlt, -⟩ := List.getElem?_eq_some_iff.1 h
      by_cases hi : i = slot <;> simp [hi, hlt]
    · obtain ⟨hlt, -⟩ := List.getElem?_eq_some_iff.1 h
      by_cases hi : i = slot <;> simp [Option.filter_some, hiff h, hslot, hi, hlt]

theorem toList_erase (hr : r.Indexed) (name : String) :
    (r.erase name).toList = r.toList.filter fun a => Named.name a != name := by
  rw [toList, hr.slots_erase, toList, List.filterMap_map, List.filter_filterMap]
  rfl

/-- The name that is taken off is the only one that is gone. -/
theorem names_erase (hr : r.Indexed) (gone : String) :
    (r.erase gone).names = r.names.filter fun name => name != gone := by
  rw [names, hr.toList_erase, names, List.filter_map]
  rfl

/-- Changing the item of a name changes the items that a search for the name finds. -/
theorem modify_eq_map (hr : r.Indexed) (name : String) (f : α → α) :
    r.modify name f = r.map fun a => if Named.name a = name then f a else a := by
  have hslots : (r.modify name f).slots =
      r.slots.map (Option.map fun a => if Named.name a = name then f a else a) := by
    refine List.ext_getElem? fun slot => ?_
    have hiff {a : α} (h : r.slots[slot]? = some (some a)) := hr.name_eq_iff h name
    rw [List.getElem?_map, Roster.modify]
    cases hslot : r.slotOf? name with
    | none =>
      rcases h : r.slots[slot]? with _ | _ | a
      · rfl
      · rfl
      · simp [hiff h, hslot]
    | some i =>
      rw [List.getElem?_modify]
      rcases h : r.slots[slot]? with _ | _ | a
      · simp
      · by_cases hi : i = slot <;> simp [hi]
      · by_cases hi : i = slot <;> simp [hiff h, hslot, hi]
  have hindex : (r.modify name f).index = r.index := by
    rw [Roster.modify]
    split <;> rfl
  rw [Roster.map, ← hslots, ← hindex]

/-- The items of other names are found as before. -/
theorem find?_modify_of_ne (hr : r.Indexed) {changed name : String} {f : α → α}
    (hf : ∀ a, Named.name a = changed → Named.name (f a) = changed) (hne : name ≠ changed) :
    (r.modify changed f).find? name = r.find? name := by
  apply Option.ext
  intro a
  rw [(hr.modify fun a _ => hf a).find?_eq_some_iff, hr.find?_eq_some_iff, hr.modify_eq_map,
    toList_map, List.mem_map]
  constructor
  · rintro ⟨⟨b, hb, rfl⟩, hname⟩
    split at hname
    · next hchanged => exact absurd (hname.symm.trans (hf b hchanged)) hne
    · next hother => rw [if_neg hother]; exact ⟨hb, hname⟩
  · rintro ⟨hmem, rfl⟩
    exact ⟨⟨a, hmem, if_neg hne⟩, rfl⟩

/-- A change in place is found under the name that was changed. -/
theorem find?_modify (hr : r.Indexed) (changed : String) {f : α → α}
    (hf : ∀ a, Named.name a = changed → Named.name (f a) = changed) (name : String) :
    (r.modify changed f).find? name =
      if name = changed then (r.find? name).map f else r.find? name := by
  split
  · next h =>
    subst h
    rw [hr.modify_eq_map, find?_map]
    cases hfound : r.find? name with
    | none => rfl
    | some a => rw [Option.map_some, if_pos (hr.find?_eq_some_iff.1 hfound).2, Option.map_some]
  · next h => exact hr.find?_modify_of_ne hf h

/-- An item that is added is found by its name, and the others are found as before. -/
theorem find?_push (hr : r.Indexed) {item : α} (hfree : Named.name item ∉ r.names)
    (name : String) :
    (r.push item).find? name = if name = Named.name item then some item else r.find? name := by
  rw [(hr.push hfree).find?_eq, toList_push, List.find?_append, ← hr.find?_eq]
  split
  · next h =>
    have hnone : r.find? name = none := by
      rw [Roster.find?, h, hr.slotOf?_eq_none_iff.2 hfree, Option.bind_none]
    rw [hnone, h]
    simp
  · next h => simp [Ne.symm h]

theorem vacancies_compact (hr : r.Indexed) : r.compact.vacancies = 0 := by
  have hcompact := hr.compact
  unfold Roster.compact at hcompact ⊢
  split
  · assumption
  · next hvacant =>
    rw [if_neg hvacant] at hcompact
    rw [hcompact.vacancies_eq, ofList, slots_foldl_push]
    simp [List.countP_map]

end Indexed

end Aperture.Roster
