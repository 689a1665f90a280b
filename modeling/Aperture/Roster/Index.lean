/-!
# Name indices

A **name index** says which slot belongs to a name. A name belongs to at most one slot, so that
`insert` points a name that is there already to its new slot.

`find?_erase` and `find?_insert` say what a change does to the look-up, and `find?_eq_some_iff` ties
the look-up to the entries.
-/

namespace Aperture

/-- The slots of some names, no name coming twice. -/
structure NameIndex where
  entries : List (String × Nat) := []
  nodup : (entries.map Prod.fst).Nodup := by exact List.nodup_nil

namespace NameIndex

/-- The slot of a name. -/
def find? (index : NameIndex) (name : String) : Option Nat :=
  (index.entries.find? fun e => e.1 == name).map Prod.snd

/-- Number of names. -/
def size (index : NameIndex) : Nat := index.entries.length

/-- Drop a name. A name that is not there changes nothing. -/
def erase (index : NameIndex) (name : String) : NameIndex where
  entries := index.entries.filter fun e => e.1 != name
  nodup := (List.filter_sublist.map Prod.fst).nodup index.nodup

theorem mem_erase {index : NameIndex} {name : String} {e : String × Nat} :
    e ∈ (index.erase name).entries ↔ e ∈ index.entries ∧ e.1 ≠ name := by
  simp [erase]

/-- Point a name to a slot. -/
def insert (index : NameIndex) (name : String) (slot : Nat) : NameIndex where
  entries := (name, slot) :: (index.erase name).entries
  nodup := by
    refine List.nodup_cons.2 ⟨fun hmem => ?_, (index.erase name).nodup⟩
    obtain ⟨e, he, hname⟩ := List.mem_map.1 hmem
    exact (mem_erase.1 he).2 hname

theorem mem_insert {index : NameIndex} {name : String} {slot : Nat} {e : String × Nat} :
    e ∈ (index.insert name slot).entries ↔
      e = (name, slot) ∨ e ∈ index.entries ∧ e.1 ≠ name := by
  rw [insert, List.mem_cons, mem_erase]

theorem find?_eq_some_iff {index : NameIndex} {name : String} {slot : Nat} :
    index.find? name = some slot ↔ (name, slot) ∈ index.entries := by
  obtain ⟨entries, hnodup⟩ := index
  simp only [find?]
  induction entries with
  | nil => simp
  | cons e entries ih =>
    obtain ⟨hfresh, hrest⟩ := List.nodup_cons.1 hnodup
    by_cases h : e.1 = name
    · have habsent : (name, slot) ∉ entries := fun hmem => hfresh (h ▸ List.mem_map_of_mem hmem)
      simp [h, habsent, Prod.ext_iff, eq_comm]
    · have hne : (name, slot) ≠ e := fun heq => h (heq ▸ rfl)
      simp [h, hne, ih hrest]

theorem find?_erase (index : NameIndex) (gone name : String) :
    (index.erase gone).find? name = if name = gone then none else index.find? name := by
  apply Option.ext
  intro slot
  rw [find?_eq_some_iff, mem_erase, ← find?_eq_some_iff]
  by_cases h : name = gone <;> simp [h]

theorem find?_insert (index : NameIndex) (added name : String) (slot : Nat) :
    (index.insert added slot).find? name =
      if name = added then some slot else index.find? name := by
  apply Option.ext
  intro i
  rw [find?_eq_some_iff, mem_insert, ← find?_eq_some_iff]
  by_cases h : name = added
  · simp [h, eq_comm]
  · simp [h]

end NameIndex

end Aperture
