import Aperture.Failure
import Aperture.Roster.Index

/-!
# Rosters

A **roster** holds items in the order in which they were added and finds them by name.

An item sits in a **slot**. Taking it off leaves its slot vacant, so that the slots of the other
items do not move while somebody refers to them; `compact` drops the vacant slots. An item whose
name is already on the roster is refused.

Names are looked up in an index beside the slots, and every change keeps the two in step. The
contents are `toList`, the items in slot order.
-/

namespace Aperture

/-- Items that are known by a name. -/
class Named (α : Type) where
  name : α → String

/-- Items in slots, found by name. -/
structure Roster (α : Type) where
  slots : List (Option α) := []
  /-- The slot of every item. -/
  index : NameIndex := {}

namespace Roster

variable {α : Type}

/-! ## Contents -/

/-- The items, in slot order. -/
def toList (r : Roster α) : List α := r.slots.filterMap id

def size (r : Roster α) : Nat := r.index.size

def isEmpty (r : Roster α) : Bool := r.size == 0

/-- Number of slots that were left vacant. -/
def vacancies (r : Roster α) : Nat := r.slots.length - r.size

/-- Item number `i` of the contents. -/
def at? (r : Roster α) (i : Nat) : Option α := r.toList[i]?

/-- The item in a slot, `none` for a vacant slot and outside the slots. -/
def atSlot? (r : Roster α) (slot : Nat) : Option α := r.slots[slot]?.join

/-- Items with the number of their slot. -/
def enumerate (r : Roster α) : List (Nat × α) :=
  r.slots.zipIdx.filterMap fun s => s.1.map fun item => (s.2, item)

/-- Change every item. The change has to keep the names. -/
def map {β : Type} (r : Roster α) (f : α → β) : Roster β := ⟨r.slots.map (Option.map f), r.index⟩

@[simp] theorem toList_empty : toList ({} : Roster α) = [] := rfl

@[simp] theorem toList_map {β : Type} (r : Roster α) (f : α → β) :
    (r.map f).toList = r.toList.map f := by
  simp only [map, toList, List.filterMap_map, List.map_filterMap]
  congr 1

@[simp] theorem size_map {β : Type} (r : Roster α) (f : α → β) : (r.map f).size = r.size := rfl

@[simp] theorem vacancies_map {β : Type} (r : Roster α) (f : α → β) :
    (r.map f).vacancies = r.vacancies := by
  simp [vacancies, map, size]

/-! ## Names -/

variable [Named α]

/-- The slot of a name. -/
def slotOf? (r : Roster α) (name : String) : Option Nat := r.index.find? name

def find? (r : Roster α) (name : String) : Option α := (r.slotOf? name).bind r.atSlot?

/-- Whether an item has a name. -/
def contains (r : Roster α) (name : String) : Bool := (r.slotOf? name).isSome

/-- The number of a name in the contents. -/
def position? (r : Roster α) (name : String) : Option Nat :=
  r.toList.findIdx? fun item => Named.name item == name

def names (r : Roster α) : List String := r.toList.map Named.name

/-! ## Changes -/

/-- The slot that the next item is added in. -/
def nextSlot (r : Roster α) : Nat := r.slots.length

/-- Put an item in a new slot at the end. -/
def push (r : Roster α) (item : α) : Roster α :=
  ⟨r.slots ++ [some item], r.index.insert (Named.name item) r.nextSlot⟩

/-- Add an item at the end, unless its name is taken. -/
def add (r : Roster α) (item : α) : Result (Roster α) :=
  if r.contains (Named.name item) then fail (.duplicateName (Named.name item))
  else .ok (r.push item)

/-- Take the item of a name off the roster and hand it out. A name that is not on it changes
nothing. -/
def take (r : Roster α) (name : String) : Option α × Roster α :=
  match r.slotOf? name with
  | some slot => (r.atSlot? slot, ⟨r.slots.set slot none, r.index.erase name⟩)
  | none => (none, r)

/-- Take the item of a name off the roster. -/
def erase (r : Roster α) (name : String) : Roster α := (r.take name).2

/-- Change the item of a name. The change has to keep the name. -/
def modify (r : Roster α) (name : String) (f : α → α) : Roster α :=
  match r.slotOf? name with
  | some slot => { r with slots := r.slots.modify slot (Option.map f) }
  | none => r

/-- The items of a list, one after the other in the first slots. -/
def ofList (items : List α) : Roster α := items.foldl push {}

/-- Drop the vacant slots. -/
def compact (r : Roster α) : Roster α := if r.vacancies = 0 then r else ofList r.toList

/-! ## The contents after a change -/

@[simp] theorem toList_push (r : Roster α) (item : α) :
    (r.push item).toList = r.toList ++ [item] := by
  simp [push, toList]

theorem toList_add {r s : Roster α} {item : α} (h : r.add item = .ok s) :
    s.toList = r.toList ++ [item] := by
  unfold add at h
  split at h
  · simp [fail] at h
  · obtain rfl := Except.ok.inj h
    exact toList_push r item

theorem toList_foldl_push (items : List α) (r : Roster α) :
    (items.foldl push r).toList = r.toList ++ items := by
  induction items generalizing r with
  | nil => simp
  | cons item items ih => simp [ih]

@[simp] theorem toList_ofList (items : List α) : (ofList items).toList = items :=
  toList_foldl_push items {}

@[simp] theorem toList_compact (r : Roster α) : r.compact.toList = r.toList := by
  unfold compact
  split
  · rfl
  · exact toList_ofList _

@[simp] theorem names_compact (r : Roster α) : r.compact.names = r.names := by
  simp [names]

theorem add_eq_error_iff {r : Roster α} {item : α} {e : Failure} :
    r.add item = .error e ↔
      e = .error (.duplicateName (Named.name item)) ∧ r.contains (Named.name item) = true := by
  unfold add fail
  split
  · next h => simp [h, eq_comm]
  · next h => simp [h]

end Roster

end Aperture
