/-!
# Worker slots

A bounded number of workers runs at once. A worker takes a slot before it begins and gives it back
when it ends, in whatever way it ends.
-/

namespace Aperture

/-- Slots that are free, and how many there are in all. -/
structure Slots where
  free : Nat
  ceiling : Nat
deriving DecidableEq, Repr

namespace Slots

/-- The number of workers a request for `n` allows: at least one. -/
def atLeastOne (n : Nat) : Nat := max n 1

/-- All slots free. -/
def new (ceiling : Nat) : Slots := ⟨atLeastOne ceiling, atLeastOne ceiling⟩

/-- Take a slot, `none` when there is none to take. -/
def take? (s : Slots) : Option Slots :=
  if s.free = 0 then none else some { s with free := s.free - 1 }

/-- Give a slot back. There is never room for more slots than were there at first. -/
def release (s : Slots) : Slots := { s with free := min (s.free + 1) s.ceiling }

theorem release_of_take? {s t : Slots} (bounded : s.free ≤ s.ceiling) (h : s.take? = some t) :
    t.release = s := by
  unfold take? at h
  split at h
  · simp at h
  · obtain rfl := Option.some.inj h
    obtain ⟨free, ceiling⟩ := s
    simp only [release, mk.injEq, and_true] at *
    omega

end Slots

end Aperture
