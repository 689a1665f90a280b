/-!
# Strides

The walk of one baseline along its track through the image.

A **track** gives for each of its steps the cell that is visited, or none outside the image. The
walk writes a value whenever it enters a cell that is not the last one written. An **exhaustive**
walk looks at every step. An **adaptive** one supposes that a new cell is as long as the one before:

* after a write it leaps to where the new cell should end;
* when the cell it lands on is not the one it wrote, it goes back to the step behind the write and
  walks on one step at a time;
* it never leaps past the last step, and it forgets the length of a cell once it left the image.

The position is kept as the first step that is not settled yet (`base`) and how far the walk is
ahead of it (`ahead`), so going back is `ahead := 0`. Each turn of the walk either settles steps or
drops `ahead` to zero, which is why it ends.

On a **limited** track, cells have room for so many values, and a walk panics that writes into a
full cell.
-/

namespace Aperture

/-- A value written into a cell. -/
structure Write (R : Type) where
  step : Nat
  cell : Nat
  value : R

/-- What a walk finds along its way. -/
structure Track (R : Type) where
  /-- Number of steps. -/
  total : Nat
  adaptive : Bool
  /-- The cell visited at a step. -/
  cell : Nat → Option Nat
  /-- The value at a step, `none` when it cannot be computed. -/
  value : Nat → Option R
  /-- The answer of the interrupt flag when it is asked for the `n`-th time. -/
  interrupted : Nat → Bool

/-- Why a walk ended before its last step. -/
inductive Halt where
  | interrupted
  /-- A value could not be computed. -/
  | panicked
deriving DecidableEq, Repr

/-- How far a walk has come. -/
structure Walk (R : Type) where
  /-- First step that is not settled. -/
  base : Nat := 0
  /-- Steps skipped on trust since then. -/
  ahead : Nat := 0
  /-- Step of the last write, unless the track left the image since. -/
  lastWrite : Option Nat := none
  /-- Cell of the last write. -/
  lastCell : Option Nat := none
  /-- How many steps were looked at, those walked back from included. -/
  steps : Nat := 0
  /-- The step looked at last. -/
  latest : Option Nat := none
  /-- The writes, the last one first. -/
  writes : List (Write R) := []
  halt : Option Halt := none

namespace Walk

variable {R : Type}

/-- The step to look at. -/
def position (w : Walk R) : Nat := w.base + w.ahead

/-- The walk after looking at its position. -/
def look (w : Walk R) : Walk R := { w with steps := w.steps + 1, latest := some w.position }

/-- Settle the steps up to the position and go on `next` steps further, at least one and not past
the last step. -/
def advance (t : Track R) (w : Walk R) (next : Nat) : Walk R :=
  { w with
    base := w.position + 1
    ahead := max 1 (min next (t.total - 1 - w.position)) - 1 }

/-- Where the cell entered now should end, counted from here: one step before it is as long as the
distance from the last write. -/
def guess (t : Track R) (w : Walk R) : Nat :=
  match t.adaptive, w.lastWrite with
  | true, some previous => max 1 (w.position - previous - 1)
  | _, _ => 1

/-- Write into the cell at the position. -/
def write (t : Track R) (w : Walk R) (cell : Nat) : Walk R :=
  match t.value w.position with
  | none => { w with halt := some .panicked }
  | some value =>
    { advance t w (guess t w) with
      lastWrite := some w.position
      lastCell := some cell
      writes := ⟨w.position, cell, value⟩ :: w.writes }

/-- Settle the position, whose cell is known, and go on. -/
def accept (t : Track R) (w : Walk R) (found : Option Nat) : Walk R :=
  match found with
  | none => { advance t w 1 with lastWrite := none }
  | some cell => if w.lastCell = some cell then advance t w 1 else write t w cell

/-- Go back when a leap landed on another cell than the one it started from. -/
def react (t : Track R) (w : Walk R) (found : Option Nat) : Walk R :=
  if 0 < w.ahead ∧ found ≠ w.lastCell then { w.look with ahead := 0 } else accept t w.look found

/-- One turn of the walk, `none` when it has ended. -/
def next? (t : Track R) (w : Walk R) : Option (Walk R) :=
  if w.halt.isSome ∨ t.total ≤ w.position then none
  else if t.interrupted w.steps then some { w with halt := some .interrupted }
  else some (react t w (t.cell w.position))

/-- What is left to do: nothing after a halt, and else the steps that are not settled. -/
def remaining (t : Track R) (w : Walk R) : Nat :=
  if w.halt.isSome then 0 else t.total - w.base + 1

theorem remaining_accept_lt {t : Track R} {w : Walk R} (found : Option Nat)
    (alive : w.halt = none) (h : w.position < t.total) :
    (accept t w found).remaining t < w.remaining t := by
  have advanced (next : Nat) : t.total - (advance t w next).base + 1 < t.total - w.base + 1 := by
    simp only [advance, position] at *
    omega
  simp only [accept, write]
  split
  · simpa [remaining, alive, advance] using advanced 1
  · split
    · simpa [remaining, alive, advance] using advanced 1
    · split
      · simp [remaining, alive]
      · simpa [remaining, alive, advance] using advanced (guess t w)

theorem next?_decreases {t : Track R} {w w' : Walk R} (h : next? t w = some w') :
    Prod.Lex (· < ·) (· < ·) (w'.remaining t, w'.ahead) (w.remaining t, w.ahead) := by
  unfold next? at h
  split at h
  · simp at h
  · next going =>
    have alive : w.halt = none := by
      cases halted : w.halt <;> simp_all
    have inside : w.position < t.total := by
      simp only [not_or, Nat.not_le] at going
      exact going.2
    split at h
    · obtain rfl := Option.some.inj h
      exact Prod.Lex.left _ _ (by simp [remaining, alive])
    · obtain rfl := Option.some.inj h
      unfold react
      split
      · next back =>
        have same : Walk.remaining t { w.look with ahead := 0 } = w.remaining t := rfl
        rw [same]
        exact Prod.Lex.right _ back.1
      · have same : w.look.remaining t = w.remaining t := rfl
        rw [← same]
        exact Prod.Lex.left _ _ (remaining_accept_lt _ alive inside)

/-- Walk to the end. -/
def run (t : Track R) (w : Walk R) : Walk R :=
  match _h : next? t w with
  | none => w
  | some w' => run t w'
termination_by (w.remaining t, w.ahead)
decreasing_by exact next?_decreases _h

/-- The whole walk along a track. -/
def along (t : Track R) : Walk R := run t {}

def isInterrupted (w : Walk R) : Bool := w.halt == some .interrupted

def isPanicked (w : Walk R) : Bool := w.halt == some .panicked

/-- How many values were written into a cell. -/
def taken (w : Walk R) (cell : Nat) : Nat := w.writes.countP fun e => e.cell == cell

end Walk

namespace Track

variable {R : Type}

/-- The same track under a flag that is never set. -/
def quiet (t : Track R) : Track R := { t with interrupted := fun _ => false }

/-- How many values a walk that is not interrupted has written into a cell before a step. -/
def takenBefore (t : Track R) (cell k : Nat) : Nat :=
  (Walk.along t.quiet).writes.countP fun e => e.cell == cell && decide (e.step < k)

/-- Whether the cell of a step has room for the value of the step. No cell has taken more values
than there were steps before. -/
def hasRoom (t : Track R) (room k : Nat) : Bool :=
  k < room || (t.cell k).all fun cell => t.takenBefore cell k < room

/-- The same track, when a cell has room for so many values and no more. -/
def limited (t : Track R) (room : Option Nat) : Track R :=
  { t with value := fun k => if room.all fun n => t.hasRoom n k then t.value k else none }

end Track

end Aperture
