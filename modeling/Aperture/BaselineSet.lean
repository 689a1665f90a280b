import Aperture.Baseline
import Aperture.Call
import Aperture.Combinations
import Aperture.Extent

/-!
# Baseline sets

Every group of a given number of stations, with the image they are integrated into.

The settings of the set (target, wavelength, sample rate, correlation function) are those of every
baseline in it; each setter changes both. `update` forms the groups anew: it goes through the
combinations of the stations in lexicographic order, names each group after its members and keeps
the first one of every name.

Width and height are set one after the other, and each of them asks for a new image. An image that
does not fit into the memory is a fault, which leaves the new width or height with the old image.
-/

namespace Aperture

open Scalar

/-- The correlation groups of a network and their image. -/
structure BaselineSet (R : Type) where
  baselines : Roster (Baseline R)
  /-- Number of stations in a group. -/
  order : Nat
  width : Nat
  height : Nat
  /-- Cells of the image, row by row. -/
  image : Array R
  target : Target R
  wavelength : R
  rate : R
  correlator : Correlator R

namespace BaselineSet

variable {R : Type} [Scalar R]

/-- No baselines, with an image of the default size. -/
def empty : BaselineSet R where
  baselines := {}
  order := 0
  width := Constant.imageEdge
  height := Constant.imageEdge
  image := Array.replicate (Constant.imageEdge * Constant.imageEdge) zero
  target := .origin
  wavelength := one
  rate := one
  correlator := .product

/-! ## Settings -/

def setTarget (s : BaselineSet R) (target : Target R) : BaselineSet R :=
  { s with target, baselines := s.baselines.map fun b => { b with target } }

def setWavelength (s : BaselineSet R) (wavelength : R) : BaselineSet R :=
  { s with wavelength, baselines := s.baselines.map fun b => { b with wavelength } }

/-- Set the wavelength of an observing frequency. -/
def setFrequency (s : BaselineSet R) (frequency : R) : BaselineSet R :=
  s.setWavelength (Constant.speedOfLight / frequency)

def setRate (s : BaselineSet R) (rate : R) : BaselineSet R :=
  { s with rate, baselines := s.baselines.map fun b => { b with rate } }

def setCorrelator (s : BaselineSet R) (correlator : Correlator R) : BaselineSet R :=
  { s with correlator, baselines := s.baselines.map fun b => { b with correlator } }

/-- Give a baseline the settings of the set. -/
def adopt (s : BaselineSet R) (b : Baseline R) : Baseline R :=
  { b with
    target := s.target, wavelength := s.wavelength, rate := s.rate, correlator := s.correlator }

/-! ## Groups -/

/-- Add the group of some slots, unless its name is taken or a slot has no station. -/
def addGroup (s : BaselineSet R) (view : View R) (baselines : Roster (Baseline R))
    (members : List Nat) : Roster (Baseline R) :=
  match Baseline.ofMembers? members view with
  | none => baselines
  | some b =>
    match baselines.add (s.adopt b) with
    | .ok longer => longer
    | .error _ => baselines

/-- Form all groups of `order` stations anew, unlocked. -/
def update (s : BaselineSet R) (view : View R) (order : Nat) : BaselineSet R :=
  let slots := view.stations.enumerate.map Prod.fst
  let groups := (combinations slots.length order).map fun c => c.filterMap fun i => slots[i]?
  { s with order, baselines := groups.foldl (s.addGroup view) {} }

/-- The set of all groups of `order` stations. -/
def build (view : View R) (order : Nat) : BaselineSet R := empty.update view order

/-! ## Locks -/

/-- Give a baseline a correlated stream of its own. -/
def lock (s : BaselineSet R) (name : String) (stream : Cube R) : Result (BaselineSet R) :=
  if s.baselines.contains name then
    .ok { s with baselines := s.baselines.modify name fun b => { b with locked := some stream } }
  else fail (.baselineNotFound name)

/-- Let a baseline correlate its members again. A name without baseline changes nothing. -/
def unlock (s : BaselineSet R) (name : String) : BaselineSet R :=
  { s with baselines := s.baselines.modify name fun b => { b with locked := none } }

/-! ## Image -/

/-- Clear the image. When there is no room for a new one, the old one stays. -/
def resetImage : Call (BaselineSet R) Unit := do
  let s ← get
  let image ← Extent.zeros s.width s.height
  modify fun s => { s with image }

/-- Set the width of the image and clear it. -/
def setWidth (width : Nat) : Call (BaselineSet R) Unit := do
  modify fun s => { s with width }
  resetImage

/-- Set the height of the image and clear it. -/
def setHeight (height : Nat) : Call (BaselineSet R) Unit := do
  modify fun s => { s with height }
  resetImage

/-- Replace the image by one of the same size. -/
def setImage (s : BaselineSet R) (image : Array R) : Result (BaselineSet R) := do
  let size ← Extent.cells s.width s.height
  if image.size = size then .ok { s with image }
  else fail (.sizeMismatch [s.width, s.height] [image.size])

/-- The image as a cube with the settings of the set. -/
def imageCube (s : BaselineSet R) : Result (Cube R) := do
  let _ ← Extent.cells s.width s.height
  let cube ← Cube.withShape s.image [s.width, s.height]
  .ok { cube with target := s.target, wavelength := s.wavelength, rate := s.rate }

/-- The set with an image of zeros. -/
def cleared (s : BaselineSet R) : BaselineSet R :=
  { s with image := Array.replicate (s.width * s.height) zero }

/-- The image is cleared, or it does not fit and stays. -/
theorem on_resetImage (s : BaselineSet R) :
    (resetImage : Call (BaselineSet R) Unit).on s =
      if Extent.Fits s.width s.height then (.ok (), s.cleared) else (abort .overflow, s) := by
  simp only [resetImage, Call.on_bind, Call.on_get, Call.on_result, Call.on_modify]
  by_cases h : Extent.Fits s.width s.height
  · rw [if_pos h, Extent.zeros_of_fits h]
    rfl
  · rw [if_neg h, Extent.zeros_of_not_fits h]
    rfl

/-- The new width stays, also when there is no room for an image of this width. -/
theorem on_setWidth (width : Nat) (s : BaselineSet R) :
    (setWidth width : Call (BaselineSet R) Unit).on s =
      if Extent.Fits width s.height then (.ok (), { s with width }.cleared)
      else (abort .overflow, { s with width }) := by
  simp only [setWidth, Call.on_bind, Call.on_modify]
  exact on_resetImage { s with width }

theorem on_setHeight (height : Nat) (s : BaselineSet R) :
    (setHeight height : Call (BaselineSet R) Unit).on s =
      if Extent.Fits s.width height then (.ok (), { s with height }.cleared)
      else (abort .overflow, { s with height }) := by
  simp only [setHeight, Call.on_bind, Call.on_modify]
  exact on_resetImage { s with height }

/-- An image of the right size makes a cube, if its size can be counted. -/
theorem exists_imageCube {s : BaselineSet R} (hfits : Extent.Fits s.width s.height)
    (h : s.image.size = s.width * s.height) :
    ∃ cube, s.imageCube = .ok cube ∧ cube.samples = s.image ∧ cube.shape = [s.width, s.height] ∧
      cube.target = s.target ∧ cube.wavelength = s.wavelength ∧ cube.rate = s.rate := by
  have hvolume : s.image.size = Grid.volume [s.width, s.height] := by
    rw [h]
    simp
  have hcube : Cube.withShape s.image [s.width, s.height] =
      .ok (Cube.ofShape s.image _ hvolume) := dif_pos hvolume
  refine ⟨{ Cube.ofShape s.image _ hvolume with
    target := s.target, wavelength := s.wavelength, rate := s.rate }, ?_, rfl, rfl, rfl, rfl, rfl⟩
  simp only [imageCube, bind, Except.bind, Extent.cells_of_fits hfits, hcube]

end BaselineSet

end Aperture
