import Aperture.Cube
import Aperture.Fourier.Filter
import Aperture.Roster

/-!
# Stations

A station of the array: its name, the number it got when it was created, and its recording. Copies
and filtered copies are new stations with a name and a number of their own.
-/

namespace Aperture

/-- A station and its recording. -/
structure Station (R : Type) where
  name : String
  /-- How many stations were created before. -/
  index : Nat
  recording : Cube R
  /-- Magnitudes of the spectrum, empty until it is computed. -/
  magnitudes : Array R := #[]
  /-- Phases of the spectrum, empty until it is computed. -/
  phases : Array R := #[]

instance {R : Type} : Named (Station R) := ⟨Station.name⟩

/-- Whether positions are Earth-fixed or taken relative to the reference of the array. -/
inductive Frame where
  | geographic
  | relative
deriving DecidableEq, Repr

namespace Station

/-- The name of a station that was given none: a letter from `A` to `Y` and a digit. The names
repeat after 250 stations. -/
def generatedName (index : Nat) : String :=
  String.ofList [Char.ofNat ('A'.toNat + index % 25), Char.ofNat ('0'.toNat + index / 25 % 10)]

example : [0, 1, 24, 25, 251].map generatedName = ["A0", "B0", "Y0", "A1", "B0"] := by
  decide +kernel

variable {R : Type} [Scalar R] [Trig R]

/-- Position in a frame. -/
def position (s : Station R) (frame : Frame) (reference : Location R) : Vec3 R :=
  let absolute := s.recording.location.position reference
  match frame with
  | .geographic => absolute
  | .relative => absolute - reference.position reference

/-- Latitude and longitude the station is pointed with. -/
def latitudeLongitude (s : Station R) (reference : Location R) : R × R :=
  s.recording.location.latitudeLongitude reference

variable [Fourier.Spectral R]

/-- The station with the spectrum of its recording. -/
def withSpectrum (s : Station R) : Result (Station R) := do
  let (magnitudes, phases) ← Fourier.dftPolar s.recording.samples s.recording.shape
  .ok { s with magnitudes, phases }

/-- A copy under another name and number. -/
def duplicate (s : Station R) (name : String) (index : Nat) : Station R := { s with name, index }

/-- A station with the filtered recording. It has no spectrum yet. -/
def filtered (s : Station R) (name : String) (index : Nat) (filter : Filter R) : Station R :=
  { name, index
    recording := s.recording.replace (filter.apply s.recording.samples s.recording.rate)
      (by simp) }

end Station

end Aperture
