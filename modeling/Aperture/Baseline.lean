import Aperture.Geometry.Group
import Aperture.Geometry.Projection
import Aperture.Geometry.Uv
import Aperture.Network.View
import Aperture.Text.Quoted

/-!
# Baselines

A **baseline** is a group of stations whose samples are correlated together. It refers to its
members by their slots and looks at them through a view.

* Its UV point at a time is the projection of the reduced vector of the members. With a *fixed*
  pointing the projection follows the target across the sky; with a *moving* one it uses the
  direction that the first member was pointed in.
* Its value at a time is the fold of one sample of every member, each taken when the wavefront
  passed that member. A **locked** baseline has a correlated stream of its own instead.
-/

namespace Aperture

open Scalar

/-- The function that correlates two samples. It may give up. -/
abbrev Correlator (R : Type) := R → R → Result R

namespace Correlator

variable {R : Type} [Scalar R]

/-- The product of the samples. -/
def product : Correlator R := fun a b => .ok (a * b)

/-- Always one, so that an image shows which cells were visited. -/
def coverage : Correlator R := fun _ _ => .ok one

end Correlator

/-- A group of stations that is correlated together. -/
structure Baseline (R : Type) where
  name : String
  /-- Slots of the members. -/
  members : List Nat
  /-- Correlated stream that replaces the members. -/
  locked : Option (Cube R)
  target : Target R
  wavelength : R
  rate : R
  correlator : Correlator R
  /-- Reduced vector at the last projection. -/
  vector : Vec3 R
  /-- UV point of the last projection. -/
  uv : Uv R
  /-- Direction of every member, empty for a fixed pointing. -/
  pointing : List (Horizontal R)

instance {R : Type} : Named (Baseline R) := ⟨Baseline.name⟩

namespace Baseline

variable {R : Type} [Scalar R]

/-- The group of the stations in some slots, named after them, `none` when a slot has no station. -/
def ofMembers? (members : List Nat) (view : View R) : Option (Baseline R) := do
  let stations ← members.mapM view.station?
  some {
    name := String.intercalate "_" (stations.map Station.name)
    members
    locked := none
    target := .origin
    wavelength := one
    rate := one
    correlator := .product
    vector := .zero
    uv := .zero
    pointing := [] }

/-- The members that are there. -/
def stations (b : Baseline R) (view : View R) : List (Station R) :=
  b.members.filterMap view.station?

/-! ## Time -/

/-- The span that every member covers, in seconds since J2000; for a locked baseline the span of its
stream. `none` when the recordings do not overlap. -/
def window (b : Baseline R) (view : View R) : Option (R × R) := do
  let (first, rest) ← match b.locked with
    | some stream => some (stream, [])
    | none => match b.members.mapM view.station? with
      | some (s :: stations) => some (s.recording, stations.map Station.recording)
      | _ => none
  let start := rest.foldl (fun t c => greatest t c.startSeconds) first.startSeconds
  let stop := rest.foldl (fun t c => least t c.endSeconds) first.endSeconds
  if isFinite start && isFinite stop && lt start stop then some (start, stop) else none

/-! ## Geometry -/

variable [Trig R]

def positions (b : Baseline R) (view : View R) : List (Vec3 R) :=
  b.members.filterMap view.position?

/-- Point every member at the target for a time. -/
def pointAt (b : Baseline R) (t : R) (view : View R) : Baseline R :=
  { b with
    pointing := (b.stations view).map fun s =>
      let (latitude, longitude) := s.latitudeLongitude view.reference
      Horizontal.ofEquatorial t b.target.rightAscension b.target.declination latitude longitude }

/-- Go back to the fixed pointing. -/
def unpoint (b : Baseline R) : Baseline R := { b with pointing := [] }

/-- Projection of a displacement at a time: at the first member with its direction when it is
pointed, and otherwise from Greenwich with the elevation at the first member. -/
def project (b : Baseline R) (v : Vec3 R) (t : R) (view : View R) : Vec3 R :=
  let place := (b.members.head?.bind view.station?).map fun s =>
    s.latitudeLongitude view.reference
  match b.pointing.head?, place with
  | some direction, some (latitude, longitude) =>
    Projection.horizontal (Earth.toLocal v latitude longitude) direction
  | _, _ =>
    let ra := b.target.rightAscension
    let dec := b.target.declination
    let altitude := match place with
      | some (latitude, longitude) =>
        (Horizontal.ofEquatorial t ra dec latitude longitude).altitude
      | none => ofNat 90
    Projection.equatorial v (hourAngle (localSiderealTime t zero) ra) dec altitude

/-- The UV point at a time. -/
def uvAt (b : Baseline R) (t : R) (view : View R) : Uv R :=
  Uv.ofProjection (b.project (Group.vector (b.positions view)) t view) b.wavelength

/-- The baseline after its reduced vector was computed. -/
def measure (b : Baseline R) (view : View R) : Baseline R :=
  { b with vector := Group.vector (b.positions view) }

/-- The baseline after a projection at a time. -/
def observe (b : Baseline R) (t : R) (view : View R) : Baseline R :=
  { b.measure view with uv := b.uvAt t view }

/-! ## Correlation -/

/-- When every member recorded the wavefront that reaches the delay reference at a time. With
`synced` the recordings are aligned and this is the time itself. -/
def sampleTimes (b : Baseline R) (t : R) (view : View R) (synced : Bool) : List R :=
  if synced then b.members.map fun _ => t
  else
    let reference := view.delayCenter
    b.members.map fun slot =>
      match view.position? slot with
      | some p => t - (b.project (p - reference) t view).z / Constant.speedOfLight
      | none => t

/-- Fold samples from the left, starting with `value`. A missing sample makes the result zero. -/
def foldSamples (f : Correlator R) : R → List (Option R) → Result R
  | value, [] => .ok value
  | _, none :: _ => .ok zero
  | value, some sample :: rest => do
    let value ← f value sample
    foldSamples f value rest

/-- The correlated value at a time, the members being sampled at `times`. A missing sample makes it
zero. -/
def correlate (b : Baseline R) (t : R) (times : List R) (view : View R) : Result R :=
  match b.locked with
  | some stream => .ok ((stream.sampleAt t).getD zero)
  | none =>
    let samples := (b.members.zip times).map fun m =>
      (view.station? m.1).bind fun s => s.recording.sampleAt m.2
    match samples with
    | some first :: rest => foldSamples b.correlator first rest
    | _ => .ok zero

/-! ## Summaries -/

/-- What a listing shows of a baseline. -/
structure Summary (R : Type) where
  name : String
  stations : List String
  locked : Bool
  rate : R
  wavelength : R
  uv : Uv R

def summary (b : Baseline R) (view : View R) : Summary R where
  name := b.name
  stations := (b.stations view).map Station.name
  locked := b.locked.isSome
  rate := b.rate
  wavelength := b.wavelength
  uv := b.uv

def literal [Legible R] (b : Baseline R) : String :=
  "Baseline \x7b name: " ++ Text.quoted b.name ++
    ", members: [" ++ String.intercalate ", " (b.members.map toString) ++
    "], locked: " ++ toString b.locked.isSome ++
    ", target: " ++ b.target.literal ++
    ", wavelength: " ++ Legible.literal b.wavelength ++
    ", sample_rate: " ++ Legible.literal b.rate ++
    ", uv: UvCoordinate \x7b u: " ++ Legible.literal b.uv.u ++
    ", v: " ++ Legible.literal b.uv.v ++
    ", delay: " ++ Legible.literal b.uv.delay ++ " \x7d \x7d"

end Baseline

end Aperture
