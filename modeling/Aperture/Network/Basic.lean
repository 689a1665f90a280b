import Aperture.BaselineSet
import Aperture.Call

/-!
# Networks

The stations of one observation, with the reference location of the array, the frame and the number
of stations that are correlated together.

The baselines are formed when they are first asked for (`settle`) and kept until the stations or
the order change. Forming them compacts the roster first; as long as they are kept no slot moves, so
their members stay the stations they were formed from.
-/

namespace Aperture

/-- The stations of an observation. -/
structure Network (R : Type) where
  stations : Roster (Station R)
  reference : Location R
  frame : Frame
  /-- Number of stations in a group, as it was asked for. -/
  requestedOrder : Nat
  /-- How many stations were ever added. -/
  created : Nat
  /-- The baselines, while they are up to date. -/
  baselines : Option (BaselineSet R)

namespace Network

variable {R : Type} [Scalar R]

/-- No stations. -/
def empty : Network R where
  stations := {}
  reference := .origin
  frame := .geographic
  requestedOrder := Constant.leastOrder
  created := 0
  baselines := none

/-- What baselines see of the network. -/
def view (n : Network R) : View R := ⟨n.stations, n.reference, n.frame⟩

/-- Number of stations in a group: as asked for, but not more than there are and at least two. -/
def order (n : Network R) : Nat := max (min n.requestedOrder n.stations.size) Constant.leastOrder

/-! ## Stations -/

/-- The first generated name that is free, counting from the number of created stations. -/
def freeName (n : Network R) : Result String :=
  let names := (List.range 250).map fun i => Station.generatedName (n.created + i)
  match names.find? fun name => !n.stations.contains name with
  | some name => .ok name
  | none => fail (.duplicateName (Station.generatedName n.created))

/-- The name that a station gets: the one that is asked for, or a generated one. -/
def nameFor (n : Network R) (name : String) : Result String :=
  if name.isEmpty then n.freeName else .ok name

/-- Carry out a call on the stations. -/
def onStations {α : Type} (call : Call (Roster (Station R)) α) : Call (Network R) α :=
  call.within Network.stations fun n stations => { n with stations }

/-- Put a station on the roster. The baselines are out of date afterwards. -/
def insert (s : Station R) : Call (Network R) String := do
  onStations (.update fun stations => stations.add s)
  modify fun n => { n with created := n.created + 1 }
  modify fun n => { n with baselines := none }
  return s.name

/-- The station of a name, or the report that there is none. -/
def stationNamed (n : Network R) (name : String) : Result (Station R) :=
  match n.stations.find? name with
  | some s => .ok s
  | none => fail (.nodeNotFound name)

/-- Add a station with a recording. An empty name stands for a generated one. The answer is the name
it got. -/
def add (name : String) (recording : Cube R) : Call (Network R) String := do
  let n ← get
  let name ← n.nameFor name
  insert { name, index := n.created, recording }

/-- Take a station off. A name without station changes nothing. -/
def remove (n : Network R) (name : String) : Network R :=
  if n.stations.contains name then
    { n with stations := n.stations.erase name, baselines := none }
  else n

/-- Add a station that is made from another one and the number it gets. -/
def derive (source : String) (make : Station R → Nat → Station R) : Call (Network R) String := do
  let n ← get
  let s ← n.stationNamed source
  insert (make s n.created)

/-- Add a copy of a station. -/
def copy (source target : String) : Call (Network R) String :=
  derive source fun s => s.duplicate target

/-- Add a filtered copy of a station. -/
def filter [Fourier.Spectral R] (source target : String) (filter : Filter R) :
    Call (Network R) String :=
  derive source fun s number => s.filtered target number filter

/-- Change the recording of a station in place. The baselines are kept. -/
def editRecording (n : Network R) (name : String) (f : Cube R → Cube R) : Network R :=
  { n with stations := n.stations.modify name fun s => { s with recording := f s.recording } }

/-! ## Settings -/

/-- Move the reference of the array. It has to be a geographic location. -/
def setReference (n : Network R) (reference : Location R) : Result (Network R) :=
  if reference.isRelative then
    fail (.invalidLocation "the station reference must be geographic")
  else .ok { n with reference }

def setRelative (n : Network R) (relative : Bool) : Network R :=
  { n with frame := if relative then .relative else .geographic }

/-- Choose how many stations are correlated together. The baselines are out of date afterwards. -/
def setOrder (n : Network R) (order : Nat) : Network R :=
  { n with requestedOrder := max order Constant.leastOrder, baselines := none }

/-! ## Baselines -/

/-- The network with its baselines, formed when they are not up to date. -/
def settle (n : Network R) : Network R × BaselineSet R :=
  match n.baselines with
  | some set => (n, set)
  | none =>
    let n := { n with stations := n.stations.compact }
    let set := BaselineSet.build n.view n.order
    ({ n with baselines := some set }, set)

/-- Change the baselines, formed when they are not up to date. -/
def adjust (n : Network R) (f : View R → BaselineSet R → BaselineSet R) : Network R :=
  let (n, set) := n.settle
  { n with baselines := some (f n.view set) }

/-- Lock a baseline to a correlated stream. The baselines are formed even if there is none of this
name. -/
def lock (n : Network R) (name : String) (stream : Cube R) : Network R × Result Unit :=
  let (n, set) := n.settle
  match set.lock name stream with
  | .ok set => ({ n with baselines := some set }, .ok ())
  | .error e => (n, .error e)

def unlock (n : Network R) (name : String) : Network R := n.adjust fun _ set => set.unlock name

end Network

end Aperture
