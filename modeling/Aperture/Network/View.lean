import Aperture.Station

/-!
# Views of a network

What a baseline sees of the network: the stations, the reference location and the frame.
-/

namespace Aperture

/-- The stations with the frame they are placed in. -/
structure View (R : Type) where
  stations : Roster (Station R)
  reference : Location R
  frame : Frame

namespace View

variable {R : Type}

/-- The station in a slot. -/
def station? (v : View R) (slot : Nat) : Option (Station R) := v.stations.atSlot? slot

variable [Scalar R] [Trig R]

/-- The position of the station in a slot. -/
def position? (v : View R) (slot : Nat) : Option (Vec3 R) :=
  (v.station? slot).map fun s => s.position v.frame v.reference

/-- The point that delays are measured against: the reference in the relative frame, where it is the
origin, and the first station otherwise. -/
def delayCenter (v : View R) : Vec3 R :=
  match v.frame with
  | .relative => Vec3.zero
  | .geographic =>
    match v.stations.toList.head? with
    | some s => s.position v.frame v.reference
    | none => Vec3.zero

end View

end Aperture
