import Aperture.Call
import Aperture.Cube.Arithmetic
import Aperture.Imaging.Plot

/-!
# Contexts

The network of one observation with the models that were derived from it. A **model** is a cube
under a name: an image, a decoded file or the result of an operation on other models.

An operation reads its operands before it stores its result, so a result may take the name of an
operand. A stored model moves behind all others.
-/

namespace Aperture

/-- A cube under a name. -/
structure Model (R : Type) where
  name : String
  cube : Cube R

instance {R : Type} : Named (Model R) := ⟨Model.name⟩

/-- A network and its models. -/
structure Context (R : Type) where
  name : String
  network : Network R
  models : Roster (Model R)

instance {R : Type} : Named (Context R) := ⟨Context.name⟩

namespace Context

variable {R : Type}

def empty [Scalar R] (name : String) : Context R := ⟨name, Network.empty, {}⟩

/-! ## Models -/

/-- The model of a name. -/
def model? (c : Context R) (name : String) : Option (Cube R) :=
  (c.models.find? name).map Model.cube

/-- The model of a name, or the report that there is none. -/
def modelNamed (c : Context R) (name : String) : Result (Cube R) :=
  match c.model? name with
  | some cube => .ok cube
  | none => fail (.modelNotFound name)

/-- Drop a model. A name without model changes nothing. -/
def dropModel (c : Context R) (name : String) : Context R :=
  { c with models := (c.models.erase name).compact }

/-- Store a model, in place of one of the same name. -/
def storeModel (c : Context R) (name : String) (cube : Cube R) : Context R :=
  let freed := c.dropModel name
  match freed.models.add ⟨name, cube⟩ with
  | .ok models => { freed with models }
  | .error _ => freed

/-! ## Operations -/

/-- Read a model, or report that there is none. -/
def read (name : String) : Call (Context R) (Cube R) := .query fun c => c.modelNamed name

/-- Store a model. -/
def store (name : String) (cube : Cube R) : Call (Context R) Unit :=
  modify fun c => c.storeModel name cube

/-- Carry out a call on the network. -/
def onNetwork {α : Type} (call : Call (Network R) α) : Call (Context R) α :=
  call.within Context.network fun c network => { c with network }

variable [Scalar R]

/-- Store the quadrant shift of a model. -/
def shift (a out : String) : Call (Context R) Unit := do
  let cube ← (← read a).shift
  store out cube

variable [Trig R] [Fourier.Spectral R]

/-- Store the result of an operation on two models. -/
def combine (operation : Cube.Operation) (a b out : String) : Call (Context R) Unit := do
  let first ← read a
  let second ← read b
  let cube ← operation.apply first second
  store out cube

/-- Store the magnitudes and the phases of the Fourier transform of a model. -/
def dft (a magnitude phase : String) : Call (Context R) Unit := do
  let (magnitudes, phases) ← (← read a).dft
  store magnitude magnitudes
  store phase phases

/-- Integrate the network and store the image. A `refusal` stands for a thread that cannot be
created. -/
def plot (name : String) (plan : Plan R) (refusal : Option Refusal) :
    Call (Context R) Outcome := do
  let (image, outcome) ← onNetwork (.attempt fun n => n.plotUnder plan refusal)
  store name image
  return outcome

end Context

end Aperture
