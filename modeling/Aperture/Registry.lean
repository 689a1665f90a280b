import Aperture.Context

/-!
# Registries

All contexts, and which of them is the current one. The selection is either empty or the name of a
context.
-/

namespace Aperture

/-- Contexts and the selected one. -/
structure Registry (R : Type) where
  contexts : Roster (Context R) := {}
  selected : Option String := none

namespace Registry

variable {R : Type}

def current? (r : Registry R) : Option (Context R) := r.selected.bind r.contexts.find?

/-- Create a context and set it up. When the set-up fails nothing is created. -/
def createUsing [Scalar R] (r : Registry R) (name : String)
    (setUp : Context R → Result (Context R)) : Result (Registry R) :=
  if r.contexts.contains name then fail (.duplicateName name)
  else do
    let context ← setUp (.empty name)
    let contexts ← r.contexts.add context
    .ok { r with contexts }

/-- Create an empty context. -/
def create [Scalar R] (r : Registry R) (name : String) : Result (Registry R) :=
  r.createUsing name .ok

/-- Make a context the current one. -/
def select (r : Registry R) (name : String) : Result (Registry R) :=
  if r.contexts.contains name then .ok { r with selected := some name }
  else fail (.contextNotFound name)

/-- Drop a context. The selection is cleared when it was the current one. A name without context
changes nothing. -/
def destroy (r : Registry R) (name : String) : Registry R :=
  if r.contexts.contains name then
    { contexts := (r.contexts.erase name).compact
      selected := if r.selected = some name then none else r.selected }
  else r

/-- Change a context. The change has to keep the name. -/
def modify (r : Registry R) (name : String) (f : Context R → Context R) : Registry R :=
  { r with contexts := r.contexts.modify name f }

/-- The current context, or the report that none is selected. -/
def requireCurrent (r : Registry R) : Result (Context R) :=
  match r.current? with
  | some context => .ok context
  | none => fail (.contextNotFound "<none selected>")

/-- Put a context in the place of the current one. It has to keep the name. -/
def putCurrent (r : Registry R) (context : Context R) : Registry R :=
  match r.selected with
  | some name => r.modify name fun _ => context
  | none => r

end Registry

end Aperture
