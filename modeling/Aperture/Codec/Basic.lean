import Aperture.Codec.Bytes
import Aperture.Cube

/-!
# Codecs

A codec turns byte payloads into cubes and cubes back into payloads. Codecs are known by their
names.
-/

namespace Aperture

/-- A named pair of a reader and a writer. -/
structure Codec (R : Type) where
  name : String
  decode : Bytes → Result (Cube R)
  encode : Cube R → Result Bytes

/-- The codecs in use, one for each name. -/
structure Codecs (R : Type) where
  entries : List (Codec R)

namespace Codecs

variable {R : Type}

/-- The codec of a name. -/
def find? (codecs : Codecs R) (name : String) : Option (Codec R) :=
  codecs.entries.find? fun c => c.name == name

/-- Add a codec, in place of the one that had its name. -/
def insert (codecs : Codecs R) (codec : Codec R) : Codecs R :=
  ⟨codec :: codecs.entries.filter fun c => c.name != codec.name⟩

/-- The codec of a name, or the report that the format is not supported. -/
def get (codecs : Codecs R) (name : String) : Result (Codec R) :=
  match codecs.find? name with
  | some codec => .ok codec
  | none => fail (.unsupportedFormat name)

theorem find?_insert_self (codecs : Codecs R) (codec : Codec R) :
    (codecs.insert codec).find? codec.name = some codec := by
  simp [find?, insert]

end Codecs

end Aperture
