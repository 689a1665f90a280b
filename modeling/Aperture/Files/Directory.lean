import Aperture.Codec.Bytes
import Aperture.Failure
import Aperture.Files.Path

/-!
# Directories

A directory of files that is kept in memory. A path is followed name by name, so that the first
name that leads nowhere decides why a file cannot be read.

An absolute path, and one with more `..` than names before them, leaves the directory. Out there
only the way up goes on; no other name leads anywhere, and none leads back in.
-/

namespace Aperture

/-- Why a path does not lead to a file. -/
inductive Obstacle where
  | absent
  /-- A file stands where a directory is needed. -/
  | notDirectory
  | isDirectory
  | nameTooLong
  | nulInName
deriving DecidableEq, Repr

/-- The report of the file system. -/
def Obstacle.message : Obstacle → String
  | absent => "No such file or directory (os error 2)"
  | notDirectory => "Not a directory (os error 20)"
  | isDirectory => "Is a directory (os error 21)"
  | nameTooLong => "File name too long (os error 36)"
  | nulInName => "file name contained an unexpected NUL byte"

/-- Files by the names on the way to them. -/
structure Directory where
  files : List (List (List Char) × Bytes) := []

namespace Directory

/-- The most bytes of a name. -/
def nameLimit : Nat := 255

/-- The most bytes of a path. -/
def pathLimit : Nat := 4095

/-- The file at the end of some names. -/
def file? (d : Directory) (names : List (List Char)) : Option Bytes :=
  (d.files.find? fun f => f.1 == names).map Prod.snd

/-- Whether there is a file somewhere behind some names. -/
def leadsOn (d : Directory) (names : List (List Char)) : Bool :=
  d.files.any fun f => names.isPrefixOf f.1

/-- The place above one that is reached by the names of a trail, `none` being outside. -/
def above : Option (List (List Char)) → Option (List (List Char))
  | some trail@(_ :: _) => some trail.dropLast
  | _ => none

/-- Follow names from a place. -/
def follow (d : Directory) (place : Option (List (List Char))) :
    List (List Char) → Except Obstacle Bytes
  | [] => .error .isDirectory
  | name :: rest =>
    if name = ['.', '.'] then d.follow (above place) rest
    else if nameLimit < (String.ofList name).utf8ByteSize then .error .nameTooLong
    else
      match place with
      | none => .error .absent
      | some trail =>
        let here := trail ++ [name]
        match d.file? here with
        | some bytes => if rest.isEmpty then .ok bytes else .error .notDirectory
        | none => if d.leadsOn here then d.follow (some here) rest else .error .absent

/-- The file of a path. -/
def lookUp (d : Directory) (path : List Char) : Except Obstacle Bytes :=
  if path.contains '\x00' then .error .nulInName
  else if pathLimit < (String.ofList path).utf8ByteSize then .error .nameTooLong
  else
    let start := if path.head? = some '/' then none else some []
    match d.follow start (Path.components path) with
    | .error obstacle => .error obstacle
    | .ok bytes => if Path.namesDirectory path then .error .notDirectory else .ok bytes

/-- Create a file, in place of one with the same path. -/
def write (d : Directory) (path : String) (bytes : Bytes) : Directory :=
  let names := Path.components path.toList
  ⟨(names, bytes) :: d.files.filter fun f => f.1 != names⟩

/-- Read the file of a path, or report what stands in the way. -/
def read (d : Directory) (path : String) : Result Bytes :=
  match d.lookUp path.toList with
  | .ok bytes => .ok bytes
  | .error obstacle => fail (.fileSystem obstacle.message)

theorem file?_write_self (d : Directory) (path : String) (bytes : Bytes) :
    (d.write path bytes).file? (Path.components path.toList) = some bytes := by
  simp [file?, write]

end Directory

end Aperture
