/-!
# Paths

The components of a path and the extension of the file it names.

* `components` leaves out empty components and single dots.
* `extension?` is what follows the last dot in the last component. A component whose only dot leads
  it has no extension, one that ends in a dot has an empty one, and `..` has none.
-/

namespace Aperture.Path

/-- The pieces of a text between the occurrences of a mark. -/
def pieces (mark : Char) : List Char → List (List Char)
  | [] => [[]]
  | c :: cs =>
    match pieces mark cs with
    | [] => [[c]]
    | first :: rest => if c = mark then [] :: first :: rest else (c :: first) :: rest

/-- The components of a path. -/
def components (path : List Char) : List (List Char) :=
  (pieces '/' path).filter fun s => s != [] && s != ['.']

/-- Whether a path ends in a slash or a single dot, and so can only name a directory. -/
def namesDirectory (path : List Char) : Bool :=
  match (pieces '/' path).getLast? with
  | some last => last == [] || last == ['.']
  | none => true

/-- The last component of a path, `none` when it does not name a file. -/
def fileName? (path : List Char) : Option (List Char) :=
  match (components path).getLast? with
  | some ['.', '.'] => none
  | name => name

/-- The extension of a path. -/
def extension? (path : List Char) : Option (List Char) := do
  let name ← fileName? path
  match (pieces '.' name).reverse with
  | last :: rest@(_ :: _) => if rest = [[]] then none else some last
  | _ => none

example : extension? "a/b.tar.gz".toList = some "gz".toList := by decide +kernel
example : extension? ".raw".toList = none ∧ extension? "noext".toList = none := by decide +kernel
example : extension? "dot.".toList = some [] := by decide +kernel
example : extension? "a.d/".toList = some ['d'] ∧ extension? "a.d/..".toList = none := by
  decide +kernel

theorem pieces_ne_nil (mark : Char) (cs : List Char) : pieces mark cs ≠ [] := by
  cases cs with
  | nil => simp [pieces]
  | cons c cs =>
    simp only [pieces]
    split
    · simp
    · split <;> simp

end Aperture.Path
