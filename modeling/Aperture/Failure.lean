/-!
# Failures

Why a call has no answer.

An `Error` is a cause that a caller is told about: a name that is not there, a payload that cannot
be decoded. A `Fault` is a computation that has no value at all, such as a division by zero or a sum
that does not fit its word. A `Failure` is one of the two.

* `Error.message` is the only place where an error gets its wording.
* `Error.same` compares causes: two errors of the file system are never told apart.
-/

namespace Aperture

/-- A cause reported to the caller. -/
inductive Error where
  | nodeNotFound (name : String)
  | baselineNotFound (name : String)
  | modelNotFound (name : String)
  | contextNotFound (name : String)
  | duplicateName (name : String)
  | invalidPlotParameter (detail : String)
  | invalidLocation (detail : String)
  | invalidSampleFormat (bits : Int)
  | sizeMismatch (expected found : List Nat)
  | unsupportedFormat (format : String)
  | undecodable (format reason : String)
  | invalidDate (text : String)
  | emptyStream (name : String)
  | workerSpawn (detail : String)
  | workerPanicked (baseline : String)
  | fileSystem (detail : String)
deriving DecidableEq, Repr

/-- A computation without a value. -/
inductive Fault where
  | divisionByZero
  | indexOutOfBounds
  | nonFiniteTime
  /-- The correlation function of the caller gave up. -/
  | correlation
  /-- A number does not fit its word, or an array does not fit the memory. -/
  | overflow
deriving DecidableEq, Repr

/-- Why a call has no answer. -/
inductive Failure where
  | error (cause : Error)
  | fault (cause : Fault)
deriving DecidableEq, Repr

/-- An answer or the reason for its absence. -/
abbrev Result (α : Type) := Except Failure α

/-- Report an error. -/
def fail {α : Type} (e : Error) : Result α := .error (.error e)

/-- Report an error unless a condition holds. -/
def demand (condition : Bool) (e : Error) : Result Unit := if condition then .ok () else fail e

/-- Stop on a fault. -/
def abort {α : Type} (f : Fault) : Result α := .error (.fault f)

theorem bind_eq_ok_iff {α β : Type} {x : Result α} {f : α → Result β} {b : β} :
    x >>= f = .ok b ↔ ∃ a, x = .ok a ∧ f a = .ok b := by
  cases x <;> simp [bind, Except.bind]

theorem bind_eq_error_iff {α β : Type} {x : Result α} {f : α → Result β} {e : Failure} :
    x >>= f = .error e ↔ x = .error e ∨ ∃ a, x = .ok a ∧ f a = .error e := by
  cases x <;> simp [bind, Except.bind]

/-- A list of computations answers when each of them does. -/
theorem mapM_eq_ok_iff {α β : Type} {f : α → Result β} {l : List α} {bs : List β} :
    l.mapM f = .ok bs ↔ l.map f = bs.map .ok := by
  induction l generalizing bs with
  | nil => cases bs <;> simp [pure, Except.pure]
  | cons a l ih =>
    rw [List.mapM_cons, bind_eq_ok_iff]
    simp only [bind_eq_ok_iff, ih, pure, Except.pure, Except.ok.injEq]
    cases bs with
    | nil => simp
    | cons b bs =>
      simp only [List.map_cons, List.cons.injEq]
      constructor
      · rintro ⟨_, ha, _, hl, rfl, rfl⟩
        exact ⟨ha, hl⟩
      · rintro ⟨ha, hl⟩
        exact ⟨b, ha, bs, hl, rfl, rfl⟩

namespace Error

/-- Sizes in brackets, separated by commas. -/
def sizes (shape : List Nat) : String :=
  "[" ++ String.intercalate ", " (shape.map toString) ++ "]"

/-- The wording of an error. -/
def message : Error → String
  | nodeNotFound name => "Node not found: " ++ name
  | baselineNotFound name => "Baseline not found: " ++ name
  | modelNotFound name => "Model not found: " ++ name
  | contextNotFound name => "Context not found: " ++ name
  | duplicateName name => "An element named " ++ name ++ " already exists"
  | invalidPlotParameter detail => "Invalid plot parameter: " ++ detail
  | invalidLocation detail => "Invalid location: " ++ detail
  | invalidSampleFormat bits => "Unsupported bits per sample: " ++ toString bits
  | sizeMismatch expected found =>
    "Size mismatch: expected " ++ sizes expected ++ ", got " ++ sizes found
  | unsupportedFormat format => "Unsupported file format: " ++ format
  | undecodable format reason => "Unable to decode " ++ format ++ " payload: " ++ reason
  | invalidDate text => "Invalid date string: " ++ text
  | emptyStream name => "Stream " ++ name ++ " holds no samples"
  | workerSpawn detail => "Unable to spawn synthesis worker: " ++ detail
  | workerPanicked baseline => "Synthesis worker for baseline " ++ baseline ++ " panicked"
  | fileSystem detail => "Unable to perform file operation: " ++ detail

/-- Whether two errors have the same cause. The detail of a file system error does not count. -/
def same : Error → Error → Bool
  | fileSystem _, fileSystem _ => true
  | a, b => a = b

theorem same_refl (a : Error) : same a a = true := by
  cases a <;> simp [same]

theorem same_comm (a b : Error) : same a b = same b a := by
  cases a <;> cases b <;> simp [same, eq_comm]

end Error

end Aperture
