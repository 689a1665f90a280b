import Aperture.Session.Basic

/-!
# Requests

Everything a front end can ask of a session, as data. `Session.handle` carries a request out: it
answers, or it fails and says why, and it leaves a session behind in either way. A sequence of
requests is a run of the session.
-/

namespace Aperture

/-- What a front end can ask for. -/
inductive Request (R : Type) where
  | addContext (name : String)
  | selectContext (name : String)
  | deleteContext (name : String)
  | setTarget (target : Target R)
  | setTargetText (rightAscension declination : String)
  | setFrequency (frequency : R)
  | setRate (rate : R)
  | setResolution (width height : Nat)
  | setBits (bits : Int)
  | setOrder (order : Nat)
  | setReference (latitude longitude elevation : R)
  | setRelative (relative : Bool)
  | addRaw (name : String) (location : Location R) (bytes : Bytes) (start : String)
  | addEncoded (name format : String) (bytes : Bytes)
  | addFile (name path : String) (content : Result Bytes)
  | deleteStation (name : String)
  | copyStation (source target : String)
  | filterStation (source target : String) (filter : Filter R)
  | listStations
  | listBaselines
  | lockBaseline (name format : String) (bytes : Bytes)
  | unlockBaseline (name : String)
  | plot (name : String) (mode : PlotMode) (flag : Interrupt) (refusal : Option Refusal)
  | carryOut (name : String) (plan : Plan R) (refusal : Option Refusal)
  | exportModel (name format : String)
  | importModel (name format : String) (bytes : Bytes)
  | discardModel (name : String)
  | listModels
  | combine (operation : Cube.Operation) (a b out : String)
  | shift (a out : String)
  | dft (a magnitude phase : String)

/-- What a request is answered with. -/
inductive Answer (R : Type) where
  | done
  | name (name : String)
  | order (order : Nat)
  | stations (stations : List (Station R))
  | baselines (baselines : List (Baseline.Summary R))
  | outcome (outcome : Outcome)
  | payload (bytes : Bytes)
  | names (names : List String)

namespace Session

variable {R : Type}

/-- A call that has nothing to answer. -/
def done (call : Call (Session R) Unit) : Call (Session R) (Answer R) := do
  call
  return .done

variable [Scalar R] [Trig R] [Fourier.Spectral R] [Word R] [Legible R]

/-- The call that carries a request out. -/
def serve : Request R → Call (Session R) (Answer R)
  | .addContext name => done (addContext name)
  | .selectContext name => done (selectContext name)
  | .deleteContext name => done (deleteContext name)
  | .setTarget target => done (setTarget target)
  | .setTargetText ra dec => done (setTargetText ra dec)
  | .setFrequency frequency => done (setFrequency frequency)
  | .setRate rate => done (setRate rate)
  | .setResolution width height => done (setResolution width height)
  | .setBits bits => done (setBits bits)
  | .setOrder order => return .order (← setOrder order)
  | .setReference lat lon elevation => done (setReference lat lon elevation)
  | .setRelative relative => done (setRelative relative)
  | .addRaw name location bytes start => return .name (← addRaw name location bytes start)
  | .addEncoded name format bytes => return .name (← addEncoded name format bytes)
  | .addFile name path content => return .name (← addFile name path content)
  | .deleteStation name => done (deleteStation name)
  | .copyStation source target => return .name (← copyStation source target)
  | .filterStation source target filter => return .name (← filterStation source target filter)
  | .listStations => return .stations (← stations)
  | .listBaselines => return .baselines (← baselines)
  | .lockBaseline name format bytes => done (lockBaseline name format bytes)
  | .unlockBaseline name => done (unlockBaseline name)
  | .plot name mode flag refusal => return .outcome (← plot name mode flag refusal)
  | .carryOut name plan refusal => return .outcome (← carryOut name plan refusal)
  | .exportModel name format => return .payload (← exportModel name format)
  | .importModel name format bytes => done (importModel name format bytes)
  | .discardModel name => done (discardModel name)
  | .listModels => return .names (← models)
  | .combine operation a b out => done (onContext (Context.combine operation a b out))
  | .shift a out => done (onContext (Context.shift a out))
  | .dft a magnitude phase => done (onContext (Context.dft a magnitude phase))

/-- Carry out a request. -/
def handle (s : Session R) (r : Request R) : Session R × Result (Answer R) :=
  let (answer, s) := (serve r).on s
  (s, answer)

end Session

end Aperture
