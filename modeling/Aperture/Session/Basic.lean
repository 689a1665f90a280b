import Aperture.Angle.Sexagesimal
import Aperture.Codec.Raw
import Aperture.Files.Path
import Aperture.Registry
import Aperture.Time.Timestamp

/-!
# Sessions

What a front end works with: the contexts, the settings for new stations and for imaging runs, the
codecs in use and the interrupt flag. Operations on stations, baselines and models apply to the
current context and are refused when none is selected.

Every operation is a call on the session, so what it did before it failed stays done.
-/

namespace Aperture

open Scalar

/-- How a plot is made. -/
structure PlotMode where
  moving : Bool
  synced : Bool
  /-- Only show which cells are visited. -/
  coverage : Bool
  deterministic : Bool
deriving DecidableEq, Repr

/-- The state behind a front end. -/
structure Session (R : Type) where
  registry : Registry R
  codecs : Codecs R
  /-- Most workers that run at once. -/
  workers : Nat
  target : Target R
  frequency : R
  rate : R
  width : Nat
  height : Nat
  /-- Format of raw recordings. -/
  bits : Int
  interrupt : Bool

namespace Session

variable {R : Type} [Scalar R] [Word R]

/-- A session without contexts that knows the raw codec. -/
def new (workers : Nat) : Session R where
  registry := {}
  codecs := ⟨[Raw.codec]⟩
  workers
  target := .origin
  frequency := Constant.speedOfLight
  rate := one
  width := Constant.imageEdge
  height := Constant.imageEdge
  bits := 8
  interrupt := false

/-- Use a codec, in place of the one that had its name. -/
def registerCodec (s : Session R) (codec : Codec R) : Session R :=
  { s with codecs := s.codecs.insert codec }

/-! ## Parts of a session -/

/-- Carry out a call on the contexts. -/
def onRegistry {α : Type} (call : Call (Registry R) α) : Call (Session R) α :=
  call.within Session.registry fun s registry => { s with registry }

/-- Carry out a call on the current context. -/
def onContext {α : Type} (call : Call (Context R) α) : Call (Session R) α := do
  let context ← .query fun s => s.registry.requireCurrent
  let (answer, context) := call.on context
  modify fun s => { s with registry := s.registry.putCurrent context }
  answer

/-- Carry out a call on the network of the current context. -/
def onNetwork {α : Type} (call : Call (Network R) α) : Call (Session R) α :=
  onContext (Context.onNetwork call)

/-- Read a payload with the codec of a name. -/
def decode (format : String) (bytes : Bytes) : Call (Session R) (Cube R) := .query fun s => do
  let codec ← s.codecs.get format
  codec.decode bytes

/-! ## Contexts -/

/-- Make a context the current one. -/
def selectContext (name : String) : Call (Session R) Unit :=
  onRegistry (.update fun r => r.select name)

/-- Create a context and make it the current one. -/
def addContext (name : String) : Call (Session R) Unit := do
  onRegistry (.update fun r => r.create name)
  selectContext name

def deleteContext (name : String) : Call (Session R) Unit :=
  onRegistry (modify fun r => r.destroy name)

/-! ## Settings -/

def setTarget (target : Target R) : Call (Session R) Unit := modify fun s => { s with target }

/-- The angle that a text stands for, or the report that it is none. -/
def readAngle (name : String) (read : List Char → Option R) (text : String) : Result R :=
  match read text.toList with
  | some angle => .ok angle
  | none => fail (.invalidPlotParameter ("invalid " ++ name ++ " " ++ Text.quoted text))

/-- Set the direction of the target from two sexagesimal texts. The distance stays. -/
def setTargetText (rightAscension declination : String) : Call (Session R) Unit := do
  let ra ← readAngle "right ascension" Sexagesimal.rightAscension? rightAscension
  let dec ← readAngle "declination" Sexagesimal.declination? declination
  modify fun s => { s with target := ⟨ra, dec, s.target.distance⟩ }

def setFrequency (frequency : R) : Call (Session R) Unit := do
  demand (isPositive frequency) (.invalidPlotParameter "frequency must be > 0")
  modify fun s => { s with frequency }

def setRate (rate : R) : Call (Session R) Unit := do
  demand (isPositive rate) (.invalidPlotParameter "sample_rate must be > 0")
  modify fun s => { s with rate }

def setResolution (width height : Nat) : Call (Session R) Unit := do
  demand (width ≠ 0 ∧ height ≠ 0) (.invalidPlotParameter "width and height must be >= 1")
  modify fun s => { s with width, height }

def setBits (bits : Int) : Call (Session R) Unit := do
  SampleFormat.checkBits bits
  modify fun s => { s with bits }

/-- Set the number of stations in a group. The answer is the number that applies now. -/
def setOrder (order : Nat) : Call (Session R) Nat := onNetwork do
  modify fun n => n.setOrder order
  return (← get).order

def setReference [Legible R] (latitude longitude elevation : R) : Call (Session R) Unit := do
  let reference ← Location.ofGeographic latitude longitude elevation
  onNetwork (.update fun n => n.setReference reference)

/-- Choose the frame. -/
def setRelative (relative : Bool) : Call (Session R) Unit :=
  onNetwork (modify fun n => n.setRelative relative)

/-! ## Stations -/

/-- Add a station from a raw recording, with the settings of the session. The answer is its name. -/
def addRaw (name : String) (location : Location R) (bytes : Bytes) (start : String) :
    Call (Session R) String := do
  let start ← Epoch.parse start
  let s ← get
  let samples : List R ← SampleFormat.decodeBits bytes s.bits
  demand (!samples.isEmpty) (.emptyStream name)
  onNetwork (Network.add name
    { (Cube.ofSamples samples.toArray).withFrequency s.frequency with
      start, rate := s.rate, target := s.target, location })

/-- Add a station from a payload. The metadata are those of the payload. -/
def addEncoded (name format : String) (bytes : Bytes) : Call (Session R) String := do
  let cube ← decode format bytes
  demand (!cube.samples.isEmpty) (.emptyStream name)
  onNetwork (Network.add name cube)

/-- The codec that the extension of a file names, in lower case. -/
def formatOf (path : String) : Result String :=
  match Path.extension? path.toList with
  | none => fail (.unsupportedFormat path)
  | some format => .ok (String.ofList (format.map Char.toLower))

/-- Add a station from a file, given what reading it answers. -/
def addFile (name path : String) (content : Result Bytes) : Call (Session R) String := do
  let format ← formatOf path
  let bytes ← content
  addEncoded name format bytes

def deleteStation (name : String) : Call (Session R) Unit :=
  onNetwork (modify fun n => n.remove name)

/-- Add a copy of a station. The answer is its name. -/
def copyStation (source target : String) : Call (Session R) String :=
  onNetwork (Network.copy source target)

/-- Add a filtered copy of a station. The answer is its name. -/
def filterStation [Fourier.Spectral R] (source target : String) (filter : Filter R) :
    Call (Session R) String :=
  onNetwork (Network.filter source target filter)

def stations : Call (Session R) (List (Station R)) := .query fun s => do
  let context ← s.registry.requireCurrent
  .ok context.network.stations.toList

/-! ## Baselines -/

/-- The baselines, formed if they are not up to date. -/
def baselines : Call (Session R) (List (Baseline.Summary R)) :=
  onNetwork (.attempt fun n =>
    let (n, set) := n.settle
    (n, .ok (set.baselines.toList.map fun b => b.summary n.view)))

/-- Lock a baseline to the stream of a payload. -/
def lockBaseline (name format : String) (bytes : Bytes) : Call (Session R) Unit := do
  let stream ← decode format bytes
  onNetwork (.attempt fun n => n.lock name stream)

def unlockBaseline (name : String) : Call (Session R) Unit :=
  onNetwork (modify fun n => n.unlock name)

/-! ## Plots -/

/-- The plan of a plot with the settings of the session, for an interrupt flag that answers like
`flag` while it runs. -/
def plan (mode : PlotMode) (flag : Interrupt) : Call (Session R) (Plan R) := .query fun s =>
  Plan.validate
    { target := s.target
      frequency := s.frequency
      rate := s.rate
      width := s.width
      height := s.height
      moving := mode.moving
      synced := mode.synced
      correlator := if mode.coverage then .coverage else .product
      adaptive := true
      accumulation := if mode.deterministic then .deterministic else .interleaved
      interrupt := some flag }

variable [Trig R] [Fourier.Spectral R]

/-- Integrate the current context as planned and store the image as a model. The interrupt flag is
cleared first. -/
def carryOut (name : String) (plan : Plan R) (refusal : Option Refusal) :
    Call (Session R) Outcome := do
  modify fun s => { s with interrupt := false }
  onContext (Context.plot name plan refusal)

/-- Integrate the current context with the settings of the session. -/
def plot (name : String) (mode : PlotMode) (flag : Interrupt) (refusal : Option Refusal) :
    Call (Session R) Outcome := do
  let plan ← plan mode flag
  carryOut name plan refusal

/-! ## Models -/

/-- The payload of a model. -/
def exportModel (name format : String) : Call (Session R) Bytes := .query fun s => do
  let codec ← s.codecs.get format
  let context ← s.registry.requireCurrent
  let cube ← context.modelNamed name
  codec.encode cube

/-- Store the cube of a payload as a model. -/
def importModel (name format : String) (bytes : Bytes) : Call (Session R) Unit := do
  let cube ← decode format bytes
  onContext (Context.store name cube)

def discardModel (name : String) : Call (Session R) Unit :=
  onContext (modify fun c => c.dropModel name)

def models : Call (Session R) (List String) := .query fun s => do
  let context ← s.registry.requireCurrent
  .ok context.models.names

end Session

end Aperture
