import Aperture.Baseline

/-!
# Plans

What an imaging run is asked to do. `Plan.validate` accepts the plans that can be carried out: the
frequency and the sample rate are finite and positive, the image has cells and the direction of the
target is finite.
-/

namespace Aperture

open Scalar

/-- How the values of several baselines are brought together. -/
inductive Accumulation where
  /-- All baselines write into one image as they come. -/
  | interleaved
  /-- Every baseline fills an image of its own, and the images are averaged in order. -/
  | deterministic
deriving DecidableEq, Repr

/-- Answers of an interrupt flag: whether it is set when the worker of a baseline asks for the
`n`-th time. -/
abbrev Interrupt := String → Nat → Bool

/-- What an imaging run is asked to do. -/
structure Plan (R : Type) where
  target : Target R
  /-- Observing frequency in hertz. -/
  frequency : R
  /-- Steps per second. -/
  rate : R
  width : Nat
  height : Nat
  /-- Point every station anew at each step. -/
  moving : Bool
  /-- The recordings are aligned, so delays are not compensated. -/
  synced : Bool
  correlator : Correlator R
  /-- Skip steps that would visit the same cell again. -/
  adaptive : Bool
  accumulation : Accumulation
  interrupt : Option Interrupt

namespace Plan

variable {R : Type} [Scalar R]

/-- The plan that asks for nothing in particular. -/
def default : Plan R where
  target := .origin
  frequency := Constant.speedOfLight
  rate := one
  width := Constant.imageEdge
  height := Constant.imageEdge
  moving := false
  synced := false
  correlator := .product
  adaptive := true
  accumulation := .interleaved
  interrupt := none

/-- The wavelength of the observing frequency. -/
def wavelength (p : Plan R) : R := Constant.speedOfLight / p.frequency

/-- The plan with the frequency of a wavelength. -/
def withWavelength (p : Plan R) (wavelength : R) : Plan R :=
  { p with frequency := Constant.speedOfLight / wavelength }

/-- The plan, when it can be carried out. The first defect is reported. -/
def validate (p : Plan R) : Result (Plan R) :=
  if !isPositive p.frequency then fail (.invalidPlotParameter "frequency must be > 0")
  else if !isPositive p.rate then fail (.invalidPlotParameter "sample_rate must be > 0")
  else if p.width = 0 ∨ p.height = 0 then
    fail (.invalidPlotParameter "width and height must be >= 1")
  else if !(isFinite p.target.rightAscension && isFinite p.target.declination) then
    fail (.invalidPlotParameter "target coordinates must be finite")
  else .ok p

/-- Whether the flag is set when the worker of a baseline asks for the `n`-th time. -/
def isInterrupted (p : Plan R) (baseline : String) (n : Nat) : Bool :=
  p.interrupt.any fun flag => flag baseline n

/-- The plan as a literal. -/
def literal [Legible R] (p : Plan R) : String :=
  "PlotParams \x7b target: " ++ p.target.literal ++
    ", frequency: " ++ Legible.literal p.frequency ++
    ", sample_rate: " ++ Legible.literal p.rate ++
    ", width: " ++ toString p.width ++
    ", height: " ++ toString p.height ++
    ", moving_baseline: " ++ toString p.moving ++
    ", synced: " ++ toString p.synced ++
    ", adaptive_stride: " ++ toString p.adaptive ++
    ", accumulation: " ++
    (match p.accumulation with
      | .interleaved => "Interleaved"
      | .deterministic => "Deterministic") ++
    ", interruptible: " ++ toString p.interrupt.isSome ++ " \x7d"

end Plan

end Aperture
