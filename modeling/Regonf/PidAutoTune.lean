import Regonf.Lib.Blocks
import Regonf.Lib.Controller
import Regonf.Pid

/-! `pidAutoTune` of `lib/pid.c`. The arithmetic is that of `R`, and `int` is the conversion of a
`float` to `int`. -/
namespace Regonf

structure PIDAT (R : Type*) where
  isMax : Bool
  isMin : Bool
  setpoint : R
  noiseBand : R
  running : Bool
  peak1 : Timespec
  peak2 : Timespec
  lastTime : Timespec
  sampleTime : Timespec
  nLookBack : ℤ
  peakType : ℤ
  lastInputs : Vector R 101
  peaks : Vector R 10
  peakCount : ℤ
  justchanged : Bool
  justevaled : Bool
  absMax : R
  absMin : R
  oStep : R
  outputStart : R
  Ku : R
  Pu : R
deriving DecidableEq, Repr

/-- What a call returns and what it leaves in `*at`, `*p` and `*output`. -/
structure TuneResult (R : Type*) where
  ret : Bool
  pidAt : PIDAT R
  p : PID R
  output : R
deriving DecidableEq, Repr

section
variable {R : Type*} [IntCast R]

def PID_TUNE_START_VALUE : R := ((100 : ℤ) : R)

def PID_TUNE_NOISE : R := ((1 : ℤ) : R)

def PID_TUNE_STEP : R := ((50 : ℤ) : R)

end

def PID_TUNE_LOOP_BACK : ℤ := 20

namespace PIDAT

open Blocks (readAt storeAt)

variable {R : Type*}

/-- A `PID_AT` of zeros. -/
def zeroed [Zero R] : PIDAT R where
  isMax := false
  isMin := false
  setpoint := 0
  noiseBand := 0
  running := false
  peak1 := ⟨0, 0⟩
  peak2 := ⟨0, 0⟩
  lastTime := ⟨0, 0⟩
  sampleTime := ⟨0, 0⟩
  nLookBack := 0
  peakType := 0
  lastInputs := Vector.replicate 101 0
  peaks := Vector.replicate 10 0
  peakCount := 0
  justchanged := false
  justevaled := false
  absMax := 0
  absMin := 0
  oStep := 0
  outputStart := 0
  Ku := 0
  Pu := 0

section Arithmetic
variable [Add R] [Sub R] [Mul R] [Div R] [IntCast R]

/-- A decimal fraction. -/
def frac (a b : ℤ) : R := (a : R) / (b : R)

/-- The gains of both exits; they differ in how they compute `Pu`. -/
def tuned (Pu : R) (s : PIDAT R) (p : PID R) : PIDAT R × PID R :=
  let Ku := ((4 : ℤ) : R) * (((2 : ℤ) : R) * s.oStep) /
    ((s.absMax - s.absMin) * frac 314159 100000)
  ({ s with Ku, Pu, running := false }, { p with
    kp := frac 6 10 * Ku
    ki := frac 12 10 * Ku / Pu
    kd := frac 75 1000 * Ku * Pu })

/-- `Pu` of the exit that is taken when more than nine peaks were counted. -/
def peakCountPu (s : PIDAT R) : R :=
  (((s.peak1.tv_sec - s.peak2.tv_sec : ℤ) : R) +
    ((s.peak1.tv_nsec - s.peak2.tv_nsec : ℤ) : R) * NANO_FACTOR) / ((1000 : ℤ) : R)

/-- `Pu` of the exit that is taken when the peaks have converged. -/
def convergencePu (s : PIDAT R) : R :=
  (((s.peak1.tv_sec - s.peak2.tv_sec) + (s.peak1.tv_nsec - s.peak2.tv_nsec) : ℤ) : R) /
    ((1000 : ℤ) : R)

def peakCountExit (s : PIDAT R) (p : PID R) : PIDAT R × PID R := s.tuned s.peakCountPu p

def convergenceExit (s : PIDAT R) (p : PID R) : PIDAT R × PID R := s.tuned s.convergencePu p

/-- The working variables of a new tuning. -/
def start (input : R) (s : PIDAT R) : PIDAT R :=
  let value := if PID_TUNE_LOOP_BACK < 1 then 1 else PID_TUNE_LOOP_BACK
  { s with
    noiseBand := PID_TUNE_NOISE
    oStep := PID_TUNE_STEP
    nLookBack := if value < 25 then value * 4 else 100
    sampleTime := if value < 25 then ⟨250, 0⟩ else ⟨value * 10, 0⟩
    peakType := 0
    peakCount := 0
    justchanged := false
    absMax := input
    absMin := input
    setpoint := input
    running := true
    outputStart := PID_TUNE_START_VALUE }

variable [LT R] [DecidableLT R]

def track (input : R) (s : PIDAT R) : PIDAT R :=
  { s with
    absMax := if input > s.absMax then input else s.absMax
    absMin := if input < s.absMin then input else s.absMin }

/-- The output for the input's relation to the setpoint. -/
def oscillate (input output : R) (s : PIDAT R) : R :=
  if input > s.setpoint + s.noiseBand then s.outputStart - s.oStep
  else if input < s.setpoint - s.noiseBand then s.outputStart + s.oStep
  else output

end Arithmetic

section Peaks
variable [LT R] [DecidableLT R]

/-- The loop over the last inputs, from the oldest on; it moves them one place on. -/
def lookBack (input : R) : ℕ → PIDAT R → Option (PIDAT R)
  | 0, s => some s
  | i + 1, s => do
    let val ← readAt s.lastInputs i
    let lastInputs ← storeAt s.lastInputs (i + 1) val
    lookBack input i { s with
      isMax := s.isMax && decide (input > val)
      isMin := s.isMin && decide (input < val)
      lastInputs }

/-- Whether the input is a peak of the last inputs, to which it is added. -/
def remember (input : R) (s : PIDAT R) : Option (PIDAT R) := do
  let s ← lookBack input s.nLookBack.toNat { s with isMax := true, isMin := true }
  let lastInputs ← storeAt s.lastInputs 0 input
  some { s with lastInputs }

end Peaks

/-- The peak type becomes that of a maximum. -/
def toMax (s : PIDAT R) : PIDAT R :=
  let s := if s.peakType = 0 then { s with peakType := 1 } else s
  if s.peakType = -1 then { s with peakType := 1, justchanged := true, peak2 := s.peak1 } else s

/-- The peak type becomes that of a minimum; behind a maximum it counts. -/
def toMin (s : PIDAT R) : PIDAT R :=
  let s := if s.peakType = 0 then { s with peakType := -1 } else s
  if s.peakType = 1 then
    { s with peakType := -1, peakCount := s.peakCount + 1, justchanged := true }
  else s

/-- The place of a maximum in `peaks` is not checked. -/
def maximum (input : R) (now : Timespec) (s : PIDAT R) : Option (PIDAT R) :=
  (storeAt s.toMax.peaks s.toMax.peakCount input).map fun peaks =>
    { s.toMax with peak1 := now, peaks }

def minimum (input : R) (s : PIDAT R) : Option (PIDAT R) :=
  -- the tenth minimum is counted, and has no place
  if s.toMin.peakCount < 10 then
    (storeAt s.toMin.peaks s.toMin.peakCount input).map fun peaks => { s.toMin with peaks }
  else some s.toMin

def peak (input : R) (now : Timespec) (s : PIDAT R) : Option (PIDAT R) :=
  if s.isMax then s.maximum input now else if s.isMin then s.minimum input else some s

section Converged
variable [Sub R] [IntCast R]

/-- `abs` takes and returns an `int`, so that the sum is halved as one. -/
def avgSeparation (int : R → ℤ) (s : PIDAT R) : Option R := do
  let last ← readAt s.peaks (s.peakCount - 1)
  let middle ← readAt s.peaks (s.peakCount - 2)
  let first ← readAt s.peaks (s.peakCount - 3)
  let separation := (int (last - middle)).natAbs + (int (middle - first)).natAbs
  some (((separation / 2 : ℕ) : ℤ) : R)

variable [Mul R] [Div R] [LT R] [DecidableLT R]

/-- The peak type has changed and the last peaks are near each other. -/
def converged (int : R → ℤ) (s : PIDAT R) : Option Bool :=
  if s.justchanged && decide (s.peakCount > 2) then
    (s.avgSeparation int).map fun avg => decide (avg < frac 5 100 * (s.absMax - s.absMin))
  else some false

end Converged

end PIDAT

variable {R : Type*} [Add R] [Sub R] [Mul R] [Div R] [IntCast R] [LT R] [DecidableLT R]

/-- What follows the search for a peak. -/
def PIDAT.finish (int : R → ℤ) (p : PID R) (output : R) (s : PIDAT R) : Option (TuneResult R) :=
  (s.converged int).map fun done =>
    if done then ⟨true, (s.convergenceExit p).1, (s.convergenceExit p).2, s.outputStart⟩
    else ⟨false, { s with justchanged := false }, p, output⟩

/-- The variables with which a tuning begins, or goes on. -/
def PIDAT.sampled (input : R) (now : Timespec) (s : PIDAT R) : PIDAT R :=
  let s := { s with lastTime := now, justevaled := true }
  if s.running then s.track input else s.start input

/-- A call that takes a sample. -/
def PIDAT.sample (int : R → ℤ) (p : PID R) (input output : R) (now : Timespec) (s : PIDAT R) :
    Option (TuneResult R) := do
  -- a new tuning steps the output up, before the input is compared with its own setpoint
  let first := !s.running
  let s := s.sampled input now
  let output := s.oscillate input (if first then s.outputStart + s.oStep else output)
  let s ← s.remember input
  if s.nLookBack < 9 then some ⟨false, s, p, output⟩
  else (s.peak input now).bind fun s => s.finish int p output

/-- `now` is the reading of the clock. -/
def pidAutoTune (int : R → ℤ) (s : PIDAT R) (p : PID R) (input output : R) (now : Timespec) :
    Option (TuneResult R) :=
  let s := { s with justevaled := false }
  if decide (s.peakCount > 9) && s.running then
    some ⟨true, (s.peakCountExit p).1, (s.peakCountExit p).2, s.outputStart⟩
  -- it is not yet time for the next sample
  else if timespeccmp (timespecsub now s.lastTime) s.sampleTime (fun x y => decide (x < y)) then
    some ⟨false, s, p, output⟩
  else s.sample int p input output now

namespace PIDAT

/-- What a call is given, and the reading of the clock. -/
structure Call (R : Type*) where
  p : PID R
  input : R
  output : R
  now : Timespec
deriving DecidableEq, Repr

/-- A call on one `PID_AT`. -/
def call (int : R → ℤ) (s : PIDAT R) (c : Call R) : Option (PIDAT R × List (TuneResult R)) :=
  (pidAutoTune int s c.p c.input c.output c.now).map fun r => (r.pidAt, [r])

end PIDAT

end Regonf
