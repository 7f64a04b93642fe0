import Mathlib.Algebra.Order.Field.Rat
import Mathlib.Tactic.NormNum
import Regonf.Lib.Controller
import Regonf.Pid

/-! The other three controllers of `lib/pid.c`: `pidwt` has the time from outside, and the output of
`pid_mx` and `pidwt_mx` is limited. -/
namespace Regonf

open Controller

/-- A `PID` with its limits. -/
structure PIDMx (R : Type*) extends PID R where
  max_output : R
  min_output : R
deriving DecidableEq, Repr

variable {R : Type*}

def stopPid (p : PIDMx R) : PIDMx R := { p with reset := true }

variable [Add R] [Sub R] [Mul R] [Div R] [IntCast R] [Zero R] [LT R] [DecidableLT R]

def pid_mx (p : PIDMx R) (set_point input : R) (now : Timespec) : R × PIDMx R :=
  if p.reset then
    (0, { p with
      integral_error := 0, previous_error := 0, previous_time := now, reset := false
      previous_output := 0 })
  -- the clock has gone back
  else if p.dt now < 0 then (p.previous_output, { p with previous_time := now })
  else
    let dt := p.dt now
    let error := set_point - input
    let integral_error := p.integral_error + error * dt
    let output := p.output error integral_error ((error - p.previous_error) / dt)
    let p := { p with previous_error := error, previous_time := now }
    let (output, p) :=
      if p.max_output < output then (p.max_output, p)
      else if output < p.min_output then (p.min_output, p)
      else (output, { p with integral_error })
    (output, { p with previous_output := output })

/-- It does not ask whether the time has gone back. -/
def pidwt (p : PID R) (set_point input : R) (tm : Timespec) : R × PID R :=
  if p.reset then
    (0, { p with
      integral_error := 0, previous_error := 0, previous_time := tm, reset := false
      previous_output := 0 })
  else
    let dt := p.dt tm
    let error := set_point - input
    let integral_error := p.integral_error + error * dt
    let output := p.output error integral_error ((error - p.previous_error) / dt)
    (output, { p with
      integral_error, previous_error := error, previous_time := tm
      previous_output := output })

def pidwt_mx (p : PIDMx R) (set_point input : R) (tm : Timespec) : R × PIDMx R :=
  if p.reset then
    (0, { p with
      integral_error := 0, previous_error := 0, previous_time := tm, reset := false
      previous_output := 0 })
  -- the time has gone back
  else if p.dt tm < 0 then (p.previous_output, { p with previous_time := tm })
  else
    let dt := p.dt tm
    let error := set_point - input
    let integral_error := p.integral_error + error * dt
    let output := p.output error integral_error ((error - p.previous_error) / dt)
    let p := { p with previous_error := error, previous_time := tm }
    let (output, p) :=
      if p.max_output < output then (p.max_output, p)
      else if output < p.min_output then (p.min_output, p)
      else (output, { p with integral_error })
    (output, { p with previous_output := output })

/-- A function of set point, input and time as a controller. -/
def answer {P : Type*} (f : P → R → R → Timespec → R × P) (p : P) (i : R × R × Timespec) :
    Option (P × List R) :=
  some ((f p i.1 i.2.1 i.2.2).2, [(f p i.1 i.2.1 i.2.2).1])

theorem pid_eq_pidwt {p : PID R} {tm : Timespec} (h : p.reset = true ∨ ¬p.dt tm < 0)
    (set_point input : R) : pid p set_point input tm = pidwt p set_point input tm := by
  unfold pid pidwt
  rcases h with hreset | hdt
  · rw [if_pos hreset, if_pos hreset]
  · rw [if_neg hdt]

theorem pid_mx_eq_pidwt_mx (p : PIDMx R) (set_point input : R) (tm : Timespec) :
    pid_mx p set_point input tm = pidwt_mx p set_point input tm := rfl

/-- The limited controllers agree in every run, and the others in every run in which no time is
before the last one, resets apart. -/
theorem inside_outside_agree (is : List (R × R × Timespec)) :
    (∀ p : PID R, Along (answer pid) (fun p _ i => p.reset = true ∨ ¬p.dt i.2.2 < 0) p [] is →
      run (answer pid) p is = run (answer pidwt) p is) ∧
    ∀ p : PIDMx R, run (answer pid_mx) p is = run (answer pidwt_mx) p is := by
  constructor
  · intro p hc
    refine run_eq_along (fun p _ i h => ?_) hc
    rw [answer, answer, pid_eq_pidwt h]
  · intro p
    have hsame : (answer pid_mx : PIDMx R → _ → _) = answer pidwt_mx := by
      funext p i
      rw [answer, answer, pid_mx_eq_pidwt_mx]
    rw [hsame]

/-- At a time before the last one `pid` returns the last output, and `pidwt` integrates. -/
theorem not_inside_outside_back :
    run (answer pid) (⟨0, 0, 0, 1, 0, 7, ⟨10, 0⟩, false, .heater⟩ : PID ℚ) [(1, 0, ⟨9, 0⟩)] =
      some (⟨0, 0, 0, 1, 0, 7, ⟨9, 0⟩, false, .heater⟩, [7]) ∧
    run (answer pidwt) (⟨0, 0, 0, 1, 0, 7, ⟨10, 0⟩, false, .heater⟩ : PID ℚ) [(1, 0, ⟨9, 0⟩)] =
      some (⟨-1, 1, 0, 1, 0, -1, ⟨9, 0⟩, false, .heater⟩, [-1]) := by
  decide +kernel

/-- The theorem before the last for a later time. -/
theorem inside_outside_agree_later :
    run (answer pid) (⟨0, 0, 0, 1, 0, 7, ⟨10, 0⟩, false, .heater⟩ : PID ℚ) [(1, 0, ⟨11, 0⟩)] =
      run (answer pidwt) ⟨0, 0, 0, 1, 0, 7, ⟨10, 0⟩, false, .heater⟩ [(1, 0, ⟨11, 0⟩)] :=
  (inside_outside_agree [(1, 0, ⟨11, 0⟩)]).1 ⟨0, 0, 0, 1, 0, 7, ⟨10, 0⟩, false, .heater⟩
    ⟨.inr (by decide +kernel), fun _ _ _ => trivial⟩

end Regonf
