import Regonf.Timef

/-! `pid` of `lib/pid.c`, with the clock reading that it takes as an argument. The arithmetic
is that of `R`. -/
namespace Regonf

/-- The character `mode` of a `PID`: `PID_MODE_HEATER`, `PID_MODE_COOLER` or another one. -/
inductive PidMode where
  | heater | cooler | other
deriving DecidableEq, Repr

structure PID (R : Type*) where
  integral_error : R
  previous_error : R
  kp : R
  ki : R
  kd : R
  previous_output : R
  previous_time : Timespec
  reset : Bool
  mode : PidMode
deriving DecidableEq, Repr

variable {R : Type*} [Add R] [Sub R] [Mul R] [Div R] [IntCast R]

def NANO_FACTOR : R := ((1 : ℤ) : R) / ((1000000000 : ℤ) : R)

/-- The seconds from the last call to `now`. -/
def PID.dt (p : PID R) (now : Timespec) : R :=
  ((now.tv_sec - p.previous_time.tv_sec : ℤ) : R) +
    ((now.tv_nsec - p.previous_time.tv_nsec : ℤ) : R) * NANO_FACTOR

/-- The output for an error, its integral and its derivative. -/
def PID.output (p : PID R) (error integral_error derrivitive_error : R) : R :=
  match p.mode with
  | .cooler =>
    p.kp * ((-1 : ℤ) : R) * error + p.ki * ((-1 : ℤ) : R) * integral_error +
      p.kd * ((-1 : ℤ) : R) * derrivitive_error
  | _ => p.kp * error + p.ki * integral_error + p.kd * derrivitive_error

variable [Zero R] [LT R] [DecidableLT R]

def pid (p : PID R) (set_point input : R) (now : Timespec) : R × PID R :=
  if p.reset then
    (0, { p with
      integral_error := 0, previous_error := 0, previous_time := now, reset := false
      previous_output := 0 })
  -- the clock has gone back
  else if p.dt now < 0 then (p.previous_output, { p with previous_time := now })
  else
    let dt := p.dt now
    let error := set_point - input
    let integral_error := p.integral_error + error * dt
    let output := p.output error integral_error ((error - p.previous_error) / dt)
    (output, { p with
      integral_error, previous_error := error, previous_time := now
      previous_output := output })

end Regonf
