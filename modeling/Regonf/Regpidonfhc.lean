import Regonf.Pid
import Regonf.Regonfhc

/-! `lib/regpidonfhc.c`: the regulator with a heater and a cooler each of which works on-off
or by a PID controller. Its parts carry the names of `lib/regonfhc.c` in a namespace of
their own. -/
namespace Regonf

def REG_MODE_PID_STR : String := "pid"
def REG_MODE_ONF_STR : String := "onf"

/-- `mode` is `REG_MODE_PID` or `REG_MODE_ONF`. -/
structure RegPIDOnfHCEM (R : Type*) where
  em : EM R
  delta : R
  pid : PID R
  output : R
  mode : StateReg
  use : Bool
deriving DecidableEq, Repr

structure RegPIDOnfHC (R : Type*) where
  sensor : SensorFTS R
  heater : RegPIDOnfHCEM R
  cooler : RegPIDOnfHCEM R
  goal : R
  change_gap : Timespec
  secure_out : RegSecure R
  green_light : GreenLight R
  state : StateReg
  state_r : StateReg
  state_onf : StateReg
  output : R
  snsrf_count : ℕ
  tmr : TonTs
deriving DecidableEq, Repr

variable {R : Type*}

def RegPIDOnfHC.em (item : RegPIDOnfHC R) : EMName → RegPIDOnfHCEM R
  | .heater => item.heater
  | .cooler => item.cooler

def RegPIDOnfHC.setEM (item : RegPIDOnfHC R) (n : EMName) (e : RegPIDOnfHCEM R) :
    RegPIDOnfHC R :=
  match n with
  | .heater => { item with heater := e }
  | .cooler => { item with cooler := e }

namespace Regpidonfhc

/-- A regulator and the requests it has sent so far. -/
structure Wire (R : Type*) where
  item : RegPIDOnfHC R
  sent : List (Request R)

/-- What the environment answers during one call of `regpidonfhc_control`. `snsrAgain` is the
second sensor read of `REG_INIT`, `pidNow` the clock reading of `pid`. -/
structure ControlInput (R : Type*) extends Regonf.ControlInput R where
  snsrAgain : Reply R
  pidNow : Timespec

def Wire.upd (w : Wire R) (f : RegPIDOnfHC R → RegPIDOnfHC R) : Wire R :=
  { w with item := f w.item }

def controlEM (w : Wire R) (n : EMName) (output : R) : Wire R :=
  let e := w.item.em n
  if e.use then
    { item := w.item.setEM n { e with em := acpSetEMFloat e.em output, output := output }
      sent := w.sent ++ [.setFloat n output e.em.peer.addr] }
  else w

def readSensor (w : Wire R) (r : Reply R) : Wire R :=
  { item := { w.item with sensor := readSensorFTS w.item.sensor r }
    sent := w.sent ++ [.getFTS .sensor w.item.sensor.peer.addr] }

def greenLightIsGreen [BEq R] (w : Wire R) (r : Reply R) : Bool × Wire R :=
  let g := w.item.green_light
  if g.active then
    let s := readSensorFTS g.sensor r
    (r.fts?.isSome && s.value.value == g.green_value,
      { item := { w.item with green_light := { g with sensor := s } }
        sent := w.sent ++ [.getFTS .greenLight g.sensor.peer.addr] })
  else (true, w)

variable [Zero R]

/-- `REG_INIT` after a successful reading, before a mechanism is chosen. -/
def initReset (w : Wire R) : Wire R :=
  let w := w.upd fun i => { i with tmr := { i.tmr with ready := false } }
  let w := controlEM w .heater 0
  let w := controlEM w .cooler 0
  w.upd fun i =>
    { i with
      output := 0, snsrf_count := 0
      heater := { i.heater with pid := { i.heater.pid with mode := .heater, reset := true } }
      cooler := { i.cooler with pid := { i.cooler.pid with mode := .cooler, reset := true } }
      state_onf := .regWait, state := .regBusy }

/-- `REG_BUSY` after a failed reading. -/
def busyFailed (w : Wire R) : Wire R :=
  if w.item.snsrf_count > SNSRF_COUNT_MAX then
    let w := controlEM w .heater 0
    let w := controlEM w .cooler 0
    w.upd fun i => { i with output := 0, state := .regInit }
  else w.upd fun i => { i with snsrf_count := i.snsrf_count + 1 }

def controlSecure (w : Wire R) (inp : ControlInput R) : Wire R :=
  let w := controlEM w .heater w.item.secure_out.heater_duty_cycle
  let w := controlEM w .cooler w.item.secure_out.cooler_duty_cycle
  let s := regSecureNeed w.item.secure_out inp.secFirst inp.secNow
  w.upd fun i => { i with secure_out := s.2, state := if s.1 then i.state else .regBusy }

def controlDisable (w : Wire R) : Wire R :=
  let w := controlEM w .heater 0
  let w := controlEM w .cooler 0
  w.upd fun i =>
    { i with
      heater := { i.heater with output := 0 }
      cooler := { i.cooler with output := 0 }
      tmr := { i.tmr with ready := false }, output := 0
      state_r := .regOff, state_onf := .regOff, state := .regOff }

/-- The check of the watchdog that ends a `REG_BUSY` step with a reading. -/
def busySecure (w : Wire R) (inp : ControlInput R) : Wire R :=
  let s := regSecureNeed w.item.secure_out inp.secFirst inp.secNow
  w.upd fun i => { i with secure_out := s.2, state := if s.1 then .regSecure else i.state }

section
variable [LT R] [DecidableLT R]

/-- The end of `REG_INIT`. With both mechanisms in use the sensor is read once more. -/
def controlInitDone (w : Wire R) (inp : ControlInput R) : Wire R :=
  let w := initReset w
  if w.item.heater.use && w.item.cooler.use then
    let w := readSensor w inp.snsrAgain
    if inp.snsrAgain.fts?.isSome then
      w.upd fun i =>
        { i with
          state_r := if i.sensor.value.value > i.goal then .regCooler else .regHeater }
    -- `state_r` stays what it was
    else w
  else if w.item.heater.use && !w.item.cooler.use then
    w.upd fun i => { i with state_r := .regHeater }
  else if !w.item.heater.use && w.item.cooler.use then
    w.upd fun i => { i with state_r := .regCooler }
  else w.upd fun i => { i with state := .regDisable }

def controlInit [BEq R] (w : Wire R) (inp : ControlInput R) : Wire R :=
  let g := greenLightIsGreen w inp.green
  if !g.1 then g.2
  else if inp.snsr.fts?.isNone then readSensor g.2 inp.snsr
  else controlInitDone (readSensor g.2 inp.snsr) inp

variable [Add R] [Sub R]

/-- `VAL_IS_OUT_H` and `VAL_IS_OUT_C`. -/
def valIsOut (item : RegPIDOnfHC R) : EMName → Bool
  | .heater => item.sensor.value.value > item.goal + item.heater.delta
  | .cooler => item.sensor.value.value < item.goal - item.cooler.delta

/-- The reading asks for the mechanism to be switched on (`REG_WAIT` to `REG_DO`). -/
def valIsLow (item : RegPIDOnfHC R) : EMName → Bool
  | .heater => item.sensor.value.value < item.goal - item.heater.delta
  | .cooler => item.sensor.value.value > item.goal + item.cooler.delta

/-- The `value_is_out` of `REG_BUSY`: a PID mechanism is done when the output it is to get has
turned negative. -/
def valueIsOut (item : RegPIDOnfHC R) (n : EMName) : Bool :=
  match (item.em n).mode with
  | .regModePid => item.output < 0
  | .regModeOnf => valIsOut item n
  | _ => false

/-- The part of `REG_BUSY` that may hand over from `n` to the other mechanism. -/
def busyChange (w : Wire R) (n : EMName) (inp : ControlInput R) : Wire R :=
  if valueIsOut w.item n && (w.item.em n.other).use then
    let t := tonTs w.item.change_gap w.item.tmr inp.gapFirst inp.gapNow
    let w := w.upd fun i => { i with tmr := t.2 }
    if t.1 then controlEM (w.upd fun i => { i with state_r := n.other.state }) n 0 else w
  else w.upd fun i => { i with tmr := { i.tmr with ready := false } }

/-- The `switch (item->state_onf)` of `REG_BUSY`. -/
def busyOnf (item : RegPIDOnfHC R) (n : EMName) : RegPIDOnfHC R :=
  match item.state_onf with
  | .regDo =>
    { item with
      state_onf := if valIsOut item n then .regWait else .regDo
      output := (item.em n).em.pwm_rsl }
  | .regWait =>
    { item with state_onf := if valIsLow item n then .regDo else .regWait, output := 0 }
  | _ => item

variable [Mul R] [Div R] [IntCast R]

/-- `item->output = pid(&reg_em->pid, item->goal, item->sensor.value.value)`. -/
def busyPid (item : RegPIDOnfHC R) (n : EMName) (now : Timespec) : RegPIDOnfHC R :=
  let r := pid (item.em n).pid item.goal item.sensor.value.value now
  { item.setEM n { item.em n with pid := r.2 } with output := r.1 }

/-- The `switch (reg_em->mode)` of `REG_BUSY`. -/
def busyOutput (item : RegPIDOnfHC R) (n : EMName) (now : Timespec) : RegPIDOnfHC R :=
  match (item.em n).mode with
  | .regModePid => busyPid item n now
  | .regModeOnf => busyOnf item n
  | _ => item

/-- The new output and the two commands of `REG_BUSY`, with `reg_em` at `m`. -/
def busyDrive (w : Wire R) (m : EMName) (now : Timespec) : Wire R :=
  let w := w.upd fun i => busyOutput i m now
  let w := controlEM w m w.item.output
  controlEM w m.other 0

/-- `REG_BUSY` after a successful reading. When `state_r` names no mechanism the code
dereferences a null pointer, and the result is undefined. -/
def busyRegulate (w : Wire R) (inp : ControlInput R) : Option (Wire R) :=
  match EMName.ofState? w.item.state_r with
  | none => none
  | some n =>
    let w := busyChange w n inp
    -- `reg_em` follows a handover
    let m := (EMName.ofState? w.item.state_r).getD n
    some (busySecure (busyDrive w m inp.pidNow) inp)

def controlBusy (w : Wire R) (inp : ControlInput R) : Option (Wire R) :=
  let w := readSensor w inp.snsr
  if inp.snsr.fts?.isSome then
    busyRegulate (w.upd fun i => { i with snsrf_count := 0 }) inp
  else some (busyFailed w)

def regpidonfhcControl [BEq R] (w : Wire R) (inp : ControlInput R) : Option (Wire R) :=
  match w.item.state with
  | .regInit => some (controlInit w inp)
  | .regBusy => controlBusy w inp
  | .regSecure => some (controlSecure w inp)
  | .regDisable => some (controlDisable w)
  | .regOff => some w
  | _ => some (w.upd fun i => { i with state := .regOff })

end

def regpidonfhcEnable (item : RegPIDOnfHC R) : RegPIDOnfHC R := { item with state := .regInit }

def regpidonfhcDisable (item : RegPIDOnfHC R) : RegPIDOnfHC R :=
  { item with state := .regDisable }

/-- The guard tests the mode of the heater, as in the next function. -/
def regpidonfhcSetCoolerDelta (item : RegPIDOnfHC R) (value : R) : RegPIDOnfHC R :=
  { item with
    cooler := { item.cooler with delta := value }
    state := if item.state = .regBusy ∧ item.heater.mode = .regModeOnf ∧
      item.state_r = .regCooler then .regInit else item.state }

def regpidonfhcSetHeaterDelta (item : RegPIDOnfHC R) (value : R) : RegPIDOnfHC R :=
  { item with
    heater := { item.heater with delta := value }
    state := if item.state = .regBusy ∧ item.heater.mode = .regModeOnf ∧
      item.state_r = .regHeater then .regInit else item.state }

/-- Change the PID data of a mechanism. -/
def updPid (item : RegPIDOnfHC R) (n : EMName) (f : PID R → PID R) : RegPIDOnfHC R :=
  item.setEM n { item.em n with pid := f (item.em n).pid }

def regpidonfhcSetHeaterKp (item : RegPIDOnfHC R) (value : R) : RegPIDOnfHC R :=
  updPid item .heater fun p => { p with kp := value }

def regpidonfhcSetHeaterKi (item : RegPIDOnfHC R) (value : R) : RegPIDOnfHC R :=
  updPid item .heater fun p => { p with ki := value }

def regpidonfhcSetHeaterKd (item : RegPIDOnfHC R) (value : R) : RegPIDOnfHC R :=
  updPid item .heater fun p => { p with kd := value }

def regpidonfhcSetCoolerKp (item : RegPIDOnfHC R) (value : R) : RegPIDOnfHC R :=
  updPid item .cooler fun p => { p with kp := value }

def regpidonfhcSetCoolerKi (item : RegPIDOnfHC R) (value : R) : RegPIDOnfHC R :=
  updPid item .cooler fun p => { p with ki := value }

def regpidonfhcSetCoolerKd (item : RegPIDOnfHC R) (value : R) : RegPIDOnfHC R :=
  updPid item .cooler fun p => { p with kd := value }

def regpidonfhcSetGoal (item : RegPIDOnfHC R) (value : R) : RegPIDOnfHC R :=
  { item with goal := value }

/-- The mode that a string names by its first three characters. -/
def modeOfStr (value : String) : Option StateReg :=
  if value.toList.take 3 = REG_MODE_PID_STR.toList then some .regModePid
  else if value.toList.take 3 = REG_MODE_ONF_STR.toList then some .regModeOnf
  else none

/-- `regpidonfhc_setHeaterMode` and `regpidonfhc_setCoolerMode`: a string that names no mode
changes nothing. -/
def setMode (item : RegPIDOnfHC R) (n : EMName) (value : String) : RegPIDOnfHC R :=
  match modeOfStr value with
  | none => item
  | some m =>
    let item := item.setEM n { item.em n with mode := m }
    { item with
      state := if item.state = .regBusy ∧ item.state_r = n.state then .regInit
        else item.state }

def regpidonfhcSetHeaterMode (item : RegPIDOnfHC R) (value : String) : RegPIDOnfHC R :=
  setMode item .heater value

def regpidonfhcSetCoolerMode (item : RegPIDOnfHC R) (value : String) : RegPIDOnfHC R :=
  setMode item .cooler value

def regpidonfhcSetChangeGap (item : RegPIDOnfHC R) (value : ℤ) : RegPIDOnfHC R :=
  { item with change_gap := ⟨value, 0⟩ }

def regpidonfhcSecureOutTouch (item : RegPIDOnfHC R) : RegPIDOnfHC R :=
  { item with secure_out := regSecureTouch item.secure_out }

/-- Set the two `use` flags. -/
def setUse (item : RegPIDOnfHC R) (heater cooler : Bool) : RegPIDOnfHC R :=
  { item with
    heater := { item.heater with use := heater }
    cooler := { item.cooler with use := cooler } }

def regpidonfhcSetEMMode (w : Wire R) (value : String) : Wire R :=
  let w :=
    if value = REG_EM_MODE_COOLER_STR then
      (controlEM w .heater 0).upd fun i => setUse i false true
    else if value = REG_EM_MODE_HEATER_STR then
      (controlEM w .cooler 0).upd fun i => setUse i true false
    else if value = REG_EM_MODE_BOTH_STR then w.upd fun i => setUse i true true
    else (controlEM (controlEM w .heater 0) .cooler 0).upd fun i => setUse i false false
  w.upd fun i => { i with state := if i.state = .regBusy then .regInit else i.state }

def regpidonfhcSetHeaterPower (w : Wire R) (value : R) : Wire R :=
  (controlEM w .heater value).upd fun i => { i with output := i.heater.output }

def regpidonfhcSetCoolerPower (w : Wire R) (value : R) : Wire R :=
  (controlEM w .cooler value).upd fun i => { i with output := i.cooler.output }

def regpidonfhcTurnOff (w : Wire R) : Wire R :=
  let w := w.upd fun i => { i with state := .regOff }
  controlEM (controlEM w .cooler 0) .heater 0

/-- The operations of `lib/regpidonfhc.h`. -/
inductive Op (R : Type*) where
  | enable
  | disable
  | setCoolerDelta (value : R)
  | setHeaterDelta (value : R)
  | setHeaterKp (value : R)
  | setHeaterKi (value : R)
  | setHeaterKd (value : R)
  | setCoolerKp (value : R)
  | setCoolerKi (value : R)
  | setCoolerKd (value : R)
  | setGoal (value : R)
  | setHeaterMode (value : String)
  | setCoolerMode (value : String)
  | setEMMode (value : String)
  | setChangeGap (value : ℤ)
  | setHeaterPower (value : R)
  | setCoolerPower (value : R)
  | turnOff
  | secureOutTouch
deriving DecidableEq, Repr

def applyOp (w : Wire R) : Op R → Wire R
  | .enable => w.upd regpidonfhcEnable
  | .disable => w.upd regpidonfhcDisable
  | .setCoolerDelta v => w.upd fun i => regpidonfhcSetCoolerDelta i v
  | .setHeaterDelta v => w.upd fun i => regpidonfhcSetHeaterDelta i v
  | .setHeaterKp v => w.upd fun i => regpidonfhcSetHeaterKp i v
  | .setHeaterKi v => w.upd fun i => regpidonfhcSetHeaterKi i v
  | .setHeaterKd v => w.upd fun i => regpidonfhcSetHeaterKd i v
  | .setCoolerKp v => w.upd fun i => regpidonfhcSetCoolerKp i v
  | .setCoolerKi v => w.upd fun i => regpidonfhcSetCoolerKi i v
  | .setCoolerKd v => w.upd fun i => regpidonfhcSetCoolerKd i v
  | .setGoal v => w.upd fun i => regpidonfhcSetGoal i v
  | .setHeaterMode v => w.upd fun i => regpidonfhcSetHeaterMode i v
  | .setCoolerMode v => w.upd fun i => regpidonfhcSetCoolerMode i v
  | .setEMMode v => regpidonfhcSetEMMode w v
  | .setChangeGap v => w.upd fun i => regpidonfhcSetChangeGap i v
  | .setHeaterPower v => regpidonfhcSetHeaterPower w v
  | .setCoolerPower v => regpidonfhcSetCoolerPower w v
  | .turnOff => regpidonfhcTurnOff w
  | .secureOutTouch => w.upd regpidonfhcSecureOutTouch

inductive Input (R : Type*) where
  | control (inp : ControlInput R)
  | op (o : Op R)

/-- One control step or one operation, with the requests it sends. -/
def step [Add R] [Sub R] [Mul R] [Div R] [IntCast R] [LT R] [DecidableLT R] [BEq R]
    (item : RegPIDOnfHC R) : Input R → Option (RegPIDOnfHC R × List (Request R))
  | .control inp => (regpidonfhcControl ⟨item, []⟩ inp).map fun w => (w.item, w.sent)
  | .op o => let w := applyOp ⟨item, []⟩ o; some (w.item, w.sent)

/-- A zeroed regulator with any configuration; the program that holds it may have enabled or
disabled it already. -/
structure Loaded (item : RegPIDOnfHC R) : Prop where
  state : item.state = .regOff ∨ item.state = .regInit ∨ item.state = .regDisable
  state_r : item.state_r = .regOff
  state_onf : item.state_onf = .regOff
  heater_output : item.heater.output = 0
  cooler_output : item.cooler.output = 0
  output : item.output = 0
  snsrf_count : item.snsrf_count = 0
  tmr : item.tmr.ready = false
  secure_tmr : item.secure_out.tmr.ready = false
  secure_done : item.secure_out.done = false
  error_code : item.secure_out.error_code = 0

/-- The program of the on-off regulator with modes and PID data. -/
def exampleProg (heater cooler : StateReg) : RegPIDOnfHC ℤ :=
  let p := Regonf.exampleProg
  let pid : PID ℤ := ⟨0, 0, 1, 0, 0, 0, ⟨0, 0⟩, false, .other⟩
  let em (e : RegOnfHCEM ℤ) (mode : StateReg) : RegPIDOnfHCEM ℤ :=
    ⟨e.em, e.delta, pid, e.output, mode, e.use⟩
  { sensor := p.sensor, heater := em p.heater heater, cooler := em p.cooler cooler
    goal := p.goal, change_gap := p.change_gap, secure_out := p.secure_out
    green_light := p.green_light, state := p.state, state_r := p.state_r
    state_onf := p.state_onf, output := p.output, snsrf_count := p.snsrf_count, tmr := p.tmr }

def exampleReading (sec : ℤ) (value again : Option ℤ) : ControlInput ℤ :=
  { Regonf.exampleReading sec value with
    snsrAgain := (Regonf.exampleReading sec again).snsr, pidNow := ⟨sec, 0⟩ }

theorem exampleProg_loaded (heater cooler : StateReg) : Loaded (exampleProg heater cooler) :=
  ⟨Or.inr (Or.inl rfl), rfl, rfl, rfl, rfl, rfl, rfl, rfl, rfl, rfl, rfl⟩

end Regpidonfhc

end Regonf
