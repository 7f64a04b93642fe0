import Mathlib.Algebra.Group.Defs
import Mathlib.Order.Defs.LinearOrder
import Regonf.Reg

/-! `lib/regonfhc.c` and `lib/green_light.c`: the on-off regulator with a heater and a
cooler. A function works on a `Wire`, the regulator together with the requests it has sent. -/
namespace Regonf

/-- The two executive mechanisms of a regulator. -/
inductive EMName where
  | heater | cooler
deriving DecidableEq, Repr

def EMName.other : EMName → EMName
  | .heater => .cooler
  | .cooler => .heater

/-- The value of `state_r` that names the mechanism. -/
def EMName.state : EMName → StateReg
  | .heater => .regHeater
  | .cooler => .regCooler

/-- The mechanism that the `switch (item->state_r)` of `regonfhc_control` selects. -/
def EMName.ofState? : StateReg → Option EMName
  | .regHeater => some .heater
  | .regCooler => some .cooler
  | _ => none

inductive SensorName where
  | sensor | greenLight
deriving DecidableEq, Repr

/-- A request datagram of a program, with its destination. -/
inductive Request (R : Type*) where
  | getFTS (s : SensorName) (dst : SockAddr)
  | setFloat (n : EMName) (output : R) (dst : SockAddr)
deriving DecidableEq, Repr

structure RegOnfHCEM (R : Type*) where
  em : EM R
  delta : R
  output : R
  use : Bool
deriving DecidableEq, Repr

structure GreenLight (R : Type*) where
  sensor : SensorFTS R
  green_value : R
  active : Bool
deriving DecidableEq, Repr

structure RegOnfHC (R : Type*) where
  sensor : SensorFTS R
  heater : RegOnfHCEM R
  cooler : RegOnfHCEM R
  goal : R
  change_gap : Timespec
  secure_out : RegSecure R
  green_light : GreenLight R
  state : StateReg
  state_r : StateReg
  state_onf : StateReg
  output : R
  snsrf_count : ℕ
  tmr : TonTs
deriving DecidableEq, Repr

/-- A regulator and the requests it has sent so far. -/
structure Wire (R : Type*) where
  item : RegOnfHC R
  sent : List (Request R)

/-- What the environment answers during one call of `regonfhc_control`: the reply to each
sensor read, and the clock readings of the two `ton_ts` calls. -/
structure ControlInput (R : Type*) where
  green : Reply R
  snsr : Reply R
  gapFirst : Timespec
  gapNow : Timespec
  secFirst : Timespec
  secNow : Timespec

variable {R : Type*}

def RegOnfHC.em (item : RegOnfHC R) : EMName → RegOnfHCEM R
  | .heater => item.heater
  | .cooler => item.cooler

def RegOnfHC.setEM (item : RegOnfHC R) (n : EMName) (e : RegOnfHCEM R) : RegOnfHC R :=
  match n with
  | .heater => { item with heater := e }
  | .cooler => { item with cooler := e }

def Wire.upd (w : Wire R) (f : RegOnfHC R → RegOnfHC R) : Wire R := { w with item := f w.item }

def controlEM (w : Wire R) (n : EMName) (output : R) : Wire R :=
  let e := w.item.em n
  if e.use then
    { item := w.item.setEM n { e with em := acpSetEMFloat e.em output, output := output }
      sent := w.sent ++ [.setFloat n output e.em.peer.addr] }
  else w

/-- `acp_readSensorFTS(&item->sensor)`. -/
def readSensor (w : Wire R) (r : Reply R) : Wire R :=
  { item := { w.item with sensor := readSensorFTS w.item.sensor r }
    sent := w.sent ++ [.getFTS .sensor w.item.sensor.peer.addr] }

def greenLightIsGreen [BEq R] (w : Wire R) (r : Reply R) : Bool × Wire R :=
  let g := w.item.green_light
  if g.active then
    let s := readSensorFTS g.sensor r
    (r.fts?.isSome && s.value.value == g.green_value,
      { item := { w.item with green_light := { g with sensor := s } }
        sent := w.sent ++ [.getFTS .greenLight g.sensor.peer.addr] })
  else (true, w)

section
variable [LT R] [DecidableLT R]

/-- The choice of the mechanism at the end of `REG_INIT`; `none` is `REG_DISABLE`. -/
def initChoice (item : RegOnfHC R) : Option EMName :=
  if item.heater.use && item.cooler.use then
    if item.sensor.value.value > item.goal then some .cooler else some .heater
  else if item.heater.use && !item.cooler.use then some .heater
  else if !item.heater.use && item.cooler.use then some .cooler
  else none

variable [Zero R]

/-- `REG_INIT` after a successful reading, before a mechanism is chosen. -/
def initReset (w : Wire R) : Wire R :=
  let w := w.upd fun i => { i with tmr := { i.tmr with ready := false }, state_r := .regHeater }
  -- both are commanded off before one is chosen
  let w := controlEM w .heater 0
  let w := controlEM w .cooler 0
  w.upd fun i =>
    { i with output := 0, snsrf_count := 0, state_onf := .regWait, state := .regBusy }

def controlInitDone (w : Wire R) : Wire R :=
  let w := initReset w
  match initChoice w.item with
  | some n => w.upd fun i => { i with state_r := n.state }
  | none => w.upd fun i => { i with state := .regDisable }

def controlInit [BEq R] (w : Wire R) (inp : ControlInput R) : Wire R :=
  let g := greenLightIsGreen w inp.green
  -- neither a light that is not green nor a failed reading switches anything off
  if !g.1 then g.2
  else if inp.snsr.fts?.isNone then readSensor g.2 inp.snsr
  else controlInitDone (readSensor g.2 inp.snsr)

variable [Add R] [Sub R]

/-- `VAL_IS_OUT_H` and `VAL_IS_OUT_C`. -/
def valIsOut (item : RegOnfHC R) : EMName → Bool
  | .heater => item.sensor.value.value > item.goal + item.heater.delta
  | .cooler => item.sensor.value.value < item.goal - item.cooler.delta

/-- The reading asks for the mechanism to be switched on (`REG_WAIT` to `REG_DO`). -/
def valIsLow (item : RegOnfHC R) : EMName → Bool
  | .heater => item.sensor.value.value < item.goal - item.heater.delta
  | .cooler => item.sensor.value.value > item.goal + item.cooler.delta

/-- The part of `REG_BUSY` that may hand over from `n` to the other mechanism. -/
def busyChange (w : Wire R) (n : EMName) (inp : ControlInput R) : Wire R :=
  if valIsOut w.item n && (w.item.em n.other).use then
    let t := tonTs w.item.change_gap w.item.tmr inp.gapFirst inp.gapNow
    let w := w.upd fun i => { i with tmr := t.2 }
    if t.1 then controlEM (w.upd fun i => { i with state_r := n.other.state }) n 0 else w
  else w.upd fun i => { i with tmr := { i.tmr with ready := false } }

/-- The `switch (item->state_onf)` of `REG_BUSY`. In `REG_DO` the output is set even when
the state has just gone to `REG_WAIT`. -/
def busyOnf (item : RegOnfHC R) (n : EMName) : RegOnfHC R :=
  match item.state_onf with
  | .regDo =>
    { item with
      state_onf := if valIsOut item n then .regWait else .regDo
      output := (item.em n).em.pwm_rsl }
  | .regWait =>
    { item with state_onf := if valIsLow item n then .regDo else .regWait, output := 0 }
  | _ => item

/-- The check of the watchdog that ends a `REG_BUSY` step with a reading. -/
def busySecure (w : Wire R) (inp : ControlInput R) : Wire R :=
  let s := regSecureNeed w.item.secure_out inp.secFirst inp.secNow
  w.upd fun i => { i with secure_out := s.2, state := if s.1 then .regSecure else i.state }

/-- The on-off decision and the two commands of `REG_BUSY`, with `reg_em` at `m`. -/
def busyDrive (w : Wire R) (m : EMName) : Wire R :=
  let w := w.upd fun i => busyOnf i m
  let w := controlEM w m w.item.output
  controlEM w m.other 0

/-- `REG_BUSY` after a successful reading. When `state_r` names no mechanism the code
dereferences a null pointer, and the result is undefined. -/
def busyRegulate (w : Wire R) (inp : ControlInput R) : Option (Wire R) :=
  match EMName.ofState? w.item.state_r with
  | none => none
  | some n =>
    let w := busyChange w n inp
    -- `reg_em` follows a handover
    let m := (EMName.ofState? w.item.state_r).getD n
    some (busySecure (busyDrive w m) inp)

/-- `REG_BUSY` after a failed reading. -/
def busyFailed (w : Wire R) : Wire R :=
  -- the counter is compared before it is raised
  if w.item.snsrf_count > SNSRF_COUNT_MAX then
    let w := controlEM w .heater 0
    let w := controlEM w .cooler 0
    w.upd fun i => { i with output := 0, state := .regInit }
  else w.upd fun i => { i with snsrf_count := i.snsrf_count + 1 }

def controlBusy (w : Wire R) (inp : ControlInput R) : Option (Wire R) :=
  let w := readSensor w inp.snsr
  if inp.snsr.fts?.isSome then
    busyRegulate (w.upd fun i => { i with snsrf_count := 0 }) inp
  else some (busyFailed w)

def controlSecure (w : Wire R) (inp : ControlInput R) : Wire R :=
  let w := controlEM w .heater w.item.secure_out.heater_duty_cycle
  let w := controlEM w .cooler w.item.secure_out.cooler_duty_cycle
  let s := regSecureNeed w.item.secure_out inp.secFirst inp.secNow
  w.upd fun i => { i with secure_out := s.2, state := if s.1 then i.state else .regBusy }

def controlDisable (w : Wire R) : Wire R :=
  let w := controlEM w .heater 0
  let w := controlEM w .cooler 0
  w.upd fun i =>
    { i with
      heater := { i.heater with output := 0 }
      cooler := { i.cooler with output := 0 }
      output := 0, tmr := { i.tmr with ready := false }
      state_r := .regOff, state_onf := .regOff, state := .regOff }

def regonfhcControl [BEq R] (w : Wire R) (inp : ControlInput R) : Option (Wire R) :=
  match w.item.state with
  | .regInit => some (controlInit w inp)
  | .regBusy => controlBusy w inp
  | .regSecure => some (controlSecure w inp)
  | .regDisable => some (controlDisable w)
  | .regOff => some w
  | _ => some (w.upd fun i => { i with state := .regOff })

end

def regonfhcEnable (item : RegOnfHC R) : RegOnfHC R := { item with state := .regInit }

def regonfhcDisable (item : RegOnfHC R) : RegOnfHC R := { item with state := .regDisable }

def regonfhcSetCoolerDelta (item : RegOnfHC R) (value : R) : RegOnfHC R :=
  { item with
    cooler := { item.cooler with delta := value }
    state := if item.state = .regBusy ∧ item.state_r = .regCooler then .regInit
      else item.state }

def regonfhcSetHeaterDelta (item : RegOnfHC R) (value : R) : RegOnfHC R :=
  { item with
    heater := { item.heater with delta := value }
    state := if item.state = .regBusy ∧ item.state_r = .regHeater then .regInit
      else item.state }

def regonfhcSetGoal (item : RegOnfHC R) (value : R) : RegOnfHC R := { item with goal := value }

def regonfhcSetChangeGap (item : RegOnfHC R) (value : ℤ) : RegOnfHC R :=
  { item with change_gap := ⟨value, 0⟩ }

def regonfhcSecureOutTouch (item : RegOnfHC R) : RegOnfHC R :=
  { item with secure_out := regSecureTouch item.secure_out }

/-- Set the two `use` flags. -/
def RegOnfHC.setUse (item : RegOnfHC R) (heater cooler : Bool) : RegOnfHC R :=
  { item with
    heater := { item.heater with use := heater }
    cooler := { item.cooler with use := cooler } }

variable [Zero R]

def regonfhcSetEMMode (w : Wire R) (value : String) : Wire R :=
  let w :=
    if value = REG_EM_MODE_COOLER_STR then
      (controlEM w .heater 0).upd fun i => i.setUse false true
    else if value = REG_EM_MODE_HEATER_STR then
      (controlEM w .cooler 0).upd fun i => i.setUse true false
    else if value = REG_EM_MODE_BOTH_STR then w.upd fun i => i.setUse true true
    -- any other string takes both out of use
    else (controlEM (controlEM w .heater 0) .cooler 0).upd fun i => i.setUse false false
  -- only a program in `REG_BUSY` starts over
  w.upd fun i => { i with state := if i.state = .regBusy then .regInit else i.state }

def regonfhcSetHeaterPower (w : Wire R) (value : R) : Wire R :=
  (controlEM w .heater value).upd fun i => { i with output := i.heater.output }

def regonfhcSetCoolerPower (w : Wire R) (value : R) : Wire R :=
  (controlEM w .cooler value).upd fun i => { i with output := i.cooler.output }

def regonfhcTurnOff (w : Wire R) : Wire R :=
  let w := w.upd fun i => { i with state := .regOff }
  controlEM (controlEM w .cooler 0) .heater 0

/-- The operations that the server applies to a program's regulator. -/
inductive Op (R : Type*) where
  | enable
  | disable
  | setCoolerDelta (value : R)
  | setHeaterDelta (value : R)
  | setGoal (value : R)
  | setChangeGap (value : ℤ)
  | setEMMode (value : String)
  | setHeaterPower (value : R)
  | setCoolerPower (value : R)
  | turnOff
  | secureOutTouch
deriving DecidableEq, Repr

def applyOp (w : Wire R) : Op R → Wire R
  | .enable => w.upd regonfhcEnable
  | .disable => w.upd regonfhcDisable
  | .setCoolerDelta v => w.upd fun i => regonfhcSetCoolerDelta i v
  | .setHeaterDelta v => w.upd fun i => regonfhcSetHeaterDelta i v
  | .setGoal v => w.upd fun i => regonfhcSetGoal i v
  | .setChangeGap v => w.upd fun i => regonfhcSetChangeGap i v
  | .setEMMode v => regonfhcSetEMMode w v
  | .setHeaterPower v => regonfhcSetHeaterPower w v
  | .setCoolerPower v => regonfhcSetCoolerPower w v
  | .turnOff => regonfhcTurnOff w
  | .secureOutTouch => w.upd regonfhcSecureOutTouch

inductive Input (R : Type*) where
  | control (inp : ControlInput R)
  | op (o : Op R)

/-- One control step or one operation, both under the program's mutex, with the requests
it sends. -/
def step [Add R] [Sub R] [LT R] [DecidableLT R] [BEq R] (item : RegOnfHC R) :
    Input R → Option (RegOnfHC R × List (Request R))
  | .control inp => (regonfhcControl ⟨item, []⟩ inp).map fun w => (w.item, w.sent)
  | .op o => let w := applyOp ⟨item, []⟩ o; some (w.item, w.sent)

/-- A program as `addProgById` leaves it: zeroed memory, the configuration of its row, and
`REG_INIT` or `REG_DISABLE` by the row's `enable`. -/
structure Loaded (item : RegOnfHC R) : Prop where
  state : item.state = .regInit ∨ item.state = .regDisable
  state_r : item.state_r = .regOff
  state_onf : item.state_onf = .regOff
  heater_output : item.heater.output = 0
  cooler_output : item.cooler.output = 0
  output : item.output = 0
  snsrf_count : item.snsrf_count = 0
  tmr : item.tmr.ready = false
  secure_tmr : item.secure_out.tmr.ready = false
  secure_done : item.secure_out.done = false
  error_code : item.secure_out.error_code = 0

/-- Program 1 of `db/sql/insert_data_example.sql` with temperatures in tenths of a degree,
its watchdog and its green light off (the rows 1 of `secure` and 5 of `sensor_mapping` that
it names absent). -/
def exampleProg : RegOnfHC ℤ :=
  let peer : Peer := ⟨⟨0x7f000001, 49178⟩⟩
  let never : Timespec := ⟨0, 0⟩
  let em (id : ℤ) : RegOnfHCEM ℤ :=
    { em := ⟨id, id, peer, 0, 1000⟩, delta := 5, output := 0, use := true }
  let sensor (id : ℤ) : SensorFTS ℤ := ⟨id, id, peer, ⟨0, 0, never, 0⟩⟩
  { sensor := sensor 1, heater := em 1, cooler := em 2, goal := 250, change_gap := ⟨1800, 0⟩
    secure_out := ⟨0, false, never, 0, 0, ⟨never, false⟩, false, 0⟩
    green_light := ⟨sensor 0, 1, false⟩
    state := .regInit, state_r := .regOff, state_onf := .regOff
    output := 0, snsrf_count := 0, tmr := ⟨never, false⟩ }

/-- What a control step finds at `sec` seconds; the main sensor answers `value` or not at
all. -/
def exampleReading (sec : ℤ) (value : Option ℤ) : ControlInput ℤ :=
  let now : Timespec := ⟨sec, 0⟩
  { green := .timeout
    snsr := match value with
      | some v => .value ⟨0x7f000001, 49178⟩ ⟨1, v, now, 1⟩
      | none => .timeout
    gapFirst := now, gapNow := now, secFirst := now, secNow := now }

def exampleControl (sec : ℤ) (value : Option ℤ) : Input ℤ := .control (exampleReading sec value)

theorem exampleProg_loaded : Loaded exampleProg :=
  ⟨Or.inl rfl, rfl, rfl, rfl, rfl, rfl, rfl, rfl, rfl, rfl, rfl⟩

end Regonf
