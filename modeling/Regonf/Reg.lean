import Regonf.Timef

/-! `lib/reg.h`, `lib/reg.c` and the records of `lib/acp/main.h` that a regulator holds.
`R` stands for the C type `float`; nothing is assumed of its arithmetic here. -/
namespace Regonf

/-- The enumeration `StateReg`. -/
inductive StateReg where
  | regOff | regInit | regDo | regDisable | regWait | regBusy | regSecure
  | regCooler | regHeater | regModePid | regModeOnf
deriving DecidableEq, Repr

/-- The greatest `int`. -/
def INT_MAX : ℕ := 2147483647

def SNSRF_COUNT_MAX : ℕ := 7

def REG_EM_MODE_COOLER_STR : String := "cooler"
def REG_EM_MODE_HEATER_STR : String := "heater"
def REG_EM_MODE_BOTH_STR : String := "both"

/-- `PROG_ERROR_NO_SIGNAL_FROM_CLIENT` of `lib/app.h`. -/
def PROG_ERROR_NO_SIGNAL_FROM_CLIENT : UInt32 := 0x1

/-- What `struct sockaddr_in` names. -/
structure SockAddr where
  sin_addr : UInt32
  sin_port : UInt16
deriving DecidableEq, Repr

structure Peer where
  addr : SockAddr
deriving DecidableEq, Repr

structure FTS (R : Type*) where
  id : ℤ
  value : R
  tm : Timespec
  state : ℤ
deriving DecidableEq, Repr

structure SensorFTS (R : Type*) where
  id : ℤ
  remote_id : ℤ
  peer : Peer
  value : FTS R
deriving DecidableEq, Repr

structure EM (R : Type*) where
  id : ℤ
  remote_id : ℤ
  peer : Peer
  last_output : R
  pwm_rsl : R
deriving DecidableEq, Repr

/-- `RegSecure`; `error_code` is the word that the C field points to. -/
structure RegSecure (R : Type*) where
  id : ℤ
  active : Bool
  timeout : Timespec
  heater_duty_cycle : R
  cooler_duty_cycle : R
  tmr : TonTs
  done : Bool
  error_code : UInt32
deriving DecidableEq, Repr

variable {R : Type*}

/-- `reg_secureNeed`, with the two readings its `ton_ts` may take. -/
def regSecureNeed (item : RegSecure R) (first now : Timespec) : Bool × RegSecure R :=
  if !item.active then (false, item)
  else if item.done then (true, item)
  else
    let t := tonTs item.timeout item.tmr first now
    if t.1 then
      (true, { item with
        tmr := t.2, done := true
        error_code := item.error_code ||| PROG_ERROR_NO_SIGNAL_FROM_CLIENT })
    else (false, { item with tmr := t.2 })

def regSecureTouch (item : RegSecure R) : RegSecure R :=
  { item with
    done := false, tmr := tonTsReset item.tmr
    error_code := item.error_code &&& ~~~PROG_ERROR_NO_SIGNAL_FROM_CLIENT }

theorem regSecureNeed_inactive {item : RegSecure R} (h : item.active = false)
    (first now : Timespec) : regSecureNeed item first now = (false, item) := by
  simp only [regSecureNeed, h, Bool.not_false, ↓reduceIte]

/-- What one `acp_readSensorFTS` gets back: no datagram before the timeout, a datagram that
is refused, or a datagram whose row is taken. `src` is the sender of the datagram. -/
inductive Reply (R : Type*) where
  | timeout
  | refused (src : SockAddr)
  | value (src : SockAddr) (fts : FTS R)
deriving DecidableEq, Repr

def Reply.fts? : Reply R → Option (FTS R)
  | .value _ f => some f
  | _ => none

def Reply.src? : Reply R → Option SockAddr
  | .timeout => none
  | .refused src => some src
  | .value src _ => some src

/-- The effect of `acp_readSensorFTS` on the sensor. The address is the one `recvfrom`
leaves in `s->peer.addr`. -/
def readSensorFTS (s : SensorFTS R) (r : Reply R) : SensorFTS R :=
  { s with
    peer := ⟨r.src?.getD s.peer.addr⟩
    value := r.fts?.getD { s.value with state := 0 } }

/-- `acp_setEMFloat` on the record; the request it sends is delivered. -/
def acpSetEMFloat (em : EM R) (output : R) : EM R := { em with last_output := output }

end Regonf
