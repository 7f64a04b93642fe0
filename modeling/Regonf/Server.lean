import Regonf.DaemonMain
import Regonf.DbText

/-! `serverRun` of `main.c` from the datagram on: `SERVER_HEADER` and `SERVER_APP_ACTIONS` of
`lib/app.h`, the chain of commands behind them, and the lists that its branches read. What a branch
then does is a `Command`; what it answers is in another module. -/
namespace Regonf

variable {R : Type}

/-! `lib/acp/app.h`, `prog.h`, `regulator.h`, `regonf.h` and `cmd.h` -/

def ACP_CMD_APP_START : List UInt8 := ascii "ast"
def ACP_CMD_APP_STOP : List UInt8 := ascii "asp"
def ACP_CMD_APP_RESET : List UInt8 := ascii "ars"
def ACP_CMD_APP_EXIT : List UInt8 := ascii "aex"
def ACP_CMD_APP_PING : List UInt8 := ascii "apn"
def ACP_CMD_APP_PRINT : List UInt8 := ascii "apr"
def ACP_CMD_APP_HELP : List UInt8 := ascii "ahl"
def ACP_CMD_APP_TIME : List UInt8 := ascii "atm"
def ACP_CMD_PROG_STOP : List UInt8 := ascii "psp"
def ACP_CMD_PROG_START : List UInt8 := ascii "pst"
def ACP_CMD_PROG_RESET : List UInt8 := ascii "prs"
def ACP_CMD_PROG_ENABLE : List UInt8 := ascii "penl"
def ACP_CMD_PROG_DISABLE : List UInt8 := ascii "pdsl"
def ACP_CMD_PROG_SET_SAVE : List UInt8 := ascii "pssave"
def ACP_CMD_PROG_GET_DATA_RUNTIME : List UInt8 := ascii "pgdr"
def ACP_CMD_PROG_GET_DATA_INIT : List UInt8 := ascii "pgdi"
def ACP_CMD_PROG_GET_ENABLED : List UInt8 := ascii "pgenl"
def ACP_CMD_PROG_GET_ERROR : List UInt8 := ascii "pgerr"
def ACP_CMD_REG_PROG_GET_GOAL : List UInt8 := ascii "rpggoal"
def ACP_CMD_GET_FTS : List UInt8 := ascii "gfts"
def ACP_CMD_REG_PROG_SET_HEATER_POWER : List UInt8 := ascii "rpshp"
def ACP_CMD_REG_PROG_SET_COOLER_POWER : List UInt8 := ascii "rpscp"
def ACP_CMD_REG_PROG_SET_GOAL : List UInt8 := ascii "rpsgoal"
def ACP_CMD_REGONF_PROG_SET_HEATER_DELTA : List UInt8 := ascii "ronfshd"
def ACP_CMD_REGONF_PROG_SET_COOLER_DELTA : List UInt8 := ascii "ronfscd"
def ACP_CMD_REG_PROG_SET_CHANGE_GAP : List UInt8 := ascii "rpschgap"
def ACP_CMD_REG_PROG_SET_EM_MODE : List UInt8 := ascii "rpsemm"

/-- The `bufCat*` function that a query calls for each program. -/
inductive Query where
  | progRuntime | progInit | progEnabled | progGoal | progError | progFTS
deriving DecidableEq, Repr

/-- What the server takes a request for. `ignored` is a `return` that answers nothing, and `other`
is the end of the chain, where the empty response is sent. -/
inductive Handled (R : Type) where
  | command (c : Command R)
  | query (q : Query) (ids : List ℤ)
  | ping | print | help | time
  | ignored
  | other

/-- A chain of `if (ACP_CMD_IS(..))`, each with its branch, and what comes behind it. -/
def cmdChain {α : Type*} (request : ACPRequest) (other : Option α) :
    List (List UInt8 × Option α) → Option α
  | [] => other
  | (cmd, branch) :: bs =>
    -- a comparison may read behind the buffer, and then the chain is undefined
    (acpCmdcmp request cmd).bind fun is => if is then branch else cmdChain request other bs

/-- What the stack holds in the place of `i1s1_arr`, an array of as many items as asked for. -/
structure Stack where
  i1s1_arr : ℕ → List I1S1
  length (n : ℕ) : (i1s1_arr n).length = n
  size (n : ℕ) : ∀ i ∈ i1s1_arr n, i.p1.length = LINE_SIZE

/-- A C string as a `String`. -/
def ofAscii (s : List UInt8) : String := .ofList (s.map fun b => .ofNat b.toNat)

/-- The end of a `PARSE_*` macro: a list without items is a `return`. -/
def parsed {V : Type*} (list : List V) (f : List V → Handled R) : Handled R :=
  if list.length ≤ 0 then .ignored else f list

/-- `PARSE_I1LIST`, with the branch behind it. -/
def parseI1List (request : ACPRequest) (f : List ℤ → Handled R) : Option (Handled R) :=
  some (parsed (acpDataToI1List request.data_rows_count request.dataString) f)

def parseI2List (request : ACPRequest) (f : List (ℤ × ℤ) → Handled R) : Option (Handled R) :=
  let i2l := acpDataToI2List request.data_rows_count request.dataString
  some (parsed (i2l.map fun i => (i.p0, i.p1)) f)

/-- `PARSE_I1F1LIST`; `scanF` is the conversion `%f`. -/
def parseI1F1List (scanF : List UInt8 → Option (R × List UInt8)) (request : ACPRequest)
    (f : List (ℤ × R) → Handled R) : Option (Handled R) :=
  let i1f1l := acpDataToI1F1List scanF request.data_rows_count request.dataString
  some (parsed (i1f1l.map fun i => (i.p0, i.p1)) f)

/-- `PARSE_I1S1LIST`; the strings of the list are read up to their NUL. -/
def parseI1S1List (stack : Stack) (request : ACPRequest) (f : List (ℤ × String) → Handled R) :
    Option (Handled R) :=
  (acpDataToI1S1List request.dataString
      (defServerList (stack.i1s1_arr request.data_rows_count))).bind fun i1s1l =>
    -- a string is read from what the decoder left in its item
    ((i1s1l.item.take i1s1l.length).mapM fun i =>
      (cString i.p1).map fun p1 => (i.p0, ofAscii p1)).map fun rows => parsed rows f

/-- The branches of `serverRun`. -/
def progActions (scanF : List UInt8 → Option (R × List UInt8)) (stack : Stack)
    (request : ACPRequest) : List (List UInt8 × Option (Handled R)) := [
    (ACP_CMD_PROG_STOP, parseI1List request fun ids => .command (.progStop ids)),
    (ACP_CMD_PROG_START, parseI1List request fun ids => .command (.progStart ids)),
    (ACP_CMD_PROG_RESET, parseI1List request fun ids => .command (.progReset ids)),
    (ACP_CMD_PROG_ENABLE, parseI1List request fun ids => .command (.progEnable ids)),
    (ACP_CMD_PROG_DISABLE, parseI1List request fun ids => .command (.progDisable ids)),
    (ACP_CMD_PROG_SET_SAVE, parseI2List request fun rows => .command (.progSetSave rows)),
    (ACP_CMD_PROG_GET_DATA_RUNTIME, parseI1List request (.query .progRuntime)),
    (ACP_CMD_PROG_GET_DATA_INIT, parseI1List request (.query .progInit)),
    (ACP_CMD_PROG_GET_ENABLED, parseI1List request (.query .progEnabled)),
    (ACP_CMD_REG_PROG_GET_GOAL, parseI1List request (.query .progGoal)),
    (ACP_CMD_PROG_GET_ERROR, parseI1List request (.query .progError)),
    (ACP_CMD_GET_FTS, parseI1List request (.query .progFTS)),
    (ACP_CMD_REG_PROG_SET_HEATER_POWER,
      parseI1F1List scanF request fun rows => .command (.setHeaterPower rows)),
    (ACP_CMD_REG_PROG_SET_COOLER_POWER,
      parseI1F1List scanF request fun rows => .command (.setCoolerPower rows)),
    (ACP_CMD_REG_PROG_SET_GOAL, parseI1F1List scanF request fun rows => .command (.setGoal rows)),
    (ACP_CMD_REGONF_PROG_SET_HEATER_DELTA,
      parseI1F1List scanF request fun rows => .command (.setHeaterDelta rows)),
    (ACP_CMD_REGONF_PROG_SET_COOLER_DELTA,
      parseI1F1List scanF request fun rows => .command (.setCoolerDelta rows)),
    (ACP_CMD_REG_PROG_SET_CHANGE_GAP,
      parseI2List request fun rows => .command (.setChangeGap rows)),
    (ACP_CMD_REG_PROG_SET_EM_MODE,
      parseI1S1List stack request fun rows => .command (.setEMMode rows))]

def serveProg (scanF : List UInt8 → Option (R × List UInt8)) (stack : Stack)
    (request : ACPRequest) : Option (Handled R) :=
  cmdChain request (some .other) (progActions scanF stack request)

/-- The branches of `SERVER_APP_ACTIONS`. -/
def appActions : List (List UInt8 × Option (Handled R)) := [
    (ACP_CMD_APP_START, some (.command .appStart)),
    (ACP_CMD_APP_STOP, some (.command .appStop)),
    (ACP_CMD_APP_RESET, some (.command .appReset)),
    (ACP_CMD_APP_EXIT, some (.command .appExit)),
    (ACP_CMD_APP_PING, some .ping),
    (ACP_CMD_APP_PRINT, some .print),
    (ACP_CMD_APP_HELP, some .help),
    (ACP_CMD_APP_TIME, some .time)]

/-- `SERVER_APP_ACTIONS`; its last line leaves the requests for programs to a server that has its
data. -/
def serveApp (init_state : Bool) (request : ACPRequest) (prog : Option (Handled R)) :
    Option (Handled R) :=
  cmdChain request (if !init_state then some .ignored else prog) appActions

/-- `acp_requestCheck`. -/
def acpRequestCheck (_item : ACPRequest) : Bool := true

/-- What `serverRun` takes a datagram for; `srv` is what the stack holds in the place of the
request. -/
def serverRead (scanF : List UInt8 → Option (R × List UInt8)) (stack : Stack) (srv : ACPRequest)
    (init_state : Bool) (peer_client : Peer) (d : Option Datagram) :
    Option (Handled R × ACPRequest × Peer) :=
  (acpRequestRead (acpRequestInit srv) peer_client d).bind fun r =>
    -- `SERVER_HEADER` returns without an answer
    if !r.1 then some (.ignored, r.2)
    else if !acpRequestCheck r.2.1 then some (.ignored, r.2)
    else (serveApp init_state r.2.1 (serveProg scanF stack r.2.1)).map fun s => (s, r.2)

/-- What `serverRun` does to the daemon. The queries only read. -/
def Handled.run [Zero R] [Sqlite R] (s : Handled R) (init_state : Bool) : Main R Unit :=
  match s with
  | .command c => serverRun c init_state
  | _ => pure ()

end Regonf
