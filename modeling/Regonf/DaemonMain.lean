import Regonf.Daemon

/-! The main thread: `util.c`, `db.c` and `main.c` as scripts of atomic actions. Where the
source walks `prog_list`, the number of blocks allocated so far bounds the loop. The call of
`exit_nicely` by a signal is left out. -/
namespace Regonf

variable {R : Type}

abbrev Main (R α : Type) := Script (Act R) α

def globals : Main R (Globals R) := .lift .globals

def setGlobals (f : Globals R → Globals R) : Main R Unit := .lift (.setGlobals f)

def setProgList (f : ProgList → ProgList) : Main R Unit :=
  setGlobals fun g => { g with prog_list := f g.prog_list }

def attempt (w : Fallible) : Main R Bool := .lift (.attempt w)

/-- The bound of a walk over the list. -/
def blocks : Main R ℕ := .lift .blocks

def access {β : Type} (p : Ptr) (a : CellAct R β) : Main R β := .lift (.cell p a)

def undefinedResult {α : Type} : Main R α := .act .undefined nofun

/-! `lib/app.h`, `lib/dbl.c` -/

/-- The loop of `LLIST_GET_BY_ID`. -/
def getProgByIdFrom (id : ℤ) : ℕ → Option Ptr → Main R (Option Ptr)
  | _, none => return none
  | 0, some _ => undefinedResult
  | n + 1, some curr => do
    if (← access curr .id) = id then return some curr
    getProgByIdFrom id n (← access curr .next)

def getProgById (id : ℤ) : Main R (Option Ptr) := do
  let n ← blocks
  let g ← globals
  getProgByIdFrom id n g.prog_list.top

/-- `getSensorFTSById`. -/
def getSensorFTSById (id : ℤ) (list : List (SensorFTS R)) : Option (SensorFTS R) :=
  list.find? fun s => s.id = id

/-- `getEMById`. -/
def getEMById (id : ℤ) (list : List (EM R)) : Option (EM R) := list.find? fun e => e.id = id

/-- The `dbl` or `db_path` of a function that works on the database: `dbl` is true when the
caller hands over an open connection. -/
def dbOpen (dbl : Bool) : Main R Bool := if dbl then return true else attempt .dbOpen

/-- `db_exec` of a query: the callback runs once for each row, until it fails or a step of
the query does. -/
def dbExec {Row : Type} (w : Fallible) (callback : Row → Main R Bool) :
    List Row → Main R Bool
  | [] => attempt w
  | row :: rows => do
    if !(← attempt w) then return false
    if !(← callback row) then return false
    dbExec w callback rows

/-- `db_saveTableFieldInt` and its siblings on table `prog`; no caller looks at the result. -/
def saveTableField [Sqlite R] (id : ℤ) (c : Column R) (dbl : Bool) : Main R Unit := do
  if !(← dbOpen dbl) then return
  if !(← attempt .save) then return
  setGlobals fun g => { g with db := { g.db with prog := dbSaveTableField g.db.prog id c } }

/-! `util.c` -/

def stopProgThread (item : Ptr) : Main R Unit := do
  access item .cancel
  access item .join

/-- The body of `PROG_LIST_LOOP_ST` and `PROG_LIST_LOOP_SP` around it. -/
def progListLoopFrom (body : Ptr → Main R Unit) : ℕ → Option Ptr → Main R Unit
  | _, none => return
  | 0, some _ => undefinedResult
  | n + 1, some item => do
    body item
    progListLoopFrom body n (← access item .next)

def progListLoop (body : Ptr → Main R Unit) : Main R Unit := do
  let n ← blocks
  let g ← globals
  progListLoopFrom body n g.prog_list.top

def stopAllProgThreads : Main R Unit := do
  progListLoop fun item => access item .cancel
  progListLoop fun item => access item .join

def freeProg (item : Ptr) : Main R Unit := access item .free

def freeProgListFrom : ℕ → Option Ptr → Main R Unit
  | _, none => return
  | 0, some _ => undefinedResult
  | n + 1, some item => do
    -- the link is read before the program is freed
    let next ← access item .next
    freeProg item
    freeProgListFrom n next

def freeProgList : Main R Unit := do
  let n ← blocks
  let g ← globals
  freeProgListFrom n g.prog_list.top
  setProgList fun _ => ⟨none, none, 0⟩

def checkProg (_item : Ptr) : Bool := true

def secure : Main R Unit := progListLoop fun item => access item (.op .turnOff)

/-! `lib/reg.c` and `db.c` -/

section
variable [Zero R]

/-- `getRegSecureList_callback`. -/
def secureOfRow (row : SecureRow R) : RegSecure R where
  id := row.id
  active := true
  timeout := ⟨row.timeout_sec, 0⟩
  heater_duty_cycle := row.heater_duty_cycle
  cooler_duty_cycle := row.cooler_duty_cycle
  tmr := ⟨⟨0, 0⟩, false⟩
  done := false
  error_code := 0

/-- What `reg_getSecureFDB` takes from the rows of its id. -/
def secureOfRows : List (SecureRow R) → Option (RegSecure R)
  | [row] => some (secureOfRow row)
  | _ => none

def regGetSecureFDB (id : ℤ) : Main R (Option (RegSecure R)) := do
  let g ← globals
  let rows := g.db.secure.filter fun r => r.id = id
  -- more than one row, or none, is refused behind the query
  if !(← dbExec .secureStep (fun _ => return true) rows) then return none
  return secureOfRows rows

/-- The `use` flags of the heater and the cooler that `em_mode` stands for. -/
def emModeUse (em_mode : String) : Bool × Bool :=
  if em_mode = REG_EM_MODE_COOLER_STR then (false, true)
  else if em_mode = REG_EM_MODE_HEATER_STR then (true, false)
  else if em_mode = REG_EM_MODE_BOTH_STR then (true, true)
  else (false, false)

/-- The regulator that `getProg_callback` makes of a row and of the records its ids name. -/
def regOfRow (row : ProgRow R) (sensor : SensorFTS R) (heater cooler : EM R)
    (secure_out : Option (RegSecure R)) (green : Option (SensorFTS R)) : RegOnfHC R :=
  let z : RegOnfHC R := zeroReg
  let reg : RegOnfHC R :=
    { z with
      sensor := sensor
      heater := ⟨heater, row.heater_delta, 0, (emModeUse row.em_mode).1⟩
      cooler := ⟨cooler, row.cooler_delta, 0, (emModeUse row.em_mode).2⟩
      goal := row.goal
      change_gap := ⟨row.change_gap, 0⟩
      secure_out := secure_out.getD z.secure_out
      green_light := ⟨green.getD z.green_light.sensor, row.green_value, green.isSome⟩ }
  if row.enable ≠ 0 then regonfhcEnable reg else regonfhcDisable reg

/-- The part of `getProg_callback` that writes to the program. -/
def fillProg (item : Ptr) (id : ℤ) (reg : RegOnfHC R) (save : ℤ) : Main R Unit := do
  access item (.setId id)
  access item (.setReg reg)
  access item (.setSave save)

variable [Sqlite R]

def getProgCallback (item : Ptr) (row : ProgRow R) : Main R Bool := do
  let g ← globals
  match getSensorFTSById row.sensor_id g.sensor_list, getEMById row.heater_em_id g.em_list,
    getEMById row.cooler_em_id g.em_list with
  | some sensor, some heater, some cooler => do
    let secure_out ← regGetSecureFDB row.secure_id
    let green := getSensorFTSById row.green_light_sensor_id g.sensor_list
    fillProg item row.id (regOfRow row sensor heater cooler secure_out green) row.save
    if row.load = 0 then saveTableField row.id (.load 1) true
    return true
  -- what a refused row has written to the program is never read
  | _, _, _ => return false

def getProgByIdFDB (prog_id : ℤ) (item : Ptr) (dbl : Bool) : Main R Bool := do
  if !(← dbOpen dbl) then return false
  let rows ← .lift (.selectProg prog_id)
  -- without a row the callback does not run and the query succeeds
  dbExec .progStep (getProgCallback item) rows

/-- Rewrite the link of a program under its mutex. -/
def relink (item : Ptr) (next : Option Ptr) : Main R Unit := do
  let _ ← access item .lockMutex
  access item (.setNext next)
  let _ ← access item .unlockMutex

/-- The part of `addProg` that makes the list point to the new program. -/
def linkProg (item : Ptr) (list : ProgList) : Main R Unit :=
  match list.top, list.last with
  | none, _ => setProgList fun l => { l with top := some item }
  | some _, some last => relink last (some item)
  | some _, none => undefinedResult

def addProg (item : Ptr) : Main R Bool := do
  let g ← globals
  if g.prog_list.length ≥ INT_MAX then return false
  -- `last` and `length` change behind the link
  linkProg item g.prog_list
  setProgList fun l => { l with last := some item, length := l.length + 1 }
  return true

def addProgById (prog_id : ℤ) (dbl : Bool) : Main R Bool := do
  if (← getProgById prog_id).isSome then return false
  if !(← attempt .malloc) then return false
  let item ← .lift .malloc
  access item (.setId prog_id)
  if !(← attempt .initMutex) then
    access item .free
    return false
  if !(← attempt .initClient) then
    freeProg item
    return false
  if !(← getProgByIdFDB prog_id item dbl) then
    freeProg item
    return false
  if !checkProg item then
    freeProg item
    return false
  if !(← addProg item) then
    freeProg item
    return false
  -- the program is in the list already
  if !(← attempt .createMThread) then
    freeProg item
    return false
  access item .create
  return true

/-- The part of `deleteProgById` that takes `curr`, behind `prev`, out of the list. -/
def unlinkProg (prev : Option Ptr) (curr : Ptr) : Main R Unit := do
  let next ← access curr .next
  match prev with
  | some q => relink q next
  | none => setProgList fun l => { l with top := next }
  setProgList fun l =>
    { l with last := if l.last = some curr then prev else l.last, length := l.length - 1 }

/-- The loop of `deleteProgById`. -/
def deleteProgFrom (id : ℤ) : ℕ → Option Ptr → Option Ptr → Main R Bool
  | _, _, none => return false
  | 0, _, some _ => undefinedResult
  | n + 1, prev, some curr => do
    if (← access curr .id) = id then do
      unlinkProg prev curr
      stopProgThread curr
      saveTableField (← access curr .id) (.load 0) false
      freeProg curr
      return true
    else deleteProgFrom id n (some curr) (← access curr .next)

def deleteProgById (id : ℤ) : Main R Bool := do
  let n ← blocks
  let g ← globals
  deleteProgFrom id n none g.prog_list.top

/-- `loadActiveProg`: the ids are those that the query finds when it starts. -/
def loadActiveProg : Main R Bool := do
  if !(← dbOpen false) then return false
  let g ← globals
  let ids := (g.db.prog.rows.filter fun r => r.load = 1).map ProgRow.id
  -- a program that cannot be added does not stop the query
  dbExec .loadStep (fun id => do let _ ← addProgById id true; return true) ids

/-! `main.c` -/

def initApp : Main R Bool := do
  if !(← attempt .readSettings) then return false
  if !(← attempt .initAppMutex) then return false
  attempt .initServer

def freeLists : Main R Unit := setGlobals fun g => { g with em_list := [], sensor_list := [] }

def configGetSensorFTSList : Main R Bool := do
  if !(← attempt .sensorList) then return false
  setGlobals fun g => { g with sensor_list := g.db.sensors }
  return true

def configGetEMList : Main R Bool := do
  if !(← attempt .emList) then return false
  setGlobals fun g => { g with em_list := g.db.ems }
  return true

def initData : Main R Bool := do
  if !(← attempt .peerList) then return false
  if !(← configGetSensorFTSList) then return false
  if !(← configGetEMList) then
    freeLists
    return false
  if !(← loadActiveProg) then
    -- unlike `freeData`, with the threads of the programs running
    freeProgList
    freeLists
    return false
  return true

def freeData : Main R Unit := do
  stopAllProgThreads
  secure
  freeProgList
  freeLists

/-- `freeApp` and `exit` of `exit_nicely` and `exit_nicely_e`. -/
def exitNicely : Main R Unit := do
  freeData
  setGlobals fun g => { g with exited := true }

/-- What a setter does to a program it has found and locked: the operations, the new value of
`save` and the column that is saved. -/
structure Setter (R : Type) where
  ops : List (Op R)
  newSave : Option ℤ
  column : Option (Column R)

/-- A column is saved if the `save` of the program says so. -/
def saveColumn (id : ℤ) (item : Ptr) : Option (Column R) → Main R Unit
  | none => pure ()
  | some c => do
    -- the new value, where the request has just set it
    if (← access item .save) = 0 then return
    saveTableField id c false

def Setter.body (t : Setter R) (id : ℤ) (item : Ptr) : Main R Unit := do
  -- the columns are saved under the mutex too
  t.ops.forM fun o => access item (.op o)
  match t.newSave with
  | some v => access item (.setSave v)
  | none => pure ()
  saveColumn id item t.column

/-- The loop of a setter over the rows of its request. -/
def setProgs {β : Type} (setter : β → Setter R) (rows : List (ℤ × β)) : Main R Unit :=
  rows.forM fun row => do
    match ← getProgById row.1 with
    | none => pure ()
    | some item => do
      if !(← access item .lockMutex) then return
      (setter row.2).body row.1 item
      let _ ← access item .unlockMutex

def progEnable (ids : List ℤ) : Main R Unit :=
  setProgs (fun _ : Unit => ⟨[.enable], none, some (.enable 1)⟩) (ids.map fun id => (id, ()))

def progDisable (ids : List ℤ) : Main R Unit :=
  setProgs (fun _ : Unit => ⟨[.disable], none, some (.enable 0)⟩) (ids.map fun id => (id, ()))

def progSetSave : List (ℤ × ℤ) → Main R Unit :=
  setProgs fun v => ⟨[], some v, some (.save v)⟩

def setHeaterPower : List (ℤ × R) → Main R Unit :=
  setProgs fun v => ⟨[.setHeaterPower v], none, none⟩

def setCoolerPower : List (ℤ × R) → Main R Unit :=
  setProgs fun v => ⟨[.setCoolerPower v], none, none⟩

def setGoal : List (ℤ × R) → Main R Unit :=
  setProgs fun v => ⟨[.setGoal v, .secureOutTouch], none, some (.goal v)⟩

def setHeaterDelta : List (ℤ × R) → Main R Unit :=
  setProgs fun v => ⟨[.setHeaterDelta v], none, some (.heater_delta v)⟩

def setCoolerDelta : List (ℤ × R) → Main R Unit :=
  setProgs fun v => ⟨[.setCoolerDelta v], none, some (.cooler_delta v)⟩

def setChangeGap : List (ℤ × ℤ) → Main R Unit :=
  setProgs fun v => ⟨[.setChangeGap v], none, some (.change_gap v)⟩

def setEMMode : List (ℤ × String) → Main R Unit :=
  setProgs fun v => ⟨[.setEMMode v], none, some (.em_mode v)⟩

/-- Switch a program off under its mutex. -/
def turnOffLocked (item : Ptr) : Main R Unit := do
  if !(← access item .lockMutex) then return
  access item (.op .turnOff)
  let _ ← access item .unlockMutex

/-- `ACP_CMD_PROG_STOP`. -/
def progStop (ids : List ℤ) : Main R Unit :=
  ids.forM fun id => do
    match ← getProgById id with
    | none => pure ()
    | some item => do
      turnOffLocked item
      let _ ← deleteProgById id

/-- `ACP_CMD_PROG_START`. -/
def progStart (ids : List ℤ) : Main R Unit :=
  ids.forM fun id => do
    let _ ← addProgById id false

/-- `ACP_CMD_PROG_RESET`. -/
def progReset (ids : List ℤ) : Main R Unit := do
  progStop ids
  progStart ids

/-- The requests that change something. -/
inductive Command (R : Type) where
  | appStart | appStop | appReset | appExit
  | progStop (ids : List ℤ)
  | progStart (ids : List ℤ)
  | progReset (ids : List ℤ)
  | progEnable (ids : List ℤ)
  | progDisable (ids : List ℤ)
  | progSetSave (rows : List (ℤ × ℤ))
  | setHeaterPower (rows : List (ℤ × R))
  | setCoolerPower (rows : List (ℤ × R))
  | setGoal (rows : List (ℤ × R))
  | setHeaterDelta (rows : List (ℤ × R))
  | setCoolerDelta (rows : List (ℤ × R))
  | setChangeGap (rows : List (ℤ × ℤ))
  | setEMMode (rows : List (ℤ × String))

def setAppState (a : AppState) : Main R Unit := setGlobals fun g => { g with app_state := a }

/-- The requests that `serverRun` answers for a program, after `SERVER_APP_ACTIONS`. -/
def serverRunProg : Command R → Main R Unit
  | .progStop ids => progStop ids
  | .progStart ids => progStart ids
  | .progReset ids => progReset ids
  | .progEnable ids => progEnable ids
  | .progDisable ids => progDisable ids
  | .progSetSave rows => progSetSave rows
  | .setHeaterPower rows => setHeaterPower rows
  | .setCoolerPower rows => setCoolerPower rows
  | .setGoal rows => setGoal rows
  | .setHeaterDelta rows => setHeaterDelta rows
  | .setCoolerDelta rows => setCoolerDelta rows
  | .setChangeGap rows => setChangeGap rows
  | .setEMMode rows => setEMMode rows
  | _ => pure ()

def serverRun (request : Command R) (init_state : Bool) : Main R Unit :=
  match request with
  | .appStart => if init_state then pure () else setAppState .appInitData
  | .appStop => if init_state then setAppState .appStop else pure ()
  | .appReset => setAppState .appReset
  | .appExit => setAppState .appExit
  | c => if init_state then serverRunProg c else pure ()

/-- One turn of the loop of `main`. In `APP_RUN` it waits for a request. -/
def mainTurn (request : Command R) : Main R Unit := do
  let g ← globals
  if g.exited then return
  match g.app_state with
  | .appInit => do
    if (← initApp) then setAppState .appInitData else exitNicely
  | .appInitData => do
    let ok ← initData
    setGlobals fun g => { g with data_initialized := ok, app_state := .appRun }
  | .appRun => serverRun request g.data_initialized
  | .appStop => do
    freeData
    setGlobals fun g => { g with data_initialized := false, app_state := .appRun }
  | .appReset => do
    freeData
    setGlobals fun g => { g with data_initialized := false, app_state := .appInit }
  | .appExit => exitNicely

end

/-- The daemon when it starts. -/
def initialDaemon [Zero R] (db : Db R) : Daemon R (Cell R) where
  globals :=
    { app_state := .appInit, data_initialized := false, exited := false
      prog_list := ⟨none, none, 0⟩, sensor_list := [], em_list := [], db := db }
  brk := 0
  cell := fun _ => { (zeroCell : Cell R) with mem := .unallocated }

end Regonf
