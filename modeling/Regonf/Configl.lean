import Regonf.AcpStrings

/-! `lib/configl.c`: the lists of peers, sensors and EMs from the tables of `db/sql/data.sql`.
`R` stands for `float`; `atof`, `inet_aton`, the allocations and what SQLite reports are
parameters. A call whose result is `none` writes behind the items that it has allocated. -/
namespace Regonf.Configl

/-- `atoi` goes through `long` and keeps the low 32 bits; without digits it is 0. -/
def atoi (s : List UInt8) : ℤ := ((scanInt s).map (·.1)).getD 0

/-! The tables, with what `sqlite3_exec` makes of their columns: no column may be NULL. -/

/-- The names and the texts of the columns of a row, as a callback gets them. -/
abbrev Argv := List (String × List UInt8)

/-- A row of table `peer`. -/
structure PeerRow where
  id : List UInt8
  port : List UInt8
  ip_addr : List UInt8
deriving DecidableEq, Repr

/-- A row of table `sensor_mapping`. -/
structure SensorRow where
  sensor_id : List UInt8
  peer_id : List UInt8
  remote_id : List UInt8
deriving DecidableEq, Repr

/-- A row of table `em_mapping`. -/
structure EMRow where
  em_id : List UInt8
  peer_id : List UInt8
  remote_id : List UInt8
  pwm_rsl : List UInt8
deriving DecidableEq, Repr

/-! The queries name their columns in this order. -/

def PeerRow.argv (row : PeerRow) : Argv :=
  [("id", row.id), ("port", row.port), ("ip_addr", row.ip_addr)]

def SensorRow.argv (row : SensorRow) : Argv :=
  [("sensor_id", row.sensor_id), ("peer_id", row.peer_id), ("remote_id", row.remote_id)]

def EMRow.argv (row : EMRow) : Argv :=
  [("em_id", row.em_id), ("peer_id", row.peer_id), ("remote_id", row.remote_id),
    ("pwm_rsl", row.pwm_rsl)]

/-! The items of the lists; `calloc` sets them to zero. The pointer `fd` is that of the caller. -/

structure Peer where
  id : List UInt8
  addr_str : List UInt8
  port : ℤ
  fd : Option ℕ
  addr : SockAddr
  addr_size : ℕ
  active : Bool
deriving DecidableEq, Repr

structure SensorFTS (R : Type*) where
  id : ℤ
  remote_id : ℤ
  peer : Peer
  value : FTS R
deriving DecidableEq, Repr

structure EM (R : Type*) where
  id : ℤ
  remote_id : ℤ
  peer : Peer
  last_output : R
  pwm_rsl : R
deriving DecidableEq, Repr

def zeroPeer : Peer := ⟨[], [], 0, none, ⟨0, 0⟩, 0, false⟩

def zeroSensorFTS {R : Type*} [Zero R] : SensorFTS R := ⟨0, 0, zeroPeer, ⟨0, 0, ⟨0, 0⟩, 0⟩⟩

def zeroEM {R : Type*} [Zero R] : EM R := ⟨0, 0, zeroPeer, 0, 0⟩

/-! `lib/dstructure_auto.h` and `lib/acp/main.c` -/

section
variable {V : Type*}

/-- `RESET_LIST`, and `FREE_LIST`. -/
def resetList : ItemList V := ⟨[], 0, 0⟩

/-- `FUN_LIST_INIT`, when `calloc` has the memory. -/
def initList (zero : V) (n : ℕ) : ItemList V := ⟨List.replicate n zero, 0, n⟩

end

/-- `getPeerById`: `strcmp` with the id of each peer. -/
def getPeerById (id : List UInt8) (list : List Peer) : Option Peer :=
  list.find? fun p => p.id = id

/-- `makeClientAddr`: its result and the address. `htons` takes the low 16 bits of the port. -/
def makeClientAddr (inet_aton : List UInt8 → Option UInt32) (addr_str : List UInt8) (port : ℤ) :
    Bool × SockAddr :=
  match inet_aton addr_str with
  | none => (false, ⟨0, UInt16.ofNat (port % 2 ^ 16).toNat⟩)
  | some a => (true, ⟨a, UInt16.ofNat (port % 2 ^ 16).toNat⟩)

/-! `lib/dbl.c` -/

/-- `db_exec` of a query: the callback runs once for each row, until it fails or SQLite reports an
error, which it does in front of row `error`. -/
def dbExec {Row L : Type*} (callback : Row → L → Option (Bool × L)) :
    Option ℕ → List Row → L → Option (Bool × L)
  | some 0, _, data => some (false, data)
  | error, [], data => some (error.isNone, data)
  | error, row :: rows, data =>
    (callback row data).bind fun r =>
      if r.1 then dbExec callback (error.map (· - 1)) rows r.2 else some (false, r.2)

def getInt_callback (argv : Argv) (item : ℤ) : Option (Bool × ℤ) :=
  some (true, match argv with
    | [] => item
    | a :: _ => atoi a.2)

/-- `db_getInt` of the query for the number of rows: its result, and the integer after it. -/
def dbGetInt (error : Option ℕ) (rows : ℕ) (item : ℤ) : Option (Bool × ℤ) :=
  dbExec getInt_callback error [[("count(*)", fmtD rows)]] item

/-! The callbacks. They work on the next item of the list; the first column of each query is
stored there. -/

section
variable {V : Type*}

/-- What a callback does at a column. -/
inductive AtColumn (V : Type*) where
  | unknown
  | failure
  | value (item : V)

/-- The loop over the columns: whether it comes to its end, the item, and `c`. -/
def columnLoop (column : String → List UInt8 → V → AtColumn V) : Argv → V → ℕ → Bool × V × ℕ
  | [], item, c => (true, item, c)
  | (name, text) :: argv, item, c =>
    match column name text item with
    | .unknown => columnLoop column argv item c
    | .failure => (false, item, c)
    | .value item => columnLoop column argv item (c + 1)

/-- The list with a new item and its next `length`. -/
def putItem (list : ItemList V) (item : V) (length : ℕ) : ItemList V :=
  { list with item := list.item.set list.length item, length := length }

/-- `alloc` says which of the two strings of the item get memory. After a failure the list is
freed, so a NULL in it is never read. -/
def peerColumn (alloc : Bool × Bool) (name : String) (text : List UInt8) (item : Peer) :
    AtColumn Peer :=
  if name = "id" then if alloc.1 then .value { item with id := text } else .failure
  else if name = "port" then .value { item with port := atoi text }
  else if name = "ip_addr" then
    if alloc.2 then .value { item with addr_str := text } else .failure
  else .unknown

def sizeofSockAddr : ℕ := 16

def getPeerList_callback (alloc : ℕ → Bool × Bool) (inet_aton : List UInt8 → Option UInt32)
    (fd : Option ℕ) (argv : Argv) (list : ItemList Peer) : Option (Bool × ItemList Peer) :=
  list.item[list.length]?.map fun item =>
    let r := columnLoop (peerColumn (alloc list.length)) argv item 0
    let item := r.2.1
    if !r.1 then (false, putItem list item (list.length + 1))
    else if r.2.2 ≠ 3 then (false, putItem list item (list.length + 1))
    else
      let a := makeClientAddr inet_aton item.addr_str item.port
      if !a.1 then (false, putItem list { item with addr := a.2 } (list.length + 1))
      else (true, putItem list { item with
        addr := a.2, addr_size := sizeofSockAddr, fd := fd, active := false } (list.length + 1))

/-- The callbacks for sensors and EMs, with the number of columns that they want. -/
def mapping_callback (column : String → List UInt8 → V → AtColumn V) (N : ℕ) (argv : Argv)
    (list : ItemList V) : Option (Bool × ItemList V) :=
  list.item[list.length]?.map fun item =>
    let r := columnLoop column argv item 0
    if !r.1 then (false, putItem list r.2.1 list.length)
    else (decide (r.2.2 = N), putItem list r.2.1 (list.length + 1))

variable {R : Type*}

def sensorColumn (peer_list : List Peer) (name : String) (text : List UInt8)
    (item : SensorFTS R) : AtColumn (SensorFTS R) :=
  if name = "peer_id" then
    match getPeerById text peer_list with
    | none => .failure
    | some peer => .value { item with peer := peer }
  else if name = "remote_id" then .value { item with remote_id := atoi text }
  else if name = "sensor_id" then .value { item with id := atoi text }
  else .unknown

def emColumn (atof : List UInt8 → R) (peer_list : List Peer) (name : String) (text : List UInt8)
    (item : EM R) : AtColumn (EM R) :=
  if name = "peer_id" then
    match getPeerById text peer_list with
    | none => .failure
    | some peer => .value { item with peer := peer }
  else if name = "remote_id" then .value { item with remote_id := atoi text }
  else if name = "em_id" then .value { item with id := atoi text }
  else if name = "pwm_rsl" then .value { item with pwm_rsl := atof text }
  else .unknown

def getSensorFTSList_callback (peer_list : List Peer) :
    Argv → ItemList (SensorFTS R) → Option (Bool × ItemList (SensorFTS R)) :=
  mapping_callback (sensorColumn peer_list) 3

def getEMList_callback (atof : List UInt8 → R) (peer_list : List Peer) :
    Argv → ItemList (EM R) → Option (Bool × ItemList (EM R)) :=
  mapping_callback (emColumn atof peer_list) 4

end

/-! The lists. -/

section
variable {Row V I : Type*} [DecidableEq I]

/-- `config_checkPeerList` and its siblings: the ids of each two items differ. -/
def checkList (id : V → I) : List V → Bool
  | [] => true
  | item :: items => !(items.any fun item' => id item = id item') && checkList id items

/-- What happens to a call: whether the file can be opened and the items get memory, and in front
of which row each of the two queries reports an error. -/
structure World where
  opens : Bool
  count : Option ℕ
  calloc : Bool
  select : Option ℕ
deriving DecidableEq, Repr

/-- The end of `config_getPeerList` and its siblings, behind the query for the items. -/
def checkedList (id : V → I) (r : Bool × ItemList V) : Bool × ItemList V :=
  if !r.1 then (false, resetList)
  else if !checkList id (r.2.item.take r.2.length) then (false, resetList)
  else (true, r.2)

/-- `config_getPeerList` and its siblings: the result and the list. The result of `db_getInt` is
not looked at. -/
def config_getList (callback : Row → ItemList V → Option (Bool × ItemList V)) (id : V → I)
    (zero : V) (w : World) (rows : List Row) : Option (Bool × ItemList V) :=
  if !w.opens then some (false, resetList)
  else (dbGetInt w.count rows.length 0).bind fun n =>
    if n.2 ≤ 0 then some (true, resetList)
    else if !w.calloc then some (false, resetList)
    else (dbExec callback w.select rows (initList zero n.2.toNat)).map (checkedList id)

variable {R : Type*} [Zero R]

def config_getPeerList (alloc : ℕ → Bool × Bool) (inet_aton : List UInt8 → Option UInt32)
    (fd : Option ℕ) : World → List PeerRow → Option (Bool × ItemList Peer) :=
  config_getList (fun row => getPeerList_callback alloc inet_aton fd row.argv) Peer.id zeroPeer

def config_getSensorFTSList (peer_list : List Peer) :
    World → List SensorRow → Option (Bool × ItemList (SensorFTS R)) :=
  config_getList (fun row => getSensorFTSList_callback peer_list row.argv) SensorFTS.id
    zeroSensorFTS

def config_getEMList (atof : List UInt8 → R) (peer_list : List Peer) :
    World → List EMRow → Option (Bool × ItemList (EM R)) :=
  config_getList (fun row => getEMList_callback atof peer_list row.argv) EM.id zeroEM

end

end Regonf.Configl
