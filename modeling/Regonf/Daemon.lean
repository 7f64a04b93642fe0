import Regonf.Db
import Regonf.Lib.Script

/-! The daemon of `main.c`: the memory of its programs, the atomic actions of the main thread
and the steps of the control threads. -/
namespace Regonf

/-- The values of `app_state`. -/
inductive AppState where
  | appInit | appInitData | appRun | appStop | appReset | appExit
deriving DecidableEq, Repr

/-- An address returned by `malloc`. -/
abbrev Ptr := ℕ

/-- Where a control thread stands in the loop of `threadFunction`. -/
inductive Phase where
  | ready | cancelOff | locked | controlled | unlocked | sleeping
deriving DecidableEq, Repr

/-- A control thread: `cancel` is a request of `pthread_cancel` not yet acted upon. -/
inductive Thread where
  | absent
  | alive (phase : Phase) (cancel : Bool)
  | terminated
  | joined
deriving DecidableEq, Repr

/-- The threads that may hold the mutex of a program: the main one and its own. -/
inductive Holder where
  | main | control
deriving DecidableEq, Repr

/-- `struct prog_st`. The error code is kept in `reg`. -/
structure Prog (R : Type) where
  id : ℤ
  reg : RegOnfHC R
  save : ℤ
  thread : Thread
  mutex : Option Holder
  next : Option Ptr
deriving DecidableEq, Repr

/-- What is known of a block of memory; `freed` keeps the `app_state` it was freed in. -/
inductive Memory where
  | unallocated | allocated
  | freed (during : AppState)
deriving DecidableEq, Repr

/-- A block of memory that holds a program, and the requests that the program has sent. -/
structure Cell (R : Type) where
  prog : Prog R
  sent : List (Request R)
  mem : Memory
deriving DecidableEq, Repr

/-- `ProgList`. -/
structure ProgList where
  top : Option Ptr
  last : Option Ptr
  length : ℕ
deriving DecidableEq, Repr

/-- What only the main thread uses: the globals of `main.c` and the database. -/
structure Globals (R : Type) where
  app_state : AppState
  data_initialized : Bool
  exited : Bool
  prog_list : ProgList
  sensor_list : List (SensorFTS R)
  em_list : List (EM R)
  db : Db R

/-- The state of the daemon; `C` is what is kept of a block of memory, and `brk` is the first
address not used yet. -/
structure Daemon (R C : Type) where
  globals : Globals R
  brk : Ptr
  cell : Ptr → C

/-- The calls that may fail. -/
inductive Fallible where
  | readSettings | initAppMutex | initServer
  | peerList | sensorList | emList
  | dbOpen | loadStep | progStep | secureStep | save
  | malloc | initMutex | initClient | createMThread
deriving DecidableEq, Repr

/-- The accesses of the main thread to one program. -/
inductive CellAct (R : Type) : Type → Type where
  | id : CellAct R ℤ
  | next : CellAct R (Option Ptr)
  | save : CellAct R ℤ
  | setId (v : ℤ) : CellAct R Unit
  | setNext (v : Option Ptr) : CellAct R Unit
  | setSave (v : ℤ) : CellAct R Unit
  | setReg (v : RegOnfHC R) : CellAct R Unit
  | op (o : Op R) : CellAct R Unit
  | lockMutex : CellAct R Bool
  | unlockMutex : CellAct R Bool
  | create : CellAct R Unit
  | cancel : CellAct R Unit
  | join : CellAct R Unit
  | free : CellAct R Unit

/-- The atomic actions of the main thread. The outcome of `attempt` is given from outside;
`blocks` tells how many blocks have been allocated; `undefined` is a null pointer
dereferenced or a loop that does not end. -/
inductive Act (R : Type) : Type → Type 1 where
  | globals : Act R (Globals R)
  | setGlobals (f : Globals R → Globals R) : Act R Unit
  | attempt (w : Fallible) : Act R Bool
  | selectProg (id : ℤ) : Act R (List (ProgRow R))
  | malloc : Act R Ptr
  | blocks : Act R ℕ
  | cell {β : Type} (p : Ptr) (a : CellAct R β) : Act R β
  | undefined : Act R Empty

/-- The access to a program on what is kept of its block. -/
abbrev CellExec (R C : Type) := AppState → (β : Type) → CellAct R β → C → Option (β × C)

def exec {R C : Type} (cellExec : CellExec R C) (fresh : C) :
    Script.Exec (Act R) Bool (Daemon R C)
  | _, .globals, _, s => some (s.globals, s)
  | _, .setGlobals f, _, s => some ((), { s with globals := f s.globals })
  | _, .attempt _, o, s => some (o, s)
  | _, .selectProg id, _, s => some (s.globals.db.prog.rows.filter fun r => r.id = id, s)
  | _, .malloc, _, s =>
    some (s.brk, { s with
      brk := s.brk + 1
      cell := Function.update s.cell s.brk fresh })
  | _, .blocks, _, s => some (s.brk, s)
  | β, .cell p a, _, s => (cellExec s.globals.app_state β a (s.cell p)).map fun r =>
      (r.1, { s with cell := Function.update s.cell p r.2 })
  | _, .undefined, _, _ => none

variable {R : Type} [Zero R]

/-- A regulator in memory that is all zero. -/
def zeroReg : RegOnfHC R :=
  let never : Timespec := ⟨0, 0⟩
  let peer : Peer := ⟨⟨0, 0⟩⟩
  let sensor : SensorFTS R := ⟨0, 0, peer, ⟨0, 0, never, 0⟩⟩
  let em : RegOnfHCEM R := ⟨⟨0, 0, peer, 0, 0⟩, 0, 0, false⟩
  { sensor := sensor, heater := em, cooler := em, goal := 0, change_gap := never
    secure_out := ⟨0, false, never, 0, 0, ⟨never, false⟩, false, 0⟩
    green_light := ⟨sensor, 0, false⟩
    state := .regOff, state_r := .regOff, state_onf := .regOff
    output := 0, snsrf_count := 0, tmr := ⟨never, false⟩ }

/-- A program whose memory has just been allocated and zeroed. -/
def zeroCell : Cell R where
  prog := ⟨0, zeroReg, 0, .absent, none, none⟩
  sent := []
  mem := .allocated

def Cell.set {R : Type} (c : Cell R) (f : Prog R → Prog R) : Cell R := { c with prog := f c.prog }

/-- The access to a program in allocated memory. One more `pthread_create`, or a
`pthread_cancel` or `pthread_join` without a thread, is undefined; `lockMutex` and
`pthread_join` wait. The mutex is of the type that checks for errors. -/
def cellTouch : CellExec R (Cell R)
  | _, _, .id, c => some (c.prog.id, c)
  | _, _, .next, c => some (c.prog.next, c)
  | _, _, .save, c => some (c.prog.save, c)
  | _, _, .setId v, c => some ((), c.set fun q => { q with id := v })
  | _, _, .setNext v, c => some ((), c.set fun q => { q with next := v })
  | _, _, .setSave v, c => some ((), c.set fun q => { q with save := v })
  | _, _, .setReg v, c => some ((), c.set fun q => { q with reg := v })
  | _, _, .op o, c =>
    let w := applyOp ⟨c.prog.reg, []⟩ o
    some ((), { c with prog := { c.prog with reg := w.item }, sent := c.sent ++ w.sent })
  | _, _, .lockMutex, c =>
    match c.prog.mutex with
    | none => some (true, c.set fun q => { q with mutex := some .main })
    | some .main => some (false, c)
    -- the main thread waits until the control thread lets go
    | some .control => none
  | _, _, .unlockMutex, c =>
    match c.prog.mutex with
    | some .main => some (true, c.set fun q => { q with mutex := none })
    | _ => some (false, c)
  | _, _, .create, c =>
    match c.prog.thread with
    | .absent => some ((), c.set fun q => { q with thread := .alive .ready false })
    | _ => none
  | _, _, .cancel, c =>
    match c.prog.thread with
    | .alive ph _ => some ((), c.set fun q => { q with thread := .alive ph true })
    | .terminated => some ((), c)
    | _ => none
  | _, _, .join, c =>
    match c.prog.thread with
    -- a thread that still runs is waited for
    | .terminated => some ((), c.set fun q => { q with thread := .joined })
    | _ => none
  | st, _, .free, c => some ((), { c with mem := .freed st })

/-- An access to memory that is not allocated any more is undefined. -/
def cellExec : CellExec R (Cell R) := fun st β a c =>
  if c.mem = .allocated then cellTouch st β a c else none

/-- What a control thread does next: it passes on to the next phase, controls its program,
or acts upon a cancellation. -/
inductive Tick (R : Type) where
  | next
  | control (inp : ControlInput R)
  | cancel

section
variable [Add R] [Sub R] [LT R] [DecidableLT R] [BEq R]

/-- One step of `threadFunction`. The thread can be cancelled in `sleepRest` alone. It does
not notice that its program has been freed: it goes on with what was there. -/
def cellStep (c : Cell R) (t : Tick R) : Option (Cell R) :=
  let goOn (ph : Phase) (cancel : Bool) :=
    some (c.set fun q => { q with thread := .alive ph cancel })
  match c.prog.thread, t with
  -- the phases in their order; `k` is the pending cancellation
  | .alive .ready k, .next => goOn .cancelOff k
  | .alive .cancelOff k, .next =>
    match c.prog.mutex with
    | none => some (c.set fun q => { q with thread := .alive .locked k, mutex := some .control })
    | some _ => none
  | .alive .locked k, .control inp =>
    (step c.prog.reg (.control inp)).map fun r =>
      { c with
        prog := { c.prog with reg := r.1, thread := .alive .controlled k }
        sent := c.sent ++ r.2 }
  | .alive .controlled k, .next =>
    some (c.set fun q =>
      { q with
        thread := .alive .unlocked k
        mutex := if q.mutex = some .control then none else q.mutex })
  | .alive .unlocked k, .next => goOn .sleeping k
  | .alive .sleeping k, .next => goOn .ready k
  -- the one point where a cancellation is acted upon
  | .alive .sleeping true, .cancel => some (c.set fun q => { q with thread := .terminated })
  | _, _ => none

/-- A step of the control thread of the program at `e.1`. -/
def threadStep (s : Daemon R (Cell R)) (e : Ptr × Tick R) : Option (Daemon R (Cell R)) :=
  if s.globals.exited then none
  else (cellStep (s.cell e.1) e.2).map fun c =>
    { s with cell := Function.update s.cell e.1 c }

end

end Regonf
