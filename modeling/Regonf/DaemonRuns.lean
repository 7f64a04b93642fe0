import Regonf.DaemonTurn

/-! Runs of the daemon: the main loop takes up requests, its actions fail or succeed, and the
control threads step in between. -/
namespace Regonf

open Script LinkedList

variable {R : Type} [Zero R] [Sqlite R]

/-- The daemon with the script that its main thread is in. -/
abbrev DaemonConfig (R : Type) := Config (Act R) (Daemon R (Cell R))

/-- A request, the outcome of an action of the main thread, or a step of a control thread. -/
abbrev DaemonLabel (R : Type) := Label (Command R) Bool (Ptr × Tick R)

/-- The daemon when it starts. -/
def startUp (db : Db R) : DaemonConfig R := ⟨.pure (), initialDaemon db⟩

variable [Add R] [Sub R] [LT R] [DecidableLT R] [BEq R]

def daemonStep : DaemonConfig R → DaemonLabel R → Option (DaemonConfig R) :=
  Script.step (exec cellExec zeroCell) threadStep mainTurn

/-- What the main thread knows when the daemon starts. -/
def initialView (db : Db R) : View R where
  globals := (initialDaemon db).globals
  brk := 0
  cell := fun _ => { (zeroBlock : Block R) with mem := .unallocated }

omit [Sqlite R] in
theorem sees_initial (db : Db R) : Sees (initialDaemon db) (initialView db) :=
  ⟨rfl, rfl, fun _ => { knows_zero with mem := rfl }⟩

omit [Sqlite R] [Add R] [Sub R] [LT R] [DecidableLT R] [BEq R] in
theorem idle_initial (clean stored : Prop) (db : Db R) :
    Idle clean stored (initialView db) := by
  refine ⟨[], ?_, fun _ => rfl⟩
  exact {
    list := rfl, last := rfl, length := rfl, ids := List.nodup_nil
    below := by simp
    fresh := fun _ _ => rfl
    free := fun _ => rfl
    dead := fun _ _ hp => by cases hp
    loadable := fun _ => fresh_zeroBlock.loadable
    known := fun _ _ ht => absurd rfl ht
    live := by simp
    rows := by simp }

/-- In every configuration that a run reaches, the rest of the script is safe on what the main
thread knows. -/
theorem reach_view {clean stored : Prop} {P : DaemonConfig R → DaemonLabel R → Prop}
    (hP : ∀ c l, P c l →
      Meets (contract clean stored) (fun x _ => stored → Command.isProgramList x) Sees c l)
    {db : Db R} {c : DaemonConfig R} (h : Reach daemonStep P (startUp db) c) :
    ∃ v, Sees c.state v ∧
      Safely clean stored c.code (fun _ => Idle clean stored) v := by
  have hi := idle_initial clean stored db
  have hdead : FreedDead clean (initialView db) := by
    obtain ⟨ps, hown, -⟩ := hi
    exact hown.dead
  have hsafe : Safely clean stored (startUp db).code (fun _ => Idle clean stored)
      (initialView db) := ⟨hdead, hi⟩
  exact reach_safe sees_simulates (fun x t ht hx => safe_mainTurn ht hx) (sees_initial db)
    hsafe (Reach.mono hP h)

/-- Between two turns the invariant holds. -/
theorem reach_idle {clean stored : Prop} {P : DaemonConfig R → DaemonLabel R → Prop}
    (hP : ∀ c l, P c l →
      Meets (contract clean stored) (fun x _ => stored → Command.isProgramList x) Sees c l)
    {db : Db R} {c : DaemonConfig R} (h : Reach daemonStep P (startUp db) c)
    (hi : c.idle = true) : ∃ v ps, Sees c.state v ∧ Owned clean stored v ps := by
  obtain ⟨v, hv, hs⟩ := reach_view hP h
  rw [Config.idle_iff.mp hi] at hs
  obtain ⟨-, ps, hown, -⟩ := hs
  exact ⟨v, ps, hv, hown⟩

omit [Sqlite R] in
/-- The programs that can be reached from `prog_list` are those that the main thread knows of. -/
theorem Sees.linked {clean stored : Prop} {s : Daemon R (Cell R)} {v : View R} {ps : List Ptr}
    (h : Sees s v) (ho : Owned clean stored v ps) {p : Ptr}
    (hl : Linked (fun q => (s.cell q).prog.next) s.globals.prog_list.top p) : p ∈ ps := by
  have hnext : (fun q => (s.cell q).prog.next) = fun q => (v.cell q).next := by
    funext q
    exact (h.2.2 q).next
  rw [hnext, h.1] at hl
  exact ho.list.linked_iff.mp hl

omit [Sqlite R] in
/-- The thread of a dead program is not there, and nobody holds its mutex. -/
theorem Knows.dead {c : Cell R} {b : Block R} (hk : Knows c b) (hd : Dead b) :
    (c.prog.thread = .absent ∨ c.prog.thread = .joined) ∧ c.prog.mutex = none := by
  have hstatus : c.prog.thread.status ≠ .created := by
    rw [hk.thread]
    exact hd.1
  have hthread : c.prog.thread = .absent ∨ c.prog.thread = .joined := by
    cases ht : c.prog.thread with
    | absent => exact Or.inl rfl
    | joined => exact Or.inr rfl
    | alive ph k => exact absurd (by rw [ht]; rfl) hstatus
    | terminated => exact absurd (by rw [ht]; rfl) hstatus
  have hcritical : c.prog.thread.critical = false := by
    rcases hthread with ht | ht
    · rw [ht]
      rfl
    · rw [ht]
      rfl
  refine ⟨hthread, ?_⟩
  cases hm : c.prog.mutex with
  | none => rfl
  | some o =>
    cases o with
    | main =>
      have hheld := hk.held.mpr hm
      rw [hd.2.1] at hheld
      cases hheld
    | control =>
      have hcrit := hk.critical.mp hm
      rw [hcritical] at hcrit
      cases hcrit

/-- A database that keeps the integers that it is given. -/
instance : Sqlite ℤ where
  stored := id
  quoted := fun _ _ t => t

/-- The example program in a database; `load` is 0. -/
def exampleDb : Db ℤ where
  prog := ⟨[⟨1, 1, 250, 1800, "both", 1, 5, 2, 5, 1, 5, 1, 1, 1, 0⟩], by decide⟩
  secure := []
  sensors := [exampleProg.sensor]
  ems := [exampleProg.heater.em, exampleProg.cooler.em]

/-- The example program in a database under the ids 1, 2 and 3. -/
def threeDb : Db ℤ :=
  { exampleDb with
    prog := ⟨[1, 2, 3].map fun id => ⟨id, 1, 250, 1800, "both", 1, 5, 2, 5, 1, 5, 1, 1, 1, 0⟩,
      by decide⟩ }

/-- A turn in which `n` actions are taken and succeed. -/
def exampleTurn (c : Command ℤ) (n : ℕ) : List (DaemonLabel ℤ) :=
  .turn c :: List.replicate n (.main true)

/-- The daemon reads its settings and its data. -/
def exampleInit : List (DaemonLabel ℤ) := exampleTurn .appStart 5 ++ exampleTurn .appStart 10

/-- The program is started, its heater is powered, and it is stopped; its thread takes one
more control step before it notices. -/
def exampleStop : List (DaemonLabel ℤ) :=
  exampleInit ++ exampleTurn (.progStart [1]) 25 ++
    exampleTurn (.setHeaterPower [(1, 500)]) 7 ++ exampleTurn (.progStop [1]) 14 ++
    [.next, .next, .control (exampleReading 0 (some 240)), .next, .next, .cancel].map
      (fun t => .env (0, t)) ++ List.replicate 6 (.main true)

end Regonf
