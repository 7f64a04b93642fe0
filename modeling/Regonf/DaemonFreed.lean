import Regonf.DaemonRuns

/-! Freed programs are dead. Two failures break this: `addProgById` frees a program that is
already in the list when `pthread_create` fails, and the error path of `initData` frees the
programs that were loaded before the query failed, with their threads running. -/
namespace Regonf

open Script LinkedList

variable {R : Type}

/-- Neither of the two failures. -/
def cleanStep : DaemonConfig R → DaemonLabel R → Bool
  | ⟨.act (.attempt w) _, s⟩, .main o => CleanOutcome w o s.globals.prog_list
  | _, _ => true

variable [Zero R] [Sqlite R] [Add R] [Sub R] [LT R] [DecidableLT R] [BEq R]

omit [Sqlite R] in
theorem cleanStep_meets (c : DaemonConfig R) (l : DaemonLabel R) (h : cleanStep c l = true) :
    Meets (contract True False) (fun x _ => False → Command.isProgramList x) Sees c l := by
  refine meets_of (fun _ _ _ _ hf => hf.elim) fun β a k s o hc hl v hv => ?_
  subst hc hl
  cases a with
  | attempt w =>
    refine ⟨fun _ => ?_, fun hf => hf.elim⟩
    rw [← hv.1]
    simpa [cleanStep] using h
  | selectProg id => exact fun hf => hf.elim
  | _ => trivial

omit [Zero R] [Add R] [Sub R] [LT R] [DecidableLT R] [BEq R] [Sqlite R] in
theorem Defined.mem {β : Type} {a : CellAct R β} {b : Block R} (h : Defined a b) :
    b.mem = .allocated := by
  cases a with
  | create => exact h.1
  | cancel => exact h.1
  | join => exact h.1
  | _ => exact h

section clean
variable {db : Db R} {c : DaemonConfig R}
  (h : Reach daemonStep (fun c l => cleanStep c l = true) (startUp db) c)
include h

/-- In a clean run the main thread touches allocated memory only. -/
theorem clean_access {β : Type} {p : Ptr} {a : CellAct R β} {k : β → Main R Unit}
    (hc : c.code = .act (.cell p a) k) : (c.state.cell p).mem = .allocated := by
  obtain ⟨v, hv, hs⟩ := reach_view cleanStep_meets h
  rw [hc] at hs
  have hd : Defined a (v.cell p) := hs.2.1 trivial
  exact (hv.2.2 p).mem.trans hd.mem

/-- In a clean run every loop of the main thread ends. -/
theorem clean_no_undefined {k : Empty → Main R Unit} : c.code ≠ .act .undefined k := by
  intro hc
  obtain ⟨v, -, hs⟩ := reach_view cleanStep_meets h
  rw [hc] at hs
  exact hs.2.1 trivial

end clean

/-- Every program that has been freed is out of the list once the request has been dealt with,
its thread was never created or has been joined, and nobody holds its mutex, in every run in
which `pthread_create` does not fail and the query of `loadActiveProg` does not fail once a
program has been added. -/
theorem freed_programs_dead {db : Db R} {c : DaemonConfig R}
    (h : Reach daemonStep (fun c l => cleanStep c l = true) (startUp db) c) {p : Ptr}
    {a : AppState} (hp : (c.state.cell p).mem = .freed a) :
    ((c.state.cell p).prog.thread = .absent ∨ (c.state.cell p).prog.thread = .joined) ∧
      (c.state.cell p).prog.mutex = none ∧
      (c.idle = true →
        ¬ Linked (fun q => (c.state.cell q).prog.next) c.state.globals.prog_list.top p) := by
  obtain ⟨v, hv, hs⟩ := reach_view cleanStep_meets h
  have hmem : (v.cell p).mem = .freed a := (hv.2.2 p).mem.symm.trans hp
  have hdead : Dead (v.cell p) := hs.always p a hmem (Or.inl trivial)
  obtain ⟨hthread, hmutex⟩ := (hv.2.2 p).dead hdead
  refine ⟨hthread, hmutex, fun hi hl => ?_⟩
  obtain ⟨w, ps, hw, hown⟩ := reach_idle cleanStep_meets h hi
  -- the programs in the list are alive
  have hlive := (hown.live trivial p (hw.linked hown hl)).1
  rw [← (hw.2.2 p).mem, hp] at hlive
  cases hlive

/-- A program that is started and stopped. -/
theorem freed_programs_dead_example :
    ∃ c, Reach daemonStep (fun c l => cleanStep c l = true) (startUp exampleDb) c ∧
      c.idle = true ∧ (c.state.cell 0).mem = .freed .appRun ∧
      (((c.state.cell 0).prog.thread = .absent ∨ (c.state.cell 0).prog.thread = .joined) ∧
        (c.state.cell 0).prog.mutex = none ∧
        (c.idle = true → ¬ Linked (fun q => (c.state.cell q).prog.next)
          c.state.globals.prog_list.top 0)) := by
  have hrun : (run daemonStep cleanStep (startUp exampleDb) exampleStop).map
      (fun c => (c.idle, (c.state.cell 0).mem)) = some (true, .freed .appRun) := by
    decide +kernel
  obtain ⟨c, hc, he⟩ := Option.map_eq_some_iff.mp hrun
  obtain ⟨hi, hm⟩ := Prod.mk.inj he
  exact ⟨c, run_reach hc, hi, hm, freed_programs_dead (run_reach hc) hm⟩

/-- The thread of the program cannot be created: it is freed and stays in the list. The same
program is loaded when the daemon starts and the query fails behind it: it is freed with its
thread running. -/
theorem failures_free_listed_and_running :
    (∃ c, Reach daemonStep (fun _ _ => True) (startUp exampleDb) c ∧ c.idle = true ∧
      (c.state.cell 0).mem = .freed .appRun ∧
      Linked (fun q => (c.state.cell q).prog.next) c.state.globals.prog_list.top 0) ∧
    ∃ c, Reach daemonStep (fun _ _ => True)
        (startUp { exampleDb with prog := exampleDb.prog.set 1 (.load 1) }) c ∧
      c.idle = true ∧ (c.state.cell 0).mem = .freed .appInitData ∧
      (c.state.cell 0).prog.thread = .alive .ready false := by
  constructor
  · have hrun : (run daemonStep (fun _ _ => true) (startUp exampleDb)
        (exampleInit ++ exampleTurn (.progStart [1]) 23 ++ [.main false, .main true])).map
          (fun c => (c.idle, (c.state.cell 0).mem, c.state.globals.prog_list.top)) =
        some (true, .freed .appRun, some 0) := by
      decide +kernel
    obtain ⟨c, hc, he⟩ := Option.map_eq_some_iff.mp hrun
    simp only [Prod.mk.injEq] at he
    exact ⟨c, Reach.mono (fun _ _ _ => trivial) (run_reach hc), he.1, he.2.1, .head he.2.2⟩
  · have hrun : (run daemonStep (fun _ _ => true)
        (startUp { exampleDb with prog := exampleDb.prog.set 1 (.load 1) })
        (exampleTurn .appStart 5 ++ exampleTurn .appStart 30 ++ [.main false] ++
          List.replicate 7 (.main true))).map
          (fun c => (c.idle, (c.state.cell 0).mem, (c.state.cell 0).prog.thread)) =
        some (true, .freed .appInitData, .alive .ready false) := by
      decide +kernel
    obtain ⟨c, hc, he⟩ := Option.map_eq_some_iff.mp hrun
    simp only [Prod.mk.injEq] at he
    exact ⟨c, Reach.mono (fun _ _ _ => trivial) (run_reach hc), he.1, he.2.1, he.2.2⟩

end Regonf
