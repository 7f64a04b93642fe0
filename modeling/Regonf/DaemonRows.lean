import Regonf.DaemonRuns

/-! The programs in memory come from the database, as long as the database answers and only
programs that have a row are started. A query that finds no row succeeds all the same, and
`addProgById` starts a program that nothing has been loaded into. -/
namespace Regonf

open Script LinkedList

variable {R : Type}

/-- The requests start and stop programs, and the database answers. -/
def storedStep : DaemonConfig R → DaemonLabel R → Bool
  | _, .turn x => x.isProgramList
  | ⟨.act (.attempt w) _, _⟩, .main o => StoredOutcome w o
  | _, _ => true

/-- Besides, each program that is to be filled has a row, and where it can be filled from it,
the `load` of the row is 0 or 1. -/
def rowStep : DaemonConfig R → DaemonLabel R → Bool
  | ⟨.act (.selectProg id) _, s⟩, .main _ => RowFound s.globals id
  | _, _ => true

variable [Zero R]

/-- The program was filled from the row of its id, whose `load` is 1 now. -/
def Filled [Add R] [Sub R] [LT R] [DecidableLT R] [BEq R] (s : Daemon R (Cell R)) (p : Ptr) :
    Prop :=
  ∃ row ∈ s.globals.db.prog.rows, row.id = (s.cell p).prog.id ∧ row.load = 1 ∧
    ∃ sensor heater cooler, getSensorFTSById row.sensor_id s.globals.sensor_list = some sensor ∧
      getEMById row.heater_em_id s.globals.em_list = some heater ∧
      getEMById row.cooler_em_id s.globals.em_list = some cooler ∧
      Reached (regOfRow row sensor heater cooler
        (secureOfRows (s.globals.db.secure.filter fun r => r.id = row.secure_id))
        (getSensorFTSById row.green_light_sensor_id s.globals.sensor_list)) (s.cell p)

variable [Sqlite R] [Add R] [Sub R] [LT R] [DecidableLT R] [BEq R]

omit [Sqlite R] in
theorem storedStep_meets (c : DaemonConfig R) (l : DaemonLabel R)
    (h : (storedStep c l && rowStep c l) = true) :
    Meets (contract False True) (fun x _ => True → Command.isProgramList x) Sees c l := by
  obtain ⟨hstored, hrow⟩ := Bool.and_eq_true_iff.mp h
  refine meets_of (fun x hl _ _ _ => ?_) fun β a k s o hc hl v hv => ?_
  · subst hl
    exact hstored
  · subst hc hl
    cases a with
    | attempt w => exact ⟨fun hf => hf.elim, fun _ => by simpa [storedStep] using hstored⟩
    | selectProg id =>
      intro _
      rw [← hv.1]
      simpa [rowStep] using hrow
    | _ => trivial

omit [Sqlite R] in
/-- What the main thread knows of the origin of a program is true. -/
theorem Sees.filled {s : Daemon R (Cell R)} {v : View R} (h : Sees s v) {p : Ptr}
    (hf : FromRow v.globals (v.cell p)) : Filled s p := by
  obtain ⟨row, hrow, hid, hload, sensor, heater, cooler, hs, hh, hc, hreg⟩ := hf
  rw [← h.1] at hrow hs hh hc hreg
  have hreached := ((h.2.2 p).loaded _ hreg).reached
  exact ⟨row, hrow, hid.trans (h.2.2 p).id.symm, hload, sensor, heater, cooler, hs, hh, hc,
    hreached⟩

/-- Every program in `prog_list` was filled from the row of its id, whose `load` is 1, and no
thread was created for an id without a row, in every run in which each program that is to be
filled has a row whose `load` is 0 or 1. -/
theorem programs_from_rows {db : Db R} {c : DaemonConfig R}
    (h : Reach daemonStep (fun c l => (storedStep c l && rowStep c l) = true) (startUp db) c)
    (hi : c.idle = true) :
    (∀ p, Linked (fun q => (c.state.cell q).prog.next) c.state.globals.prog_list.top p →
      Filled c.state p) ∧
    ∀ p, (c.state.cell p).prog.thread ≠ .absent →
      ∃ row ∈ c.state.globals.db.prog.rows, row.id = (c.state.cell p).prog.id := by
  obtain ⟨v, ps, hv, hown⟩ := reach_idle storedStep_meets h hi
  constructor
  · intro p hp
    exact hv.filled (hown.rows trivial p (hv.linked hown hp))
  · intro p hp
    -- a thread that is there, or was, is known to the main thread
    have hthread : (v.cell p).thread ≠ .absent := by
      rw [← (hv.2.2 p).thread]
      intro he
      cases ht : (c.state.cell p).prog.thread with
      | absent => exact hp ht
      | alive ph k => rw [ht] at he; cases he
      | terminated => rw [ht] at he; cases he
      | joined => rw [ht] at he; cases he
    rw [hv.1, (hv.2.2 p).id]
    exact hown.known trivial p hthread

/-- The example program is started by a request that names it twice. -/
theorem programs_from_rows_example :
    ∃ c, Reach daemonStep (fun c l => (storedStep c l && rowStep c l) = true)
        (startUp exampleDb) c ∧ c.idle = true ∧ c.state.globals.prog_list.top = some 0 ∧
      (∀ p, Linked (fun q => (c.state.cell q).prog.next) c.state.globals.prog_list.top p →
        Filled c.state p) ∧
      ∀ p, (c.state.cell p).prog.thread ≠ .absent →
        ∃ row ∈ c.state.globals.db.prog.rows, row.id = (c.state.cell p).prog.id := by
  have hrun : (run daemonStep (fun c l => storedStep c l && rowStep c l) (startUp exampleDb)
      (exampleInit ++ exampleTurn (.progStart [1, 1]) 28)).map
        (fun c => (c.idle, c.state.globals.prog_list.top)) = some (true, some 0) := by
    decide +kernel
  obtain ⟨c, hc, he⟩ := Option.map_eq_some_iff.mp hrun
  obtain ⟨hi, htop⟩ := Prod.mk.inj he
  exact ⟨c, run_reach hc, hi, htop, programs_from_rows (run_reach hc) hi⟩

/-- The id 7 has no row: a program is added for it and its thread is started. -/
theorem unknown_program_started :
    ∃ c, Reach daemonStep (fun c l => storedStep c l = true) (startUp exampleDb) c ∧
      c.idle = true ∧
      Linked (fun q => (c.state.cell q).prog.next) c.state.globals.prog_list.top 0 ∧
      (c.state.cell 0).prog.id = 7 ∧ (c.state.cell 0).prog.thread = .alive .ready false ∧
      (∀ row ∈ c.state.globals.db.prog.rows, row.id ≠ 7) ∧ ¬ Filled c.state 0 := by
  have hrun : (run daemonStep storedStep (startUp exampleDb)
      (exampleInit ++ exampleTurn (.progStart [7]) 16)).map
        (fun c => (c.idle, c.state.globals.prog_list.top, (c.state.cell 0).prog.id,
          (c.state.cell 0).prog.thread, c.state.globals.db.prog.rows.map ProgRow.id)) =
      some (true, some 0, 7, .alive .ready false, [1]) := by
    decide +kernel
  obtain ⟨c, hc, he⟩ := Option.map_eq_some_iff.mp hrun
  simp only [Prod.mk.injEq] at he
  obtain ⟨hi, htop, hid, hthread, hrows⟩ := he
  have hno : ∀ row ∈ c.state.globals.db.prog.rows, row.id ≠ 7 := by
    intro row hrow he
    have hmem : (7 : ℤ) ∈ c.state.globals.db.prog.rows.map ProgRow.id :=
      List.mem_map.mpr ⟨row, hrow, he⟩
    rw [hrows] at hmem
    simp at hmem
  refine ⟨c, run_reach hc, hi, .head htop, hid, hthread, hno, fun hf => ?_⟩
  obtain ⟨row, hrow, he, -⟩ := hf
  exact hno row hrow (he.trans hid)

end Regonf
