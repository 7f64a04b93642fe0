import Regonf.DaemonFreed
import Regonf.DaemonOrder

/-! The main thread and the control threads beside each other: they never work on one regulator at
the same time, and every turn of the main loop comes to its end. -/
namespace Regonf

open Script

variable {R : Type} [Zero R] {fresh : Option Ptr} {t : Daemon R (Marked R)}

theorem order_linkProg (item : Ptr) (list : ProgList) :
    PreservesOrder none fresh (linkProg item list : Main R Unit) := by
  unfold linkProg
  split
  · exact order_setGlobals fun _ => rfl
  · exact order_relink _ _
  · exact order_undefined

theorem order_addProg (item : Ptr) : PreservesOrder none fresh (addProg item : Main R Bool) := by
  refine order_globals.bind fun g => Preserves.ite (order_pure false) ?_
  refine (order_linkProg item _).bind fun _ => ?_
  exact Preserves.bind (order_setGlobals fun _ => rfl) fun _ => order_pure true

/-- A new block is all zero. -/
theorem order_malloc {f : Ptr → Main R Bool} (hf : ∀ item u, Orderly none (some item) u →
    Safe (exec markedExec zeroMarked) orderly (f item) (fun _ => Orderly none none) u) :
    PreservesOrder none none (.lift .malloc >>= f) := by
  intro t ht
  refine safe_lift ht.named trivial fun o item u _ he => ?_
  cases he
  refine hf t.brk _ { ht with named := fun q => ?_, held := fun q => ?_, fresh := fun q hq => ?_ }
  · dsimp only
    -- the block is the one that has not been used yet
    rcases eq_or_ne q t.brk with rfl | hq
    · rw [Function.update_self]
      trivial
    · rw [Function.update_of_ne hq]
      exact ht.named q
  · dsimp only
    rcases eq_or_ne q t.brk with rfl | hq
    · rw [Function.update_self]
      exact iff_of_false Bool.false_ne_true nofun
    · rw [Function.update_of_ne hq]
      exact ht.held q
  · cases hq
    dsimp only
    rw [Function.update_self]
    exact nofun

theorem order_unlinkProg (prev : Option Ptr) (curr : Ptr) :
    PreservesOrder none fresh (unlinkProg prev curr : Main R Unit) := by
  refine Preserves.bind (order_plain trivial) fun next => ?_
  cases prev with
  | none =>
    refine Preserves.bind (order_setGlobals fun _ => rfl) fun _ => ?_
    exact order_setGlobals fun _ => rfl
  | some q => exact (order_relink q next).bind fun _ => order_setGlobals fun _ => rfl

theorem order_initApp : PreservesOrder none fresh (initApp : Main R Bool) := by
  refine (order_attempt _).bind fun o => Preserves.ite (order_pure false) ?_
  refine (order_attempt _).bind fun o => Preserves.ite (order_pure false) ?_
  exact order_attempt _

variable [Sqlite R]

theorem order_addProgById (prog_id : ℤ) (dbl : Bool) :
    PreservesOrder none none (addProgById prog_id dbl : Main R Bool) := by
  refine (order_getProgById prog_id).bind fun found => Preserves.ite (order_pure false) ?_
  refine (order_attempt _).bind fun o => Preserves.ite (order_pure false) ?_
  refine order_malloc fun item u hu => ?_
  -- every failure frees the block
  have hfree : PreservesOrder none none (do access item .free; return false : Main R Bool) :=
    Preserves.bind (order_plain trivial) fun _ => order_pure false
  have hid : PreservesOrder none (some item) (access item (.setId prog_id) : Main R Unit) :=
    order_plain trivial
  refine (hid u hu).seq fun _ u hu => ?_
  refine (order_attempt .initMutex u hu).seq fun o u hu => ?_
  cases o with
  | false => exact hfree u hu.forget
  | true =>
    refine (order_attempt .initClient u hu).seq fun o u hu => ?_
    cases o with
    | false => exact hfree u hu.forget
    | true =>
      -- until here the thread is not there
      refine (order_getProgByIdFDB rfl prog_id dbl u hu).seq fun o u hu => ?_
      cases o with
      | false => exact hfree u hu.forget
      | true =>
        -- from here on the program is in the list, and its thread is created last
        have hstart : PreservesOrder none none (do
            if !(← addProg item) then
              freeProg item
              return false
            if !(← attempt .createMThread) then
              freeProg item
              return false
            access item .create
            return true : Main R Bool) := by
          refine (order_addProg item).bind fun o => Preserves.ite hfree ?_
          refine (order_attempt _).bind fun o => Preserves.ite hfree ?_
          exact (order_create item).bind fun _ => order_pure true
        exact hstart u hu.forget

theorem order_deleteProgFrom (id : ℤ) (n : ℕ) (prev p : Option Ptr) :
    PreservesOrder none fresh (deleteProgFrom id n prev p : Main R Bool) := by
  -- on the walk; the program is out of the list before its thread is stopped
  induction n generalizing prev p with
  | zero =>
    cases p with
    | none => exact order_pure false
    | some p => exact order_undefined
  | succ n ih =>
    cases p with
    | none => exact order_pure false
    | some curr =>
      refine Preserves.bind (order_plain trivial) fun x => Preserves.ite ?_ ?_
      · refine (order_unlinkProg prev curr).bind fun _ => ?_
        refine (order_stopProgThread curr).bind fun _ => ?_
        refine Preserves.bind (order_plain trivial) fun x => ?_
        refine (order_saveTableField _ _ _).bind fun _ => ?_
        exact Preserves.bind (order_plain trivial) fun _ => order_pure true
      · exact Preserves.bind (order_plain trivial) fun next => ih (some curr) next

theorem order_deleteProgById (id : ℤ) :
    PreservesOrder none fresh (deleteProgById id : Main R Bool) :=
  order_blocks.bind fun n => order_globals.bind fun _ => order_deleteProgFrom id n none _

theorem order_loadActiveProg : PreservesOrder none none (loadActiveProg : Main R Bool) := by
  refine (order_dbOpen false).bind fun o => Preserves.ite (order_pure false) ?_
  refine order_globals.bind fun g => order_dbExec (fun id => ?_) _
  exact (order_addProgById id true).bind fun _ => order_pure true

theorem order_initData : PreservesOrder none none (initData : Main R Bool) := by
  have hlist {w : Fallible} {f : Globals R → Globals R} (hf : ∀ g, (f g).exited = g.exited) :
      PreservesOrder none none (do
        if !(← attempt w) then return false
        setGlobals f
        return true : Main R Bool) := by
    refine (order_attempt w).bind fun o => Preserves.ite (order_pure false) ?_
    exact (order_setGlobals hf).bind fun _ => order_pure true
  refine (order_attempt _).bind fun o => Preserves.ite (order_pure false) ?_
  refine Preserves.bind (hlist fun _ => rfl) fun o => Preserves.ite (order_pure false) ?_
  refine Preserves.bind (hlist fun _ => rfl) fun o => Preserves.ite ?_ ?_
  · exact order_freeLists.bind fun _ => order_pure false
  · refine order_loadActiveProg.bind fun o => Preserves.ite ?_ (order_pure true)
    exact order_freeProgList.bind fun _ => order_freeLists.bind fun _ => order_pure false

/-! The requests. -/

theorem order_setterBody (s : Setter R) (id : ℤ) (item : Ptr) :
    PreservesOrder (some item) fresh (s.body id item) := by
  refine Preserves.bind (order_forM fun o _ => order_plain (Or.inl rfl)) fun _ => ?_
  -- the operations are applied, then the column is saved
  have hsave : PreservesOrder (some item) fresh (saveColumn id item s.column) := by
    unfold saveColumn
    split
    · exact order_pure ()
    · refine Preserves.bind (order_plain trivial) fun v => Preserves.ite (order_pure ()) ?_
      exact order_saveTableField _ _ _
  cases s.newSave with
  | none => exact Preserves.bind (order_pure ()) fun _ => hsave
  | some v => exact Preserves.bind (order_plain trivial) fun _ => hsave

theorem order_setProgs {β : Type} (setter : β → Setter R) (rows : List (ℤ × β)) :
    PreservesOrder none fresh (setProgs setter rows) := by
  refine order_forM fun row _ => (order_getProgById row.1).bind fun found => ?_
  cases found with
  | none => exact order_pure ()
  | some item => exact order_locked (order_setterBody (setter row.2) row.1 item)

theorem order_progStop (ids : List ℤ) : PreservesOrder none fresh (progStop ids : Main R Unit) := by
  refine order_forM fun id _ => (order_getProgById id).bind fun found => ?_
  cases found with
  | none => exact order_pure ()
  | some item =>
    -- it is turned off under its mutex, which is given back before the thread is joined
    refine (order_turnOffLocked item).bind fun _ => ?_
    exact (order_deleteProgById id).bind fun _ => order_pure ()

theorem order_progStart (ids : List ℤ) : PreservesOrder none none (progStart ids : Main R Unit) :=
  order_forM fun id _ => (order_addProgById id false).bind fun _ => order_pure ()

theorem order_serverRunProg (c : Command R) : PreservesOrder none none (serverRunProg c) := by
  cases c with
  | progStop ids => exact order_progStop ids
  | progStart ids => exact order_progStart ids
  | progReset ids => exact (order_progStop ids).bind fun _ => order_progStart ids
  | appStart => exact order_pure ()
  | appStop => exact order_pure ()
  | appReset => exact order_pure ()
  | appExit => exact order_pure ()
  | _ =>
    simp only [serverRunProg, progEnable, progDisable, progSetSave, setHeaterPower,
      setCoolerPower, setGoal, setHeaterDelta, setCoolerDelta, setChangeGap, setEMMode]
    exact order_setProgs _ _

theorem order_serverRun (c : Command R) (init_state : Bool) :
    PreservesOrder none none (serverRun c init_state) := by
  have hstate (a : AppState) : PreservesOrder none none (setAppState a : Main R Unit) :=
    order_setGlobals fun _ => rfl
  unfold serverRun
  split
  · exact Preserves.ite (order_pure ()) (hstate _)
  · exact Preserves.ite (hstate _) (order_pure ())
  · exact hstate _
  · exact hstate _
  · exact Preserves.ite (order_serverRunProg _) (order_pure ())

/-- Between two turns the main thread holds no mutex. -/
structure AtRest (t : Daemon R (Marked R)) : Prop where
  named : ∀ p, (t.cell p).named
  held : ∀ p, (t.cell p).block.held = false

omit [Zero R] [Sqlite R] in
theorem Orderly.atRest (h : Orderly none fresh t) : AtRest t := ⟨h.named, h.not_held⟩

/-- The judgement on the scripts of a turn. -/
theorem order_mainTurn (c : Command R) (h : AtRest t) :
    Safe (exec markedExec zeroMarked) orderly (mainTurn c) (fun _ => AtRest) t := by
  refine safe_lift h.named trivial fun _ g u _ he => ?_
  cases he
  -- nothing is done once the daemon has exited
  split_ifs with hx
  · exact safe_pure h.named h
  have ht : Orderly none none t := ⟨by simpa using hx, h.named,
    fun p => by simp [h.held p], nofun⟩
  have hstate (a : AppState) : PreservesOrder none none (setAppState a : Main R Unit) :=
    order_setGlobals fun _ => rfl
  have hrest {c : Main R Unit} (hc : PreservesOrder none none c) :
      Safe (exec markedExec zeroMarked) orderly c (fun _ => AtRest) t :=
    (hc t ht).mono fun _ _ _ h => h.atRest
  have hexit {u : Daemon R (Marked R)} (hu : Orderly none none u) :
      Safe (exec markedExec zeroMarked) orderly (exitNicely : Main R Unit) (fun _ => AtRest) u := by
    refine (order_freeData u hu).seq fun _ v hv => ?_
    refine safe_lift (f := Pure.pure) hv.named trivial fun _ x w _ he => ?_
    cases he
    exact ⟨hv.named, ⟨hv.named, hv.atRest.held⟩⟩
  split
  · refine (order_initApp t ht).seq fun o u hu => ?_
    split_ifs
    · exact (hstate _ u hu).mono fun _ _ _ h => h.atRest
    · exact hexit hu
  · exact hrest (order_initData.bind fun _ => order_setGlobals fun _ => rfl)
  · exact hrest (order_serverRun c _)
  · exact hrest (order_freeData.bind fun _ => order_setGlobals fun _ => rfl)
  · exact hrest (order_freeData.bind fun _ => order_setGlobals fun _ => rfl)
  · exact hexit ht

/-! Runs. -/

variable [Add R] [Sub R] [LT R] [DecidableLT R] [BEq R]

omit [Sqlite R] in
theorem exists_marks_initial (db : Db R) :
    ∃ t : Daemon R (Marked R), Marks (initialDaemon db) t ∧ AtRest t := by
  let m : Marked R := ⟨{ (zeroBlock : Block R) with mem := .unallocated }, false, True⟩
  have hm (p : Ptr) : Tracks ((initialDaemon db).cell p) m :=
    ⟨{ knows_zero with mem := rfl }, nofun, fun _ => names_zeroReg⟩
  exact ⟨⟨(initialDaemon db).globals, 0, fun _ => m⟩, ⟨rfl, rfl, hm⟩, fun _ => trivial,
    fun _ => rfl⟩

/-- In every configuration that a run reaches, the rest of the script keeps the order. -/
theorem reach_order {P : DaemonConfig R → DaemonLabel R → Prop} {db : Db R} {c : DaemonConfig R}
    (h : Reach daemonStep P (startUp db) c) : ∃ t, Marks c.state t ∧
      Safe (exec markedExec zeroMarked) orderly c.code (fun _ => AtRest) t := by
  obtain ⟨t, ht, hrest⟩ := exists_marks_initial db
  have hmeets : Reach daemonStep (Meets orderly (fun _ _ => True) Marks) (startUp db) c :=
    h.mono fun c l _ => meets_of (fun _ _ _ _ => trivial) fun _ _ _ _ _ _ _ _ _ => trivial
  have hsafe : Safe (exec markedExec zeroMarked) orderly (startUp db).code (fun _ => AtRest) t :=
    ⟨hrest.named, hrest⟩
  exact reach_safe marks_simulates (fun x t ht _ => order_mainTurn x ht) ht hsafe hmeets

end Regonf
