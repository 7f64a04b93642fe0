import Regonf.DaemonAddCall
import Regonf.DaemonRuns

/-! `addProgById` is all or nothing, in every state of the list and with every way its steps can
turn out, unless the thread of the program cannot be created: the program is freed then, though
it is in the list. -/
namespace Regonf

open Script LinkedList

variable {R : Type}

/-- What the main thread knows of a program when it has forgotten what it was filled with. -/
def Cell.view (c : Cell R) : Block R where
  id := c.prog.id
  save := c.prog.save
  next := c.prog.next
  mem := c.mem
  held := c.prog.mutex = some .main
  thread := c.prog.thread.status
  loaded := none
  ops := []
  unused := false
  quiet := False

def Daemon.view (s : Daemon R (Cell R)) : View R where
  globals := s.globals
  brk := s.brk
  cell := fun p => (s.cell p).view

/-- The control threads hold the mutexes in their critical sections. -/
def Coherent (s : Daemon R (Cell R)) : Prop :=
  ∀ p, (s.cell p).prog.mutex = some .control ↔ (s.cell p).prog.thread.critical = true

/-- `prog_list` represents the programs at `ps`. -/
abbrev Daemon.Lists (s : Daemon R (Cell R)) (ps : List Ptr) : Prop :=
  Represents (fun c => c.prog.next) Cell.mem s ps

theorem Represents.view {s : Daemon R (Cell R)} {ps : List Ptr} (h : s.Lists ps) :
    s.view.Represents ps :=
  h.congr rfl (fun _ _ => rfl) h.alive h.fresh

/-- The thread has not been asked to end. -/
def Thread.undisturbed : Thread → Bool
  | .absent => true
  | .alive _ k => !k
  | _ => false

section
variable [Zero R]

/-- An access to the link or the mutex. -/
theorem cellTouch_link {β : Type} {st : AppState} {a : CellAct R β} {x : β} {c c' : Cell R}
    (ha : a.isLink = true) (h : cellTouch st β a c = some (x, c')) :
    ∃ m n, c' = c.set fun q => { q with mutex := m, next := n } := by
  obtain ⟨⟨id, reg, save, thread, mutex, next⟩, sent, mem⟩ := c
  cases a with
  | id => cases h; exact ⟨_, _, rfl⟩
  | next => cases h; exact ⟨_, _, rfl⟩
  | setNext v => cases h; exact ⟨_, _, rfl⟩
  | lockMutex => rcases mutex with _ | _ | _ <;> cases h <;> exact ⟨_, _, rfl⟩
  | unlockMutex => rcases mutex with _ | _ | _ <;> cases h <;> exact ⟨_, _, rfl⟩
  | _ => cases ha

/-- Only `pthread_cancel` and `pthread_join` disturb a thread. -/
theorem cellTouch_undisturbed {β : Type} {st : AppState} {a : CellAct R β} {x : β}
    {c c' : Cell R} (ha : a.isStop = false) (h : cellTouch st β a c = some (x, c'))
    (hc : c.prog.thread.undisturbed = true) : c'.prog.thread.undisturbed = true := by
  obtain ⟨⟨id, reg, save, thread, mutex, next⟩, sent, mem⟩ := c
  cases a with
  | cancel => cases ha
  | join => cases ha
  -- a second thread is never created
  | create =>
    cases thread with
    | absent => cases h; rfl
    | _ => cases h
  | lockMutex => rcases mutex with _ | _ | _ <;> cases h <;> exact hc
  | unlockMutex => rcases mutex with _ | _ | _ <;> cases h <;> exact hc
  | _ => cases h; exact hc

end

variable [Zero R] [Add R] [Sub R] [LT R] [DecidableLT R] [BEq R]

theorem knows_view {c : Cell R}
    (h : c.prog.mutex = some .control ↔ c.prog.thread.critical = true) : Knows c c.view where
  id := rfl
  save := rfl
  next := rfl
  mem := rfl
  held := decide_eq_true_iff
  critical := h
  thread := rfl
  loaded := fun _ hreg => by cases hreg
  unused := fun hu => by cases hu
  quiet := fun hq => hq.elim

theorem sees_view {s : Daemon R (Cell R)} (h : Coherent s) : Sees s s.view :=
  ⟨rfl, rfl, fun p => knows_view (h p)⟩

theorem Sees.coherent {s : Daemon R (Cell R)} {v : View R} (h : Sees s v) : Coherent s :=
  fun p => (h.2.2 p).critical

theorem Sees.lists {s : Daemon R (Cell R)} {v : View R} {ps : List Ptr} (h : Sees s v)
    (hv : v.Represents ps) : s.Lists ps := by
  refine hv.congr (congrArg _ h.1) (fun p _ => (h.2.2 p).next) (fun p hp => ?_) fun p hp => ?_
  · exact (h.2.2 p).mem.trans (hv.alive p hp)
  · rw [h.2.1] at hp
    exact (h.2.2 p).mem.trans (hv.fresh p hp)

/-- The program is what it was, moved on by its own control thread alone. The link and the mutex
are not looked at. -/
structure LeftAlone (c c' : Cell R) : Prop where
  id : c'.prog.id = c.prog.id
  save : c'.prog.save = c.prog.save
  mem : c'.mem = c.mem
  status : c'.prog.thread.status = c.prog.thread.status
  control : ∃ (inps : List (ControlInput R)) (out : List (Request R)),
    Controller.run step c.prog.reg (inps.map .control) = some (c'.prog.reg, out) ∧
      c'.sent = c.sent ++ out

theorem LeftAlone.refl (c : Cell R) : LeftAlone c c :=
  ⟨rfl, rfl, rfl, rfl, [], [], rfl, (List.append_nil _).symm⟩

theorem LeftAlone.trans {c c' c'' : Cell R} (h : LeftAlone c c') (h' : LeftAlone c' c'') :
    LeftAlone c c'' := by
  obtain ⟨is, out, hr, hs⟩ := h.control
  obtain ⟨is', out', hr', hs'⟩ := h'.control
  refine ⟨h'.id.trans h.id, h'.save.trans h.save, h'.mem.trans h.mem, h'.status.trans h.status,
    is ++ is', out ++ out', ?_, ?_⟩
  · rw [List.map_append]
    exact Controller.run_append_some.mpr ⟨_, _, _, hr, hr', rfl⟩
  · rw [hs', hs, List.append_assoc]

/-- A step of its control thread leaves a program alone. -/
theorem cellStep_leftAlone {c c' : Cell R} {t : Tick R} (h : cellStep c t = some c') :
    LeftAlone c c' := by
  obtain ⟨reg, th, mu, out, rfl, hst, hst', -, -, hreg⟩ := cellStep_cases h
  refine ⟨rfl, rfl, rfl, hst'.trans hst.symm, ?_⟩
  rcases hreg with ⟨rfl, rfl⟩ | ⟨inp, hs⟩
  · exact ⟨[], [], rfl, rfl⟩
  · exact ⟨[inp], out, Controller.run_cons_some.mpr
      ⟨_, out, [], hs, rfl, (List.append_nil out).symm⟩, rfl⟩

theorem cellStep_undisturbed {c c' : Cell R} {t : Tick R} (h : cellStep c t = some c')
    (hc : c.prog.thread.undisturbed = true) : c'.prog.thread.undisturbed = true := by
  obtain ⟨⟨id, reg, save, thread, mutex, next⟩, sent, mem⟩ := c
  cases thread with
  | alive ph k =>
    -- a thread ends only when it has been asked to
    have hk : k = false := by simpa [Thread.undisturbed] using hc
    subst hk
    cases ph with
    | ready => cases t <;> cases h; rfl
    | cancelOff =>
      cases t with
      | next => cases mutex <;> cases h; rfl
      | _ => cases h
    | locked =>
      cases t with
      | control inp =>
        obtain ⟨r, -, rfl⟩ := Option.map_eq_some_iff.mp h
        rfl
      | _ => cases h
    | controlled => cases t <;> cases h; rfl
    | unlocked => cases t <;> cases h; rfl
    | sleeping => cases t <;> cases h; rfl
  | _ => cases h

/-- Since `s` the programs at `ps` have been left alone, and no new thread has been asked to
end. -/
structure Spared (s : Daemon R (Cell R)) (ps : List Ptr) (t : Daemon R (Cell R)) : Prop where
  brk : s.brk ≤ t.brk
  kept : ∀ q ∈ ps, q < s.brk ∧ LeftAlone (s.cell q) (t.cell q)
  new : ∀ q, s.brk ≤ q → q < t.brk → (t.cell q).prog.thread.undisturbed = true

section spared
variable {s t t' : Daemon R (Cell R)} {ps : List Ptr} {p : Ptr} {c : Cell R}

theorem Spared.refl (h : s.Lists ps) : Spared s ps s :=
  ⟨le_rfl, fun q hq => ⟨h.below q hq, .refl _⟩,
    fun _ hq hlt => absurd hq (Nat.not_le.mpr hlt)⟩

/-- One program has taken a step. -/
theorem Spared.update (h : Spared s ps t) (hk : p ∈ ps → LeftAlone (t.cell p) c)
    (hn : (t.cell p).prog.thread.undisturbed = true → c.prog.thread.undisturbed = true) :
    Spared s ps (t.put p c) := by
  refine ⟨h.brk, fun q hq => ⟨(h.kept q hq).1, ?_⟩, fun q hq hlt => ?_⟩
  · rcases eq_or_ne q p with rfl | hne
    · rw [put_cell_self]
      exact (h.kept q hq).2.trans (hk hq)
    · rw [put_cell_of_ne hne]
      exact (h.kept q hq).2
  · rcases eq_or_ne q p with rfl | hne
    · rw [put_cell_self]
      exact hn (h.new q hq hlt)
    · rw [put_cell_of_ne hne]
      exact h.new q hq hlt

theorem Spared.threadStep {e : Ptr × Tick R} (h : Spared s ps t)
    (he : threadStep t e = some t') : Spared s ps t' := by
  unfold Regonf.threadStep at he
  split_ifs at he
  obtain ⟨c, hc, rfl⟩ := Option.map_eq_some_iff.mp he
  exact h.update (fun _ => cellStep_leftAlone hc) (cellStep_undisturbed hc)

omit [Add R] [Sub R] [LT R] [DecidableLT R] [BEq R] in
theorem cellTouch_of_exec {β : Type} {st : AppState} {a : CellAct R β} {x : β} {c c' : Cell R}
    (h : cellExec st β a c = some (x, c')) : cellTouch st β a c = some (x, c') := by
  rw [cellExec, Option.ite_none_right_eq_some] at h
  exact h.2

/-- An action that spares the programs in the list. -/
theorem Spared.act {β : Type} {a : Act R β} {o : Bool} {x : β} {v : View R × Attempts}
    (h : Spared s ps t) (hd : (sparing ps false).demand β a v)
    (he : exec cellExec zeroCell β a o t = some (x, t')) : Spared s ps t' := by
  cases a with
  | malloc =>
    -- the new block lies behind all the programs of the list
    cases he
    refine ⟨Nat.le_succ_of_le h.brk, fun q hq => ?_, fun q hq hlt => ?_⟩
    · have hne : q ≠ t.brk := Nat.ne_of_lt (Nat.lt_of_lt_of_le (h.kept q hq).1 h.brk)
      dsimp only
      rw [Function.update_of_ne hne]
      exact h.kept q hq
    · dsimp only
      rcases eq_or_ne q t.brk with rfl | hne
      · rw [Function.update_self]
        rfl
      · rw [Function.update_of_ne hne]
        exact h.new q hq (Nat.lt_of_le_of_ne (Nat.le_of_lt_succ hlt) hne)
  | cell p a =>
    obtain ⟨⟨y, c⟩, hc, he⟩ := Option.map_eq_some_iff.mp he
    cases he
    have htouch := cellTouch_of_exec hc
    have had : (a.isLink || (p ∉ ps && (false || !a.isStop))) = true := hd.2
    rw [Bool.false_or, Bool.or_eq_true, Bool.and_eq_true] at had
    rcases had with hlink | ⟨hp, hstop⟩
    -- a program of the list may be linked anew; any other may be worked on
    · obtain ⟨m, n, rfl⟩ := cellTouch_link hlink htouch
      exact h.update (fun _ => ⟨rfl, rfl, rfl, rfl, [], [], rfl, (List.append_nil _).symm⟩) id
    · refine h.update (fun hmem => absurd hmem (of_decide_eq_true hp)) ?_
      exact cellTouch_undisturbed (by simpa using hstop) htouch
  | globals => cases he; exact h
  | setGlobals f => cases he; exact ⟨h.brk, h.kept, h.new⟩
  | attempt w => cases he; exact h
  | selectProg id => cases he; exact h
  | blocks => cases he; exact h
  | undefined => cases he

end spared

/-- What a call of `addProgById` in `s`, whose list is `ps`, is to do if its result is `o`. -/
structure AllOrNothing (s : Daemon R (Cell R)) (ps : List Ptr) (id : ℤ) (o : Bool)
    (t : Daemon R (Cell R)) : Prop where
  others : ∀ q ∈ ps, LeftAlone (s.cell q) (t.cell q) ∧
    ((t.cell q).prog.mutex = some .main → (s.cell q).prog.mutex = some .main)
  nothing : o = false → t.globals.prog_list = s.globals.prog_list ∧ t.Lists ps ∧
    ∀ q ∈ ps, (t.cell q).prog.next = (s.cell q).prog.next
  all : o = true → (∀ q ∈ ps, (s.cell q).prog.id ≠ id) ∧ ∃ p ∉ ps, t.Lists (ps ++ [p]) ∧
    (t.cell p).prog.id = id ∧ ∃ ph, (t.cell p).prog.thread = .alive ph false

omit [Zero R] [Add R] [Sub R] [LT R] [DecidableLT R] [BEq R] in
/-- A thread that was created and has not been asked to end runs. -/
theorem Thread.alive_of_status {th : Thread} (hs : th.status = .created)
    (hu : th.undisturbed = true) : ∃ ph, th = .alive ph false := by
  cases th with
  | alive ph k =>
    have hk : k = false := by simpa [Thread.undisturbed] using hu
    exact ⟨ph, by rw [hk]⟩
  | terminated => cases hu
  | _ => cases hs

section result
variable [Sqlite R] {s t : Daemon R (Cell R)} {ps : List Ptr} {id : ℤ} {dbl o : Bool}
  {l : Attempts}

/-- A call, as the main thread sees it. -/
theorem addProgById_case (hs : s.Lists ps) (hc : Coherent s)
    (h : Returns (exec cellExec zeroCell) threadStep noteAttempt (addProgById id dbl) s l o t) :
    ∃ w, Sees t w ∧ AddCase s.view ps id w l o ∧ Spared s ps t := by
  have hsafe : Sparing ps false (addProgById id dbl) _ s.view [] :=
    sparing_addProgById hs.view (by simp [Calm])
  obtain ⟨w, hw, hq, hp⟩ := Runs.safe sees_simulates (fun _ _ _ _ => trivial)
    (P := Spared s ps) (fun _ _ _ hp he => hp.threadStep he)
    (fun β a o b u u' v hp _ hd he => hp.act hd he) h (sees_view hc)
    (.refl hs) hsafe
  exact ⟨w, hw, hq.2, hp⟩

/-- A call of `addProgById` is all or nothing if and only if the creation of its thread, where
it comes to that, does not fail. -/
theorem addProgById_all_or_nothing (hs : s.Lists ps) (hc : Coherent s)
    (h : Returns (exec cellExec zeroCell) threadStep noteAttempt (addProgById id dbl) s l o t) :
    AllOrNothing s ps id o t ↔ (Fallible.createMThread, false) ∉ l := by
  obtain ⟨w, hw, hcase, hspared⟩ := addProgById_case hs hc h
  -- what the main thread holds it has held before
  have hheld (q : Ptr) (hle : (w.cell q).held = true → (s.view.cell q).held = true)
      (hm : (t.cell q).prog.mutex = some .main) : (s.cell q).prog.mutex = some .main :=
    of_decide_eq_true (hle ((hw.2.2 q).held.mpr hm))
  cases hcase with
  | refused calm list cell represents =>
    refine iff_of_true ⟨fun q hq => ⟨(hspared.kept q hq).2, hheld q ?_⟩, fun _ => ?_, nofun⟩ calm
    · rw [cell q hq]
      exact fun hh => hh
    · refine ⟨by rw [hw.1, list]; rfl, hw.lists represents, fun q hq => ?_⟩
      rw [(hw.2.2 q).next, cell q hq]
      rfl
  | added calm ids held represents new thread =>
    refine iff_of_true ⟨fun q hq => ⟨(hspared.kept q hq).2, hheld q (held q hq)⟩, nofun,
      fun _ => ⟨ids, s.brk, hs.brk_not_mem, hw.lists represents, (hw.2.2 _).id.trans new, ?_⟩⟩
      calm
    have hlt : s.brk < t.brk := by
      rw [hw.2.1]
      exact represents.below _ (by simp [Daemon.view])
    exact Thread.alive_of_status ((hw.2.2 _).thread.trans thread)
      (hspared.new _ le_rfl hlt)
  | dangling failed length =>
    -- the result is 0 and the list is longer by one
    refine iff_of_false (fun hall => ?_) failed
    have hlist := (hall.nothing rfl).1
    rw [hw.1] at hlist
    rw [hlist, hs.length] at length
    exact absurd length (Nat.ne_of_lt (Nat.lt_succ_self _))

/-- A call that returns 1 has appended the block that it has allocated. -/
theorem addProgById_appends (hs : s.Lists ps) (hc : Coherent s)
    (h : Returns (exec cellExec zeroCell) threadStep noteAttempt (addProgById id dbl) s l true t) :
    t.Lists (ps ++ [s.brk]) ∧ Coherent t := by
  obtain ⟨w, hw, hcase, -⟩ := addProgById_case hs hc h
  cases hcase with
  | added calm ids held represents new thread => exact ⟨hw.lists represents, hw.coherent⟩

end result

/-- A daemon that has its data and no program started. -/
def readyDaemon (db : Db ℤ) : Daemon ℤ (Cell ℤ) :=
  let s := initialDaemon db
  { s with globals := { s.globals with
      app_state := .appRun, data_initialized := true
      sensor_list := db.sensors, em_list := db.ems } }

theorem readyDaemon_lists (db : Db ℤ) : (readyDaemon db).Lists [] :=
  ⟨rfl, rfl, rfl, List.forall_mem_nil _, fun _ _ => rfl⟩

theorem readyDaemon_coherent (db : Db ℤ) : Coherent (readyDaemon db) := fun _ =>
  iff_of_false (fun h => by cases h) Bool.false_ne_true

def exampleReady : Daemon ℤ (Cell ℤ) := readyDaemon exampleDb

/-- Program 2 is added behind program 1, whose thread takes a step meanwhile. -/
theorem addProgById_all_or_nothing_example :
    ∃ (s : Daemon ℤ (Cell ℤ)) (l : Attempts) (t : Daemon ℤ (Cell ℤ)), s.Lists [0] ∧
      Returns (exec cellExec zeroCell) threadStep noteAttempt (addProgById 2 false) s l true t ∧
      (AllOrNothing s [0] 2 true t ↔ (Fallible.createMThread, false) ∉ l) := by
  have hrun : ((eval (exec cellExec zeroCell) threadStep noteAttempt (addProgById 1 false)
      (readyDaemon threeDb) (List.replicate 24 (.inl true))).bind fun r₁ =>
      (eval (exec cellExec zeroCell) threadStep noteAttempt (addProgById 2 false) r₁.2.1
        (.inl true :: .inr (0, .next) :: List.replicate 27 (.inl true))).map fun r₂ =>
      (r₁.1, r₂.1)) = some (true, true) := by
    decide +kernel
  obtain ⟨⟨o₁, s, l₁⟩, h₁, hrun⟩ := Option.bind_eq_some_iff.mp hrun
  obtain ⟨⟨o₂, t, l⟩, h₂, hrun⟩ := Option.map_eq_some_iff.mp hrun
  simp only [Prod.mk.injEq] at hrun
  obtain ⟨rfl, rfl⟩ := hrun
  obtain ⟨hs, hc⟩ := addProgById_appends (readyDaemon_lists threeDb)
    (readyDaemon_coherent threeDb) (eval_returns h₁)
  exact ⟨s, l, t, hs, eval_returns h₂, addProgById_all_or_nothing hs hc (eval_returns h₂)⟩

/-- The thread of the example program cannot be created: the result is 0, and the list has one
program more, which is freed. -/
theorem addProgById_keeps_freed :
    ∃ l t, Returns (exec cellExec zeroCell) threadStep noteAttempt (addProgById 1 false)
      exampleReady l false t ∧ exampleReady.Lists [] ∧ Coherent exampleReady ∧
      t.globals.prog_list = ⟨some 0, some 0, 1⟩ ∧ (t.cell 0).mem = .freed .appRun ∧
      ¬ AllOrNothing exampleReady [] 1 false t := by
  have hrun : (eval (exec cellExec zeroCell) threadStep noteAttempt (addProgById 1 false)
      exampleReady (List.replicate 22 (.inl true) ++ [.inl false, .inl true])).map
        (fun r => (r.1, r.2.1.globals.prog_list, (r.2.1.cell 0).mem)) =
      some (false, ⟨some 0, some 0, 1⟩, .freed .appRun) := by
    decide +kernel
  obtain ⟨⟨o, t, l⟩, he, hr⟩ := Option.map_eq_some_iff.mp hrun
  simp only [Prod.mk.injEq] at hr
  obtain ⟨rfl, hlist, hmem⟩ := hr
  refine ⟨l, t, eval_returns he, readyDaemon_lists _, readyDaemon_coherent _, hlist, hmem,
    fun hall => ?_⟩
  have hsame := (hall.nothing rfl).1
  rw [hlist] at hsame
  cases hsame

end Regonf
