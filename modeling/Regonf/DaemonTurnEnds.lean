import Regonf.DaemonProgress

/-! Every turn of the main loop comes to its end. The main thread waits for a mutex that a control
thread is about to give back, or in `pthread_join` for a thread that it has asked to end; the thread
acts upon that only where `sleepRest` has time left to sleep. -/
namespace Regonf

open Script Filter

variable {R : Type}

/-- The program that a script is about to touch. -/
def nextAccess : Main R Unit → Option Ptr
  | .act (.cell p _) _ => some p
  | _ => none

/-- The main thread waits for the thread of this program. -/
def helps (c : DaemonConfig R) (e : Ptr × Tick R) : Prop := nextAccess c.code = some e.1

/-- A step within a turn. The run stays clean, and a thread that is waited for, once it has been
asked to end, ends when it comes to its sleep. -/
def within (c : DaemonConfig R) : DaemonLabel R → Prop
  | .turn _ => False
  | .main o => cleanStep c (.main o) = true
  | .env e => helps c e → (c.state.cell e.1).prog.thread = .alive .sleeping true → e.2 = .cancel

/-- How far a thread is from acting upon a cancellation. -/
def Thread.toCancel : Thread → ℕ
  | .alive .ready _ => 6
  | .alive .cancelOff _ => 5
  | .alive .locked _ => 4
  | .alive .controlled _ => 3
  | .alive .unlocked _ => 2
  | .alive .sleeping _ => 1
  | _ => 0

def toCancel (c : DaemonConfig R) : ℕ :=
  match nextAccess c.code with
  | some p => (c.state.cell p).prog.thread.toCancel
  | none => 0

variable [Zero R] [Add R] [Sub R] [LT R] [DecidableLT R] [BEq R]

/-! One thread. -/

/-- A program whose mutex the main thread does not hold. -/
structure Unheld (c : Cell R) : Prop where
  named : NamesEM c.prog.reg
  mutex : c.prog.mutex ≠ some .main
  critical : c.prog.mutex = some .control ↔ c.prog.thread.critical = true

theorem Tracks.unheld {c : Cell R} {m : Marked R} (h : Tracks c m) (hn : m.named)
    (hh : m.block.held = false) : Unheld c where
  named := h.named hn
  mutex := fun hm => by
    rw [h.knows.held.mpr hm] at hh
    cases hh
  critical := h.knows.critical

theorem Unheld.cellStep {c c' : Cell R} {t : Tick R} (hc : Unheld c) (h : cellStep c t = some c') :
    Unheld c' := by
  obtain ⟨reg, th, mu, out, rfl, -, -, hmain, hcontrol, hreg⟩ := cellStep_cases h
  refine ⟨?_, fun hm => hc.mutex (hmain.mp hm), hcontrol hc.critical⟩
  rcases hreg with ⟨rfl, -⟩ | ⟨inp, hs⟩
  · exact hc.named
  · exact step_names hc.named hs

/-- A thread can always go on. -/
theorem Unheld.goes_on {c : Cell R} {ph : Phase} {k : Bool} (hc : Unheld c)
    (ht : c.prog.thread = .alive ph k) :
    ∃ t c' ph', Regonf.cellStep c t = some c' ∧ c'.prog.thread = .alive ph' k := by
  obtain ⟨hnamed, hmutex, hcritical⟩ := hc
  obtain ⟨⟨id, reg, save, thread, mutex, next⟩, sent, mem⟩ := c
  cases ht
  -- each phase has its one way on
  cases ph with
  | ready => exact ⟨.next, _, .cancelOff, rfl, rfl⟩
  | cancelOff =>
    -- nobody holds the mutex
    rcases mutex with _ | _ | _
    · exact ⟨.next, _, .locked, rfl, rfl⟩
    · exact absurd rfl hmutex
    · cases hcritical.mp rfl
  | locked =>
    -- a control step is defined in every state that is reached, whatever the sensor does
    obtain ⟨item, out, hs⟩ := step_isSome hnamed
      (.control ⟨.timeout, .timeout, ⟨0, 0⟩, ⟨0, 0⟩, ⟨0, 0⟩, ⟨0, 0⟩⟩)
    exact ⟨.control _, _, .controlled, congrArg (Option.map _) hs, rfl⟩
  | controlled => exact ⟨.next, _, .unlocked, rfl, rfl⟩
  | unlocked => exact ⟨.next, _, .sleeping, rfl, rfl⟩
  | sleeping => exact ⟨.next, _, .ready, rfl, rfl⟩

/-- The thread of the program holds the mutex, or has been asked to end. -/
def Yielding (c : Cell R) : Prop :=
  ∃ ph k, c.prog.thread = .alive ph k ∧ (c.prog.thread.critical = true ∨ k = true)

/-- Each step that it then takes brings it nearer to its end. -/
theorem Yielding.toCancel_lt {c c' : Cell R} {t : Tick R} (hc : Yielding c)
    (ht : c.prog.thread = .alive .sleeping true → t = .cancel) (h : cellStep c t = some c') :
    c'.prog.thread.toCancel < c.prog.thread.toCancel := by
  obtain ⟨ph, k, hph, hk⟩ := hc
  obtain ⟨⟨id, reg, save, thread, mutex, next⟩, sent, mem⟩ := c
  cases hph
  cases ph with
  | cancelOff =>
    cases t with
    | next =>
      cases mutex with
      | none => cases h; exact Nat.lt_add_one 4
      | some o => cases h
    | _ => cases h
  | locked =>
    cases t with
    | control inp =>
      obtain ⟨r, -, rfl⟩ := Option.map_eq_some_iff.mp h
      exact Nat.lt_add_one 3
    | _ => cases h
  | sleeping =>
    cases k with
    | false => rcases hk with hk | hk <;> cases hk
    | true =>
      -- it acts upon the cancellation
      cases ht rfl
      cases h
      exact Nat.one_pos
  | _ =>
    cases t with
    | next => cases h; exact Nat.lt_add_one _
    | _ => cases h

/-- If it can be waited for, a step of it can be taken. -/
theorem Yielding.moves {c : Cell R} (hc : Yielding c) (hu : Unheld c) :
    ∃ t c', cellStep c t = some c' ∧
      (c.prog.thread = .alive .sleeping true → t = .cancel) := by
  obtain ⟨ph, k, hph, hk⟩ := hc
  -- asleep with a request pending it ends; otherwise it goes on
  by_cases hs : c.prog.thread = .alive .sleeping true
  · obtain ⟨⟨id, reg, save, thread, mutex, next⟩, sent, mem⟩ := c
    cases hs
    exact ⟨.cancel, _, rfl, fun _ => rfl⟩
  · obtain ⟨t, c', ph', h, -⟩ := hu.goes_on hph
    exact ⟨t, c', h, fun ht => absurd ht hs⟩

variable [Sqlite R]

/-! The main thread. -/

omit [Sqlite R] in
/-- An access waits for a mutex, or for a thread that the main thread has asked to end. -/
theorem cellTouch_waits {β : Type} {st : AppState} {a : CellAct R β} {c : Cell R} {b : Block R}
    {m : Marked R} (hk : Knows c b) (hd : Defined a b) (ho : InOrder a m)
    (h : cellTouch st β a c = none) : c.prog.mutex = some .control ∨
      (∃ ph k, c.prog.thread = .alive ph k) ∧ m.cancelled = true ∧ m.block.held = false := by
  obtain ⟨⟨id, reg, save, thread, mutex, next⟩, sent, mem⟩ := c
  -- only `lockMutex` and `pthread_join` wait; the others would be undefined
  cases a with
  | lockMutex =>
    rcases mutex with _ | _ | _
    · cases h
    · cases h
    · exact Or.inl rfl
  | unlockMutex => rcases mutex with _ | _ | _ <;> cases h
  | join =>
    have hstatus : thread.status = .created := hk.thread.trans hd.2
    cases thread with
    | alive ph k => exact Or.inr ⟨⟨ph, k, rfl⟩, ho⟩
    | terminated => cases h
    | _ => cases hstatus
  | create =>
    have hstatus : thread.status = .absent := hk.thread.trans hd.2
    cases thread with
    | absent => cases h
    | _ => cases hstatus
  | cancel =>
    have hstatus : thread.status = .created := hk.thread.trans hd.2
    cases thread with
    | alive ph k => cases h
    | terminated => cases h
    | _ => cases hstatus
  | _ => cases h

theorem ready_cell {β : Type} {p : Ptr} {a : CellAct R β} {k : β → Main R Unit}
    {s : Daemon R (Cell R)} {r : β × Cell R} (hm : (s.cell p).mem = .allocated)
    (h : cellTouch s.globals.app_state β a (s.cell p) = some r) :
    Ready daemonStep within ⟨.act (.cell p a) k, s⟩ := by
  refine ⟨true, ⟨k r.1, { s with cell := Function.update s.cell p r.2 }⟩, rfl, ?_⟩
  have hexec : cellExec s.globals.app_state β a (s.cell p) = some r := by
    rw [cellExec, if_pos hm, h]
  simp [daemonStep, Script.step, exec, hexec]

omit [Zero R] [Add R] [Sub R] [LT R] [DecidableLT R] [BEq R] [Sqlite R] in
theorem cleanStep_env (c : DaemonConfig R) (e : Ptr × Tick R) : cleanStep c (.env e) = true := by
  obtain ⟨code, s⟩ := c
  cases code with
  | pure x => rfl
  | act a k => cases a <;> rfl

/-- A step of a control thread. -/
theorem daemonStep_env {c d : DaemonConfig R} {e : Ptr × Tick R} :
    daemonStep c (.env e) = some d ↔ c.state.globals.exited = false ∧ ∃ c',
      cellStep (c.state.cell e.1) e.2 = some c' ∧
        d = ⟨c.code, { c.state with cell := Function.update c.state.cell e.1 c' }⟩ := by
  rw [daemonStep, step_env, threadStep]
  cases c.state.globals.exited with
  | true => simp
  | false => simp [eq_comm]

section clean
variable {db : Db R} {c : DaemonConfig R}
  (h : Reach daemonStep (fun c l => cleanStep c l = true) (startUp db) c)
include h

/-- In a clean run the main thread waits only for a thread that holds the mutex of its program, or
that it has asked to end. -/
theorem clean_waits (hw : Waits daemonStep within c) : ∃ p, nextAccess c.code = some p ∧
    c.state.globals.exited = false ∧ Unheld (c.state.cell p) ∧ Yielding (c.state.cell p) := by
  obtain ⟨hidle, hblocked⟩ := hw
  obtain ⟨v, hv, hs⟩ := reach_view cleanStep_meets h
  obtain ⟨t, ht, hso⟩ := reach_order h
  obtain ⟨code, s⟩ := c
  cases code with
  | pure x => cases hidle
  | act a k =>
    cases a with
    | attempt w =>
      -- a call can always return, and its success is clean
      refine absurd ⟨true, _, ?_, rfl⟩ hblocked
      exact decide_eq_true ⟨fun _ => rfl, fun _ => Or.inl rfl⟩
    | undefined => exact absurd rfl (clean_no_undefined h)
    | cell p a =>
      have hd : Defined a (v.cell p) := hs.2.1 trivial
      obtain ⟨hrunning, horder⟩ : t.globals.exited = false ∧ InOrder a (t.cell p) := hso.2.1
      have hnone : cellTouch s.globals.app_state _ a (s.cell p) = none := by
        rw [Option.eq_none_iff_forall_ne_some]
        exact fun r hr => hblocked (ready_cell (clean_access h rfl) hr)
      have htracks : Tracks (s.cell p) (t.cell p) := ht.2.2 p
      refine ⟨p, rfl, by rw [ht.1, hrunning], ?_⟩
      -- the mutex is held by the thread, or the thread is joined
      rcases cellTouch_waits (hv.2.2 p) hd horder hnone with hm | ⟨⟨ph, b, hth⟩, hcancel, hheld⟩
      · have hcrit := htracks.knows.critical.mp hm
        have hheld : (t.cell p).block.held = false := by
          rw [← Bool.not_eq_true, htracks.knows.held, hm]
          exact nofun
        refine ⟨htracks.unheld (hso.always p) hheld, ?_⟩
        cases hth : (s.cell p).prog.thread with
        | alive ph b => exact ⟨ph, b, hth, Or.inl hcrit⟩
        | _ => rw [hth] at hcrit; cases hcrit
      · have hk := htracks.cancelled hcancel
        rw [hth] at hk
        exact ⟨htracks.unheld (hso.always p) hheld, ph, b, hth, Or.inr hk⟩
    | _ => exact absurd ⟨true, _, rfl, rfl⟩ hblocked

/-- It does not wait for nothing. -/
theorem clean_helped (hw : Waits daemonStep within c) :
    ∃ e d, helps c e ∧ within c (.env e) ∧ daemonStep c (.env e) = some d := by
  obtain ⟨p, hp, hexited, hu, hb⟩ := clean_waits h hw
  obtain ⟨t, c', hc, ht⟩ := hb.moves hu
  exact ⟨(p, t), _, hp, fun _ => ht, daemonStep_env.mpr ⟨hexited, c', hc, rfl⟩⟩

end clean

/-- What the main thread waits for comes nearer with each step of the thread. -/
theorem ranked_toCancel (db : Db R) : Ranked daemonStep within helps
    (Reach daemonStep (fun c l => cleanStep c l = true) (startUp db)) toCancel where
  inv := by
    intro c l d h hl hs
    have hclean : cleanStep c l = true := by
      cases l with
      | turn x => exact hl.elim
      | main o => exact hl
      | env e => exact cleanStep_env c e
    exact h.tail ⟨l, hclean, hs⟩
  turn := fun _ _ => id
  lower := by
    intro c e d h hw hp hs hh
    obtain ⟨p, hnext, -, -, hb⟩ := clean_waits h hw
    obtain rfl : p = e.1 := Option.some.inj (hnext.symm.trans hh)
    obtain ⟨-, c', hc, rfl⟩ := daemonStep_env.mp hs
    have hlt := hb.toCancel_lt (hp hh) hc
    simpa [toCancel, hnext] using hlt
  keep := by
    intro c e d h hw hp hs hh
    obtain ⟨p, hnext, -, -, -⟩ := clean_waits h hw
    obtain ⟨-, c', -, rfl⟩ := daemonStep_env.mp hs
    -- the thread of another program
    have hne : p ≠ e.1 := fun hpe => hh (hnext.trans (congrArg some hpe))
    simp [toCancel, hnext, hne]

/-- A control thread alone can go on for ever. -/
theorem exists_endless_thread {P : DaemonConfig R → DaemonLabel R → Prop} {c : DaemonConfig R}
    {p : Ptr} {ph : Phase} {k : Bool} (hexited : c.state.globals.exited = false)
    (hu : Unheld (c.state.cell p)) (ht : (c.state.cell p).prog.thread = .alive ph k)
    (hP : ∀ d t ph', d.code = c.code → (d.state.cell p).prog.thread = .alive ph' k →
      P d (.env (p, t))) :
    ∃ r l, Endless daemonStep P c r l ∧ ∀ n, (r n).code = c.code ∧ (∃ t, l n = .env (p, t)) ∧
      ∃ ph', ((r n).state.cell p).prog.thread = .alive ph' k := by
  -- the thread steps alone, and all else stays as it is
  let I (d : DaemonConfig R) : Prop := d.code = c.code ∧ d.state.globals.exited = false ∧
    Unheld (d.state.cell p) ∧ ∃ ph', (d.state.cell p).prog.thread = .alive ph' k
  have hgo (d : DaemonConfig R) (hd : I d) : ∃ l e, (P d l ∧ ∃ t, l = .env (p, t)) ∧
      daemonStep d l = some e ∧ I e := by
    obtain ⟨hcode, hx, hu, ph', ht⟩ := hd
    obtain ⟨t, c', ph₂, hstep, ht₂⟩ := hu.goes_on ht
    refine ⟨.env (p, t), _, ⟨hP d t ph' hcode ht, t, rfl⟩,
      daemonStep_env.mpr ⟨hx, c', hstep, rfl⟩, hcode, hx, ?_, ph₂, ?_⟩
    · simpa using hu.cellStep hstep
    · simpa using ht₂
  obtain ⟨r, l, hrun, hI⟩ := exists_endless (P := fun d l => P d l ∧ ∃ t, l = .env (p, t)) hgo
    (c := c) ⟨rfl, hexited, hu, ph, ht⟩
  exact ⟨r, l, ⟨hrun.start, fun n => (hrun.meets n).1, hrun.next⟩,
    fun n => ⟨(hI n).1, (hrun.meets n).2, (hI n).2.2.2⟩⟩

/-- Between two turns the main thread holds no mutex. -/
theorem idle_unheld {P : DaemonConfig R → DaemonLabel R → Prop} {db : Db R} {c : DaemonConfig R}
    (h : Reach daemonStep P (startUp db) c) (hi : c.idle = true) (p : Ptr) :
    Unheld (c.state.cell p) := by
  obtain ⟨t, ht, hs⟩ := reach_order h
  rw [Config.idle_iff.mp hi] at hs
  exact (ht.2.2 p).unheld (hs.always p) (hs.2.held p)

/-- Labels that are within a turn; a thread that has been asked to end does so at its sleep. -/
def goesOn (c : DaemonConfig R) : DaemonLabel R → Bool
  | .turn _ => false
  | .main o => cleanStep c (.main o)
  | .env (_, .cancel) => true
  | .env e => (c.state.cell e.1).prog.thread ≠ .alive .sleeping true

omit [Zero R] [Add R] [Sub R] [LT R] [DecidableLT R] [BEq R] [Sqlite R] in
theorem goesOn_within (c : DaemonConfig R) (l : DaemonLabel R) (h : goesOn c l = true) :
    within c l := by
  cases l with
  | turn x => cases h
  | main o => exact h
  | env e =>
    obtain ⟨p, t⟩ := e
    cases t with
    | cancel => exact fun _ _ => rfl
    | _ => exact fun _ ht => absurd ht (of_decide_eq_true h)

/-- A turn that is brought to its end, and behind which a thread goes on, is a fair run. -/
theorem exists_fair_run {P : DaemonConfig R → DaemonLabel R → Prop} {db : Db R}
    {c d : DaemonConfig R} {ls : List (DaemonLabel R)} (h : Reach daemonStep P (startUp db) c)
    (hd : run daemonStep goesOn c ls = some d) (hidle : d.idle = true)
    (hexited : d.state.globals.exited = false) {p : Ptr} {ph : Phase}
    (ht : (d.state.cell p).prog.thread = .alive ph false) :
    ∃ r l, Endless daemonStep within c r l ∧ Fair daemonStep within helps r l := by
  have hreach : Reach daemonStep (fun _ _ => True) (startUp db) d :=
    (Reach.mono (fun _ _ _ => trivial) h).trans (Reach.mono (fun _ _ _ => trivial) (run_reach hd))
  -- once the script has ended the thread may go on alone
  have hcode := Config.idle_iff.mp hidle
  obtain ⟨r, l, hr, hstays⟩ := exists_endless_thread hexited (idle_unheld hreach hidle p) ht
    (P := within) fun e t ph' he _ hh => by
      rw [helps, he, hcode] at hh
      cases hh
  obtain ⟨r', l', hr', htail⟩ := hr.append goesOn_within hd
  refine ⟨r', l', hr', fair_of_idle (eventually_atTop.mpr ⟨ls.length, fun n hn => ?_⟩)⟩
  obtain ⟨m, rfl⟩ := Nat.exists_eq_add_of_le' hn
  rw [htail, Config.idle_iff, (hstays m).1, hcode]

/-- Every turn ends. In a clean run, whatever the main thread is about to do, either it can be done
or the thread that it waits for can take a step; and whatever the order in which the threads then
step, in which calls fail, and which other programs are controlled meanwhile, the main thread comes
back to its loop: if the scheduler is fair, and a thread that is waited for and has been asked to
end has time left to sleep. -/
theorem turn_ends {db : Db R} {c : DaemonConfig R}
    (h : Reach daemonStep (fun c l => cleanStep c l = true) (startUp db) c) :
    (c.idle = true ∨ Ready daemonStep within c ∨
      ∃ e d, helps c e ∧ within c (.env e) ∧ daemonStep c (.env e) = some d) ∧
    ∀ r l, Endless daemonStep within c r l → Fair daemonStep within helps r l →
      ∃ n, (r n).idle = true := by
  refine ⟨?_, fun r l hrun hfair => hrun.idle hfair (ranked_toCancel db) h⟩
  -- either it is idle, or ready, or it waits for a thread
  rcases hidle : c.idle with _ | _
  · by_cases hready : Ready daemonStep within c
    · exact Or.inr (Or.inl hready)
    · exact Or.inr (Or.inr (clean_helped h ⟨hidle, hready⟩))
  · exact Or.inl rfl

/-- Programs 1 and 2 are started. -/
def exampleStarted : List (DaemonLabel ℤ) := exampleInit ++ exampleTurn (.progStart [1, 2]) 53

/-- The main thread is to set the power of the heater while the program is being controlled. -/
def exampleWait : List (DaemonLabel ℤ) :=
  exampleStarted ++ [.env (0, .next), .env (0, .next)] ++
    exampleTurn (.setHeaterPower [(1, 500)]) 4

/-- The mutex is given back. -/
def exampleGoOn : List (DaemonLabel ℤ) :=
  [.env (0, .control (exampleReading 0 (some 240))), .env (0, .next)] ++
    List.replicate 3 (.main true)

/-- The main thread has asked the thread of program 1 to end, and joins it. -/
def exampleJoin : List (DaemonLabel ℤ) := exampleStarted ++ exampleTurn (.progStop [1]) 14

/-- The thread comes to its sleep and ends. -/
def exampleJoined : List (DaemonLabel ℤ) :=
  [.next, .next, .control (exampleReading 0 (some 240)), .next, .next, .cancel].map
    (fun t => .env (0, t)) ++ List.replicate 6 (.main true)

/-- The last theorem for a wait for the mutex, and for one in `pthread_join`. The thread of program
2 goes on behind the turn. -/
theorem turn_ends_example :
    ∃ c c' : DaemonConfig ℤ, (c.state.cell 0).prog.mutex = some .control ∧
      (c'.state.cell 0).prog.thread = .alive .ready true ∧
      ∀ x ∈ [c, c'], Reach daemonStep (fun c l => cleanStep c l = true) (startUp threeDb) x ∧
        x.idle = false ∧ nextAccess x.code = some 0 ∧ (daemonStep x (.main true)).isSome = false ∧
        (Ready daemonStep within x ∨
          ∃ e d, helps x e ∧ within x (.env e) ∧ daemonStep x (.env e) = some d) ∧
        ∃ r l, Endless daemonStep within x r l ∧ Fair daemonStep within helps r l ∧
          ∃ n, (r n).idle = true := by
  have hwait : ((run daemonStep cleanStep (startUp threeDb) exampleWait).bind fun c =>
      (run daemonStep goesOn c exampleGoOn).map fun d => ((c.idle, nextAccess c.code,
        (daemonStep c (.main true)).isSome, (c.state.cell 0).prog.mutex),
        d.idle, d.state.globals.exited, (d.state.cell 1).prog.thread)) =
      some ((false, some 0, false, some .control), true, false, .alive .ready false) := by
    decide +kernel
  have hjoin : ((run daemonStep cleanStep (startUp threeDb) exampleJoin).bind fun c =>
      (run daemonStep goesOn c exampleJoined).map fun d => ((c.idle, nextAccess c.code,
        (daemonStep c (.main true)).isSome, (c.state.cell 0).prog.thread),
        d.idle, d.state.globals.exited, (d.state.cell 1).prog.thread)) =
      some ((false, some 0, false, .alive .ready true), true, false, .alive .ready false) := by
    decide +kernel
  obtain ⟨c, hc, hwait⟩ := Option.bind_eq_some_iff.mp hwait
  obtain ⟨d, hd, he⟩ := Option.map_eq_some_iff.mp hwait
  obtain ⟨c', hc', hjoin⟩ := Option.bind_eq_some_iff.mp hjoin
  obtain ⟨d', hd', he'⟩ := Option.map_eq_some_iff.mp hjoin
  simp only [Prod.mk.injEq] at he he'
  obtain ⟨⟨hbusy, hnext, hblocked, hmutex⟩, hidle, hexited, hthread⟩ := he
  obtain ⟨⟨hbusy', hnext', hblocked', hasked⟩, hidle', hexited', hthread'⟩ := he'
  obtain ⟨r, l, hr, hfair⟩ := exists_fair_run (run_reach hc) hd hidle hexited hthread
  obtain ⟨r', l', hr', hfair'⟩ := exists_fair_run (run_reach hc') hd' hidle' hexited' hthread'
  have hends := turn_ends (run_reach hc)
  have hends' := turn_ends (run_reach hc')
  refine ⟨c, c', hmutex, hasked, List.forall_mem_cons.mpr ⟨?_, List.forall_mem_singleton.mpr ?_⟩⟩
  · exact ⟨run_reach hc, hbusy, hnext, hblocked,
      hends.1.resolve_left (ne_true_of_eq_false hbusy), r, l, hr, hfair, hends.2 r l hr hfair⟩
  · exact ⟨run_reach hc', hbusy', hnext', hblocked',
      hends'.1.resolve_left (ne_true_of_eq_false hbusy'), r', l', hr', hfair',
      hends'.2 r' l' hr' hfair'⟩

omit [Zero R] [Add R] [Sub R] [LT R] [DecidableLT R] [BEq R] [Sqlite R] in
theorem busy_of_nextAccess {c : DaemonConfig R} {p : Ptr} (h : nextAccess c.code = some p) :
    c.idle = false := by
  obtain ⟨code, s⟩ := c
  cases code with
  | pure x => cases h
  | act a k => rfl

theorem join_blocked {s : Daemon R (Cell R)} {p : Ptr} {k : Unit → Main R Unit} {ph : Phase}
    {b : Bool} (ht : (s.cell p).prog.thread = .alive ph b) (o : Bool) :
    daemonStep ⟨.act (.cell p .join) k, s⟩ (.main o) = none := by
  have hnone : cellExec s.globals.app_state Unit .join (s.cell p) = none := by
    rw [cellExec, cellTouch, ht]
    split_ifs <;> rfl
  simp [daemonStep, Script.step, exec, hnone]

/-- The time to sleep is needed. A thread whose control steps leave it none is never cancelled, and
the main thread waits for it in `pthread_join` for ever, although the run is fair. -/
theorem join_may_hang {db : Db R} {c : DaemonConfig R}
    (h : Reach daemonStep (fun c l => cleanStep c l = true) (startUp db) c) {p : Ptr}
    {k : Unit → Main R Unit} (hc : c.code = .act (.cell p .join) k) {ph : Phase} {b : Bool}
    (ht : (c.state.cell p).prog.thread = .alive ph b) :
    ∃ r l, Endless daemonStep (fun c l => cleanStep c l = true) c r l ∧
      Fair daemonStep (fun c l => cleanStep c l = true) helps r l ∧ ∀ n, (r n).idle = false := by
  obtain ⟨t, hmarks, hs⟩ := reach_order h
  rw [hc] at hs
  obtain ⟨hrunning, horder⟩ : t.globals.exited = false ∧ InOrder .join (t.cell p) := hs.2.1
  have hexited : c.state.globals.exited = false := by rw [hmarks.1, hrunning]
  have hu : Unheld (c.state.cell p) := (hmarks.2.2 p).unheld (hs.always p) horder.2
  obtain ⟨r, l, hrun, hr⟩ := exists_endless_thread
    (P := fun c l => cleanStep c l = true) hexited hu ht fun d t _ _ _ => cleanStep_env d (p, t)
  have hnext (n : ℕ) : nextAccess (r n).code = some p := by
    rw [(hr n).1, hc]
    rfl
  refine ⟨r, l, hrun, ⟨fun hready => ?_, fun _ => frequently_atTop.mpr fun n => ?_⟩, fun n => ?_⟩
  · -- the thread is there, so the main thread is never ready
    obtain ⟨n, o, d, -, hd⟩ := hready.exists
    obtain ⟨hcode, -, ph', hth⟩ := hr n
    rw [hc] at hcode
    generalize r n = e at hd hcode hth
    obtain ⟨code, s⟩ := e
    cases hcode
    rw [join_blocked hth] at hd
    cases hd
  · obtain ⟨t, hl⟩ := (hr n).2.1
    exact ⟨n, le_rfl, (p, t), hl, hnext n⟩
  · exact busy_of_nextAccess (hnext n)

end Regonf
