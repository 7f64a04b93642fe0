import Regonf.DaemonMain
import Regonf.RegonfhcOutputs

/-! The daemon as its main thread knows it: what it has read and written itself, and what it
may conclude about a control thread. The control threads leave this view alone, so the main
thread can be reasoned about as a sequential program. -/
namespace Regonf

/-- What the main thread knows of a control thread. -/
inductive ThreadStatus where
  | absent | created | joined
deriving DecidableEq, Repr

def Thread.status : Thread → ThreadStatus
  | .absent => .absent
  | .alive _ _ => .created
  | .terminated => .created
  | .joined => .joined

/-- The phases in which a control thread holds the mutex. -/
def Thread.critical : Thread → Bool
  | .alive .locked _ => true
  | .alive .controlled _ => true
  | _ => false

/-- What the main thread knows of a program. `held` tells whether it holds the mutex itself,
`loaded` is the regulator that the program was filled with and `ops` are the operations on it
since, `unused` says that the program has not done anything, `quiet` that its mechanisms are off
and stay so. -/
structure Block (R : Type) where
  id : ℤ
  save : ℤ
  next : Option Ptr
  mem : Memory
  held : Bool
  thread : ThreadStatus
  loaded : Option (RegOnfHC R)
  ops : List (Op R)
  unused : Bool
  quiet : Prop

variable {R : Type}

def zeroBlock [Zero R] : Block R :=
  ⟨0, 0, none, .allocated, false, .absent, some zeroReg, [], true, True⟩

/-- The access to a program as the main thread sees it. -/
def blockTouch [Zero R] : CellExec R (Block R)
  | _, _, .id, b => some (b.id, b)
  | _, _, .next, b => some (b.next, b)
  | _, _, .save, b => some (b.save, b)
  | _, _, .setId v, b => some ((), { b with id := v })
  | _, _, .setNext v, b => some ((), { b with next := v })
  | _, _, .setSave v, b => some ((), { b with save := v })
  -- only before the program has done anything is it known what it was filled with
  | _, _, .setReg v, b => some ((), { b with
      loaded := if b.unused then some v else none
      ops := []
      quiet := b.unused = true })
  | _, _, .op o, b => some ((), { b with
      ops := b.ops ++ [o]
      unused := false
      quiet := o = .turnOff ∧ ∃ reg ∈ b.loaded, EMTracked reg [] })
  | _, _, .lockMutex, b => some (!b.held, { b with held := true })
  | _, _, .unlockMutex, b => some (b.held, { b with held := false })
  | _, _, .create, b =>
    if b.thread = .absent then
      some ((), { b with thread := .created, unused := false, quiet := False })
    else none
  | _, _, .cancel, b => if b.thread = .created then some ((), b) else none
  | _, _, .join, b =>
    if b.thread = .created then some ((), { b with thread := .joined }) else none
  -- a freed program keeps what is known of it
  | st, _, .free, b => some ((), { b with mem := .freed st })

def blockExec [Zero R] : CellExec R (Block R) := fun st β a b =>
  if b.mem = .allocated then blockTouch st β a b else none

/-- A program that was turned off has last commanded 0 to both mechanisms. -/
theorem turnOff_commanded [Zero R] {item : RegOnfHC R} {h : List (Request R)}
    (ht : EMTracked item h) :
    (regonfhcTurnOff ⟨item, []⟩).item.state = .regOff ∧
      ∀ n, commanded n (h ++ (regonfhcTurnOff ⟨item, []⟩).sent) = 0 := by
  have h₀ : EMTracked (⟨item, []⟩ : Wire R).item (h ++ (⟨item, []⟩ : Wire R).sent) := by
    simpa using ht
  have h₁ := h₀.upd (f := fun i => { i with state := .regOff }) ⟨rfl, rfl⟩ ⟨rfl, rfl⟩
  have h₂ := h₁.controlEM .cooler 0
  have h₃ := h₂.controlEM .heater 0
  refine ⟨by simp [regonfhcTurnOff], fun n => ?_⟩
  -- the record shows what was commanded last, so the outputs decide
  have hn := (h₃ n).1
  change _ = commanded n (h ++ (regonfhcTurnOff ⟨item, []⟩).sent) at hn
  rw [← hn]
  cases n with
  | heater => exact h₂.output_controlEM_zero .heater
  | cooler =>
    rw [controlEM_em_output, if_neg (by simp)]
    exact h₁.output_controlEM_zero .cooler

variable [Zero R] [Add R] [Sub R] [LT R] [DecidableLT R] [BEq R]

/-- The program has reached its regulator and sent its requests from `reg`. -/
def Reached (reg : RegOnfHC R) (c : Cell R) : Prop :=
  ∃ is, Controller.run step reg is = some (c.prog.reg, c.sent)

theorem Reached.tracked {reg : RegOnfHC R} {c : Cell R} (h : Reached reg c)
    (ht : EMTracked reg []) : EMTracked c.prog.reg c.sent := by
  obtain ⟨is, hr⟩ := h
  exact Controller.run_invariant (P := fun _ => True) (I := EMTracked)
    (fun _ _ _ _ _ ht _ hs => step_tracked ht hs) ht (fun _ _ => trivial) hr

/-- The operation that an input is. -/
def Input.op? : Input R → Option (Op R)
  | .control _ => none
  | .op o => some o

/-- The program has reached its regulator and sent its requests from `reg`, by the operations
`ops` and any control steps. -/
def ReachedBy (ops : List (Op R)) (reg : RegOnfHC R) (c : Cell R) : Prop :=
  ∃ is, is.filterMap Input.op? = ops ∧ Controller.run step reg is = some (c.prog.reg, c.sent)

theorem ReachedBy.reached {ops : List (Op R)} {reg : RegOnfHC R} {c : Cell R}
    (h : ReachedBy ops reg c) : Reached reg c := by
  obtain ⟨is, -, hr⟩ := h
  exact ⟨is, hr⟩

theorem ReachedBy.step {ops : List (Op R)} {reg : RegOnfHC R} {c c' : Cell R}
    (h : ReachedBy ops reg c) {i : Input R} {out : List (Request R)}
    (hs : step c.prog.reg i = some (c'.prog.reg, out)) (hc : c'.sent = c.sent ++ out) :
    ReachedBy (ops ++ i.op?.toList) reg c' := by
  obtain ⟨is, hops, hr⟩ := h
  refine ⟨is ++ [i], ?_, ?_⟩
  · rw [List.filterMap_append, hops, List.filterMap_cons]
    cases i.op? <;> rfl
  · rw [hc]
    refine Controller.run_append_some.mpr ⟨_, _, _, hr, ?_, rfl⟩
    exact Controller.run_cons_some.mpr ⟨_, out, [], hs, rfl, (List.append_nil out).symm⟩

/-- What the main thread knows is true of the program. -/
structure Knows (c : Cell R) (b : Block R) : Prop where
  id : c.prog.id = b.id
  save : c.prog.save = b.save
  next : c.prog.next = b.next
  mem : c.mem = b.mem
  held : b.held = true ↔ c.prog.mutex = some .main
  critical : c.prog.mutex = some .control ↔ c.prog.thread.critical = true
  thread : c.prog.thread.status = b.thread
  loaded : ∀ reg ∈ b.loaded, ReachedBy b.ops reg c
  unused : b.unused = true → c.sent = [] ∧ b.thread = .absent
  quiet : b.quiet → (∀ n, commanded n c.sent = 0) ∧
    (b.thread = .created → c.prog.reg.state = .regOff)

/-- A control thread takes a step in its loop, and passes through the mutex; it sends what a
control step of its regulator sends. -/
theorem cellStep_cases {c c' : Cell R} {t : Tick R} (h : cellStep c t = some c') :
    ∃ reg th mu out, c' = ⟨{ c.prog with reg := reg, thread := th, mutex := mu },
        c.sent ++ out, c.mem⟩ ∧
      c.prog.thread.status = .created ∧ th.status = .created ∧
      (mu = some .main ↔ c.prog.mutex = some .main) ∧
      ((c.prog.mutex = some .control ↔ c.prog.thread.critical = true) →
        (mu = some .control ↔ th.critical = true)) ∧
      ((reg = c.prog.reg ∧ out = []) ∨
        ∃ inp, step c.prog.reg (.control inp) = some (reg, out)) := by
  obtain ⟨⟨id, reg, save, thread, mutex, next⟩, sent, mem⟩ := c
  cases thread with
  | absent => cases h
  | terminated => cases h
  | joined => cases h
  | alive ph k =>
    cases ph with
    | ready =>
      cases t with
      | next =>
        cases h
        exact ⟨reg, .alive .cancelOff k, mutex, [], by simp [Cell.set], rfl, rfl, Iff.rfl,
          by simp [Thread.critical], Or.inl ⟨rfl, rfl⟩⟩
      | _ => cases h
    | cancelOff =>
      cases t with
      | next =>
        -- the only place where the thread waits
        cases mutex with
        | none =>
          cases h
          exact ⟨reg, .alive .locked k, some .control, [], by simp [Cell.set], rfl, rfl,
            by simp,
            by simp [Thread.critical], Or.inl ⟨rfl, rfl⟩⟩
        | some o => cases h
      | _ => cases h
    | locked =>
      cases t with
      | control inp =>
        obtain ⟨r, hr, rfl⟩ := Option.map_eq_some_iff.mp h
        exact ⟨r.1, _, mutex, r.2, rfl, rfl, rfl, Iff.rfl, by simp [Thread.critical],
          Or.inr ⟨inp, hr⟩⟩
      | _ => cases h
    | controlled =>
      cases t with
      | next =>
        cases h
        refine ⟨reg, .alive .unlocked k, if mutex = some .control then none else mutex, [],
          by simp [Cell.set], rfl, rfl, ?_, ?_, Or.inl ⟨rfl, rfl⟩⟩
        · rcases mutex with _ | _ | _ <;> simp
        · rcases mutex with _ | _ | _ <;> simp [Thread.critical]
      | _ => cases h
    | unlocked =>
      cases t with
      | next =>
        cases h
        exact ⟨reg, .alive .sleeping k, mutex, [], by simp [Cell.set], rfl, rfl, Iff.rfl,
          by simp [Thread.critical], Or.inl ⟨rfl, rfl⟩⟩
      | _ => cases h
    | sleeping =>
      cases t with
      | next =>
        cases h
        exact ⟨reg, .alive .ready k, mutex, [], by simp [Cell.set], rfl, rfl, Iff.rfl,
          by simp [Thread.critical], Or.inl ⟨rfl, rfl⟩⟩
      | control inp => cases h
      | cancel =>
        cases k with
        | false => cases h
        | true =>
          cases h
          exact ⟨reg, .terminated, mutex, [], by simp [Cell.set], rfl, rfl, Iff.rfl,
            by simp [Thread.critical], Or.inl ⟨rfl, rfl⟩⟩

/-- A control step of a program that is off sends nothing and changes nothing. -/
theorem step_off {item : RegOnfHC R} (h : item.state = .regOff) (inp : ControlInput R) :
    step item (.control inp) = some (item, []) := by
  simp only [step, regonfhcControl, h, Option.map_some]

/-- The control threads leave the view of the main thread alone. -/
theorem Knows.cellStep {c c' : Cell R} {b : Block R} {t : Tick R} (hk : Knows c b)
    (h : cellStep c t = some c') : Knows c' b := by
  obtain ⟨reg, th, mu, out, rfl, hst, hst', hmain, hcrit, hreg⟩ := cellStep_cases h
  have hcreated : b.thread = .created := hk.thread.symm.trans hst
  have hloaded : ∀ reg₀ ∈ b.loaded, ReachedBy b.ops reg₀
      ⟨{ c.prog with reg := reg, thread := th, mutex := mu }, c.sent ++ out, c.mem⟩ := by
    intro reg₀ h₀
    rcases hreg with ⟨rfl, rfl⟩ | ⟨inp, hs⟩
    · obtain ⟨is, hops, hr⟩ := hk.loaded reg₀ h₀
      exact ⟨is, hops, by simpa using hr⟩
    · have hby : ReachedBy (b.ops ++ (Input.control inp).op?.toList) reg₀
          ⟨{ c.prog with reg := reg, thread := th, mutex := mu }, c.sent ++ out, c.mem⟩ :=
        (hk.loaded reg₀ h₀).step hs rfl
      rwa [Input.op?, Option.toList_none, List.append_nil] at hby
  have hquiet : b.quiet → (∀ n, commanded n (c.sent ++ out) = 0) ∧
      (b.thread = .created → reg.state = .regOff) := by
    intro hq
    obtain ⟨hcom, hoff⟩ := hk.quiet hq
    -- a program that is off takes a control step without effect
    have hsame : reg = c.prog.reg ∧ out = [] := by
      rcases hreg with he | ⟨inp, hs⟩
      · exact he
      · rw [step_off (hoff hcreated)] at hs
        cases hs
        exact ⟨rfl, rfl⟩
    obtain ⟨rfl, rfl⟩ := hsame
    exact ⟨by simpa using hcom, hoff⟩
  refine ⟨hk.id, hk.save, hk.next, hk.mem, hk.held.trans hmain.symm, hcrit hk.critical,
    hst'.trans hcreated.symm, hloaded, fun hu => ?_, hquiet⟩
  have habs := (hk.unused hu).2
  rw [hcreated] at habs
  cases habs

/-- Each access of the main thread to a program, when it can be made, has the same result on
the view. -/
theorem Knows.cellTouch {β : Type} {st : AppState} {a : CellAct R β} {x : β} {c c' : Cell R}
    {b : Block R} (hk : Knows c b) (h : cellTouch st β a c = some (x, c')) :
    ∃ b', blockTouch st β a b = some (x, b') ∧ Knows c' b' := by
  cases a with
  | id => cases h; exact ⟨b, by rw [hk.id]; rfl, hk⟩
  | next => cases h; exact ⟨b, by rw [hk.next]; rfl, hk⟩
  | save => cases h; exact ⟨b, by rw [hk.save]; rfl, hk⟩
  | setId v => cases h; exact ⟨_, rfl, { hk with id := rfl }⟩
  | setNext v => cases h; exact ⟨_, rfl, { hk with next := rfl }⟩
  | setSave v => cases h; exact ⟨_, rfl, { hk with save := rfl }⟩
  | setReg v =>
    cases h
    refine ⟨_, rfl, { hk with loaded := ?_, quiet := ?_ }⟩
    · intro reg hreg
      dsimp only at hreg
      split_ifs at hreg with hu
      · cases hreg
        exact ⟨[], rfl, by rw [Cell.set, (hk.unused hu).1]; rfl⟩
      · cases hreg
    · intro hu
      obtain ⟨hsent, habs⟩ := hk.unused hu
      refine ⟨fun n => by rw [Cell.set, hsent]; rfl, fun hc => ?_⟩
      exact absurd (habs.symm.trans hc) (by decide)
  | op o =>
    cases h
    refine ⟨_, rfl, { hk with loaded := ?_, unused := ?_, quiet := ?_ }⟩
    · intro reg hreg
      -- the operation is one more input of the run
      exact (hk.loaded reg hreg).step (i := .op o) rfl rfl
    · intro hu
      cases hu
    -- the main thread knows a run from outputs at 0 up to here
    · rintro ⟨rfl, reg, hreg, ht⟩
      obtain ⟨hoff, hcom⟩ := turnOff_commanded ((hk.loaded reg hreg).reached.tracked ht)
      exact ⟨hcom, fun _ => hoff⟩
  | lockMutex =>
    obtain ⟨⟨id, reg, save, thread, mutex, next⟩, sent, mem⟩ := c
    refine ⟨{ b with held := true }, ?_⟩
    rcases mutex with _ | _ | _
    · cases h
      have hh : b.held = false := by
        rw [← Bool.not_eq_true, hk.held]
        simp
      exact ⟨by rw [blockTouch, hh, Bool.not_false], { hk with
        held := by simp [Cell.set]
        critical := by simpa [Cell.set] using hk.critical }⟩
    · cases h
      have hh : b.held = true := hk.held.mpr rfl
      exact ⟨by rw [blockTouch, hh, Bool.not_true], { hk with held := by simp }⟩
    · cases h
  | unlockMutex =>
    obtain ⟨⟨id, reg, save, thread, mutex, next⟩, sent, mem⟩ := c
    refine ⟨{ b with held := false }, ?_⟩
    have other (hm : mutex ≠ some .main) : b.held = false := by
      rw [← Bool.not_eq_true, hk.held]
      exact hm
    rcases mutex with _ | _ | _
    · cases h
      exact ⟨by rw [blockTouch, other (by simp)], { hk with held := by simp }⟩
    · cases h
      have hh : b.held = true := hk.held.mpr rfl
      exact ⟨by rw [blockTouch, hh], { hk with
        held := by simp [Cell.set]
        critical := by simpa [Cell.set] using hk.critical }⟩
    · cases h
      exact ⟨by rw [blockTouch, other (by simp)], { hk with held := by simp }⟩
  | create =>
    obtain ⟨⟨id, reg, save, thread, mutex, next⟩, sent, mem⟩ := c
    cases thread with
    | absent =>
      cases h
      have hb : b.thread = .absent := hk.thread.symm
      exact ⟨{ b with thread := .created, unused := false, quiet := False },
        by rw [blockTouch, if_pos hb], { hk with
          critical := hk.critical
          thread := rfl
          unused := fun hu => absurd hu Bool.false_ne_true
          quiet := fun hq => hq.elim }⟩
    | _ => cases h
  | cancel =>
    obtain ⟨⟨id, reg, save, thread, mutex, next⟩, sent, mem⟩ := c
    have hb (hs : thread.status = .created) : b.thread = .created := hk.thread.symm.trans hs
    cases thread with
    | alive ph k =>
      cases h
      refine ⟨b, by rw [blockTouch, if_pos (hb rfl)], { hk with
        critical := ?_, thread := hk.thread }⟩
      apply hk.critical.trans
      cases ph <;> rfl
    | terminated =>
      cases h
      exact ⟨b, by rw [blockTouch, if_pos (hb rfl)], hk⟩
    | _ => cases h
  | join =>
    obtain ⟨⟨id, reg, save, thread, mutex, next⟩, sent, mem⟩ := c
    cases thread with
    | terminated =>
      cases h
      have hb : b.thread = .created := hk.thread.symm
      refine ⟨{ b with thread := .joined }, by rw [blockTouch, if_pos hb], { hk with
        critical := hk.critical
        thread := rfl
        unused := fun hu => ?_
        quiet := fun hq => ⟨(hk.quiet hq).1, nofun⟩ }⟩
      have habs := (hk.unused hu).2
      rw [hb] at habs
      cases habs
    | _ => cases h
  | free => cases h; exact ⟨_, rfl, { hk with mem := rfl }⟩

theorem Knows.cellExec {β : Type} {st : AppState} {a : CellAct R β} {x : β} {c c' : Cell R}
    {b : Block R} (hk : Knows c b) (h : cellExec st β a c = some (x, c')) :
    ∃ b', blockExec st β a b = some (x, b') ∧ Knows c' b' := by
  have hmem : c.mem = .allocated := by
    by_contra hne
    rw [Regonf.cellExec, if_neg hne] at h
    cases h
  rw [Regonf.cellExec, if_pos hmem] at h
  obtain ⟨b', hb, hk'⟩ := hk.cellTouch h
  exact ⟨b', by rw [blockExec, if_pos (hk.mem.symm.trans hmem), hb], hk'⟩

theorem knows_zero : Knows (zeroCell : Cell R) zeroBlock where
  id := rfl
  save := rfl
  next := rfl
  mem := rfl
  held := by simp [zeroBlock, zeroCell]
  critical := by simp [zeroCell, Thread.critical]
  thread := rfl
  loaded := by
    intro reg hreg
    cases hreg
    exact ⟨[], rfl, rfl⟩
  unused := fun _ => ⟨rfl, rfl⟩
  quiet := fun _ => ⟨fun _ => rfl, nofun⟩

/-- The view of the main thread on the whole daemon. -/
abbrev View (R : Type) := Daemon R (Block R)

def Sees (s : Daemon R (Cell R)) (v : View R) : Prop :=
  s.globals = v.globals ∧ s.brk = v.brk ∧ ∀ p, Knows (s.cell p) (v.cell p)

theorem sees_update {s : Daemon R (Cell R)} {v : View R} (h : Sees s v) {p : Ptr} {c : Cell R}
    {b : Block R} (hk : Knows c b) (q : Ptr) :
    Knows (Function.update s.cell p c q) (Function.update v.cell p b q) := by
  rcases eq_or_ne q p with rfl | hq
  · rw [Function.update_self, Function.update_self]
    exact hk
  · rw [Function.update_of_ne hq, Function.update_of_ne hq]
    exact h.2.2 q

/-- The daemon with its control threads is simulated by what the main thread sees of it. -/
theorem sees_simulates :
    Script.Simulates (exec cellExec (zeroCell : Cell R)) threadStep
      (exec blockExec (zeroBlock : Block R)) Sees where
  act := by
    intro β a o s s' x v hs he
    cases a with
    | globals => cases he; exact ⟨v, by rw [exec, hs.1], hs⟩
    | setGlobals f => cases he; exact ⟨_, rfl, by rw [hs.1], hs.2⟩
    | attempt w => cases he; exact ⟨v, rfl, hs⟩
    | selectProg id => cases he; exact ⟨v, by rw [exec, hs.1], hs⟩
    | malloc =>
      cases he
      refine ⟨{ v with brk := v.brk + 1, cell := Function.update v.cell v.brk zeroBlock },
        by rw [exec, hs.2.1], hs.1, congrArg (· + 1) hs.2.1, ?_⟩
      rw [hs.2.1]
      exact sees_update hs knows_zero
    | blocks => cases he; exact ⟨v, by rw [exec, hs.2.1], hs⟩
    | cell p a =>
      obtain ⟨⟨y, c⟩, hc, he⟩ := Option.map_eq_some_iff.mp he
      cases he
      obtain ⟨b, hb, hk⟩ := (hs.2.2 p).cellExec hc
      rw [hs.1] at hb
      refine ⟨{ v with cell := Function.update v.cell p b }, ?_, hs.1, hs.2.1,
        sees_update hs hk⟩
      rw [exec, hb]
      rfl
    | undefined => cases he
  env := by
    -- a control thread steps: the view stays as it is
    intro s s' e v hs he
    unfold threadStep at he
    split_ifs at he
    obtain ⟨c, hc, rfl⟩ := Option.map_eq_some_iff.mp he
    refine ⟨hs.1, hs.2.1, fun q => ?_⟩
    have hq := sees_update hs (p := e.1) ((hs.2.2 e.1).cellStep hc) q
    rwa [Function.update_eq_self] at hq

end Regonf
