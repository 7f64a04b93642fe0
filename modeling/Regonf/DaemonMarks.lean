import Regonf.DaemonRuns
import Regonf.RegonfhcBusy

/-! What the main thread knows of a program besides its view: whether it has asked the thread to
end, and that a control step of the regulator is defined. -/
namespace Regonf

/-- The thread does not run, or has been asked to end. -/
def Thread.cancelled : Thread → Bool
  | .alive _ cancel => cancel
  | _ => true

/-- A block with two marks: the thread has been asked to end, and the regulator names the mechanism
that it drives. -/
structure Marked (R : Type) where
  block : Block R
  cancelled : Bool
  named : Prop

variable {R : Type}

/-- The marks when an access has left the block as `b`. -/
def Marked.after {β : Type} (m : Marked R) : CellAct R β → Block R → Marked R
  | .create, b => ⟨b, false, m.named⟩
  | .cancel, b => ⟨b, true, m.named⟩
  | .setReg v, b => ⟨b, m.cancelled, NamesEM v⟩
  | _, b => ⟨b, m.cancelled, m.named⟩

@[simp] theorem Marked.after_block {β : Type} (m : Marked R) (a : CellAct R β) (b : Block R) :
    (m.after a b).block = b := by
  cases a <;> rfl

variable [Zero R]

def markedExec : CellExec R (Marked R) := fun st β a m =>
  (blockExec st β a m.block).map fun r => (r.1, m.after a r.2)

def zeroMarked : Marked R := ⟨zeroBlock, false, True⟩

variable [Add R] [Sub R] [LT R] [DecidableLT R] [BEq R]

/-- The block and its marks are true of the program. -/
structure Tracks (c : Cell R) (m : Marked R) : Prop where
  knows : Knows c m.block
  cancelled : m.cancelled = true → c.prog.thread.cancelled = true
  named : m.named → NamesEM c.prog.reg

omit [Add R] [Sub R] [LT R] [DecidableLT R] [BEq R] in
theorem names_zeroReg : NamesEM (zeroReg : RegOnfHC R) :=
  NamesEM.of_not (by simp [Regulating, zeroReg])

omit [Add R] [Sub R] [LT R] [DecidableLT R] [BEq R] in
theorem names_regOfRow (row : ProgRow R) (sensor : SensorFTS R) (heater cooler : EM R)
    (secure_out : Option (RegSecure R)) (green : Option (SensorFTS R)) :
    NamesEM (regOfRow row sensor heater cooler secure_out green) := by
  apply NamesEM.of_not
  unfold regOfRow
  dsimp only
  split_ifs <;> simp [Regulating, regonfhcEnable, regonfhcDisable]

theorem tracks_zero : Tracks (zeroCell : Cell R) zeroMarked where
  knows := knows_zero
  cancelled := nofun
  named := fun _ => names_zeroReg

/-- A control thread never forgets that it was asked to end. -/
theorem cellStep_cancelled {c c' : Cell R} {t : Tick R} (h : cellStep c t = some c')
    (hc : c.prog.thread.cancelled = true) : c'.prog.thread.cancelled = true := by
  -- each phase hands the pending request on
  obtain ⟨⟨id, reg, save, thread, mutex, next⟩, sent, mem⟩ := c
  cases thread with
  | alive ph k =>
    cases ph with
    | cancelOff =>
      cases t with
      | next =>
        cases mutex with
        | none => cases h; exact hc
        | some o => cases h
      | _ => cases h
    | locked =>
      cases t with
      | control inp =>
        obtain ⟨r, -, rfl⟩ := Option.map_eq_some_iff.mp h
        exact hc
      | _ => cases h
    | sleeping =>
      cases t with
      | next => cases h; exact hc
      | control inp => cases h
      | cancel =>
        cases k with
        | false => cases h
        | true => cases h; rfl
    | _ =>
      cases t with
      | next => cases h; exact hc
      | _ => cases h
  | _ => cases h

theorem Tracks.cellStep {c c' : Cell R} {m : Marked R} {t : Tick R} (hk : Tracks c m)
    (h : cellStep c t = some c') : Tracks c' m where
  knows := hk.knows.cellStep h
  cancelled := fun hm => cellStep_cancelled h (hk.cancelled hm)
  named := by
    intro hm
    -- only a control step touches the regulator
    obtain ⟨reg, th, mu, out, rfl, -, -, -, -, hreg⟩ := cellStep_cases h
    rcases hreg with ⟨rfl, -⟩ | ⟨inp, hs⟩
    · exact hk.named hm
    · exact step_names (hk.named hm) hs

/-- An access of the main thread changes the thread and the regulator as the marks tell. -/
theorem Tracks.cellTouch {β : Type} {st : AppState} {a : CellAct R β} {x : β} {c c' : Cell R}
    {m : Marked R} (hk : Tracks c m) (b : Block R) (h : cellTouch st β a c = some (x, c')) :
    ((m.after a b).cancelled = true → c'.prog.thread.cancelled = true) ∧
      ((m.after a b).named → NamesEM c'.prog.reg) := by
  -- only the operations and the fillings touch the regulator
  cases a with
  | setReg v => cases h; exact ⟨hk.cancelled, id⟩
  | op o =>
    cases h
    exact ⟨hk.cancelled, fun hm => op_names (w := ⟨c.prog.reg, []⟩) (hk.named hm) o⟩
  | lockMutex =>
    obtain ⟨⟨id, reg, save, thread, mutex, next⟩, sent, mem⟩ := c
    rcases mutex with _ | _ | _ <;> cases h <;> exact ⟨hk.cancelled, hk.named⟩
  | unlockMutex =>
    obtain ⟨⟨id, reg, save, thread, mutex, next⟩, sent, mem⟩ := c
    rcases mutex with _ | _ | _ <;> cases h <;> exact ⟨hk.cancelled, hk.named⟩
  | create =>
    obtain ⟨⟨id, reg, save, thread, mutex, next⟩, sent, mem⟩ := c
    cases thread with
    | absent => cases h; exact ⟨nofun, hk.named⟩
    | _ => cases h
  | cancel =>
    obtain ⟨⟨id, reg, save, thread, mutex, next⟩, sent, mem⟩ := c
    cases thread with
    | alive ph k => cases h; exact ⟨fun _ => rfl, hk.named⟩
    | terminated => cases h; exact ⟨fun _ => rfl, hk.named⟩
    | _ => cases h
  | join =>
    obtain ⟨⟨id, reg, save, thread, mutex, next⟩, sent, mem⟩ := c
    cases thread with
    | terminated => cases h; exact ⟨fun _ => rfl, hk.named⟩
    | _ => cases h
  | _ => cases h; exact ⟨hk.cancelled, hk.named⟩

theorem Tracks.cellExec {β : Type} {st : AppState} {a : CellAct R β} {x : β} {c c' : Cell R}
    {m : Marked R} (hk : Tracks c m) (h : cellExec st β a c = some (x, c')) :
    ∃ m', markedExec st β a m = some (x, m') ∧ Tracks c' m' := by
  obtain ⟨b, hb, hknows⟩ := hk.knows.cellExec h
  rw [Regonf.cellExec, Option.ite_none_right_eq_some] at h
  obtain ⟨hcancelled, hnamed⟩ := hk.cellTouch b h.2
  refine ⟨m.after a b, by rw [markedExec, hb]; rfl, ?_, hcancelled, hnamed⟩
  rwa [Marked.after_block]

/-- The daemon with what the main thread knows and marks. -/
def Marks (s : Daemon R (Cell R)) (t : Daemon R (Marked R)) : Prop :=
  s.globals = t.globals ∧ s.brk = t.brk ∧ ∀ p, Tracks (s.cell p) (t.cell p)

theorem marks_update {s : Daemon R (Cell R)} {t : Daemon R (Marked R)} (h : Marks s t) {p : Ptr}
    {c : Cell R} {m : Marked R} (hk : Tracks c m) (q : Ptr) :
    Tracks (Function.update s.cell p c q) (Function.update t.cell p m q) := by
  rcases eq_or_ne q p with rfl | hq
  · rw [Function.update_self, Function.update_self]
    exact hk
  · rw [Function.update_of_ne hq, Function.update_of_ne hq]
    exact h.2.2 q

theorem marks_simulates :
    Script.Simulates (exec cellExec (zeroCell : Cell R)) threadStep
      (exec markedExec (zeroMarked : Marked R)) Marks where
  act := by
    intro β a o s s' x t hs he
    cases a with
    | globals => cases he; exact ⟨t, by rw [exec, hs.1], hs⟩
    | setGlobals f => cases he; exact ⟨_, rfl, by rw [hs.1], hs.2⟩
    | attempt w => cases he; exact ⟨t, rfl, hs⟩
    | selectProg id => cases he; exact ⟨t, by rw [exec, hs.1], hs⟩
    | malloc =>
      cases he
      refine ⟨{ t with brk := t.brk + 1, cell := Function.update t.cell t.brk zeroMarked },
        by rw [exec, hs.2.1], hs.1, congrArg (· + 1) hs.2.1, ?_⟩
      -- the new block lies at the same address
      rw [hs.2.1]
      exact marks_update hs tracks_zero
    | blocks => cases he; exact ⟨t, by rw [exec, hs.2.1], hs⟩
    | cell p a =>
      obtain ⟨⟨y, c⟩, hc, he⟩ := Option.map_eq_some_iff.mp he
      cases he
      obtain ⟨m, hm, hk⟩ := (hs.2.2 p).cellExec hc
      rw [hs.1] at hm
      refine ⟨{ t with cell := Function.update t.cell p m }, ?_, hs.1, hs.2.1, marks_update hs hk⟩
      rw [exec, hm]
      rfl
    | undefined => cases he
  env := by
    intro s s' e t hs he
    unfold threadStep at he
    split_ifs at he
    obtain ⟨c, hc, rfl⟩ := Option.map_eq_some_iff.mp he
    refine ⟨hs.1, hs.2.1, fun q => ?_⟩
    have hq := marks_update hs (p := e.1) ((hs.2.2 e.1).cellStep hc) q
    rwa [Function.update_eq_self] at hq

end Regonf
