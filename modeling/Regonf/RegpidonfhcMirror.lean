import Mathlib.Algebra.Order.Field.Basic
import Mathlib.Algebra.Order.Ring.Rat
import Mathlib.Tactic.Ring
import Regonf.RegonfhcMirror
import Regonf.RegpidonfhcNames

/-! Heating and cooling in the regulator with PID: its steps are mirrored like those of the on-off
regulator, except where the setter of a delta tests the mode of the other mechanism, and where
a PID controller is in neither of its modes. -/
namespace Regonf

def PidMode.mirror : PidMode → PidMode
  | .heater => .cooler
  | .cooler => .heater
  | .other => .other

variable {R : Type*}

section
variable [Neg R]

/-- The PID controller of the other mechanism, with the errors of a negated reading. -/
def PID.mirror (p : PID R) : PID R :=
  { p with
    integral_error := -p.integral_error
    previous_error := -p.previous_error
    mode := p.mode.mirror }

def RegPIDOnfHCEM.mirror (e : RegPIDOnfHCEM R) : RegPIDOnfHCEM R := { e with pid := e.pid.mirror }

def RegPIDOnfHC.mirror (item : RegPIDOnfHC R) : RegPIDOnfHC R :=
  { item with
    sensor := item.sensor.neg
    heater := item.cooler.mirror
    cooler := item.heater.mirror
    goal := -item.goal
    secure_out := item.secure_out.mirror
    state_r := item.state_r.mirror }

end

section
variable [Field R] [LinearOrder R] [IsStrictOrderedRing R]

/-- The new error, its integral and its derivative, from a goal and a reading. -/
def PID.errors (p : PID R) (set_point input : R) (now : Timespec) : R × R × R :=
  (set_point - input, p.integral_error + (set_point - input) * p.dt now,
    (set_point - input - p.previous_error) / p.dt now)

/-- A call that computes an output finds the controller in one of its modes, unless the output
is zero. -/
def PID.ModeKnown (p : PID R) (set_point input : R) (now : Timespec) : Prop :=
  p.mode = .other → p.reset = false → 0 ≤ p.dt now →
    let e := p.errors set_point input now
    p.output e.1 e.2.1 e.2.2 = 0

omit [LinearOrder R] [IsStrictOrderedRing R] in
/-- A controller in one of the two modes gives the output of its mirror; in no mode, minus that
output. -/
theorem PID.output_mirror (p : PID R) (e i d : R) :
    p.mirror.output (-e) (-i) (-d) =
      if p.mode = .other then -p.output e i d else p.output e i d := by
  unfold PID.output PID.mirror
  cases p.mode with
  | heater => simp [PidMode.mirror]
  | cooler => simp [PidMode.mirror]
  | other =>
    simp only [PidMode.mirror, ↓reduceIte]
    ring

omit [LinearOrder R] [IsStrictOrderedRing R] in
theorem PID.errors_mirror (p : PID R) (set_point input : R) (now : Timespec) :
    p.mirror.errors (-set_point) (-input) now =
      (-(p.errors set_point input now).1, -(p.errors set_point input now).2.1,
        -(p.errors set_point input now).2.2) := by
  have hd : p.mirror.dt now = p.dt now := rfl
  have hi : p.mirror.integral_error = -p.integral_error := rfl
  have he : p.mirror.previous_error = -p.previous_error := rfl
  simp only [PID.errors, hd, hi, he, Prod.mk.injEq]
  refine ⟨by ring, by ring, ?_⟩
  rw [← neg_div]
  congr 1
  ring

omit [IsStrictOrderedRing R] in
/-- `pid` computes an output. -/
theorem pid_computes {p : PID R} (hr : p.reset = false) {now : Timespec} (hd : 0 ≤ p.dt now)
    (set_point input : R) :
    let e := p.errors set_point input now
    pid p set_point input now =
      (p.output e.1 e.2.1 e.2.2, { p with
        integral_error := e.2.1, previous_error := e.1, previous_time := now
        previous_output := p.output e.1 e.2.1 e.2.2 }) := by
  simp [pid, hr, hd.not_gt, PID.errors]

omit [IsStrictOrderedRing R] in
theorem pid_mirror {p : PID R} {set_point input : R} {now : Timespec}
    (hk : p.ModeKnown set_point input now) :
    pid p.mirror (-set_point) (-input) now =
      ((pid p set_point input now).1, (pid p set_point input now).2.mirror) := by
  have hd' : p.mirror.dt now = p.dt now := rfl
  cases hr : p.reset with
  | true =>
    simp only [pid, hr, ↓reduceIte, PID.mirror, neg_zero]
  | false =>
    have hr' : p.mirror.reset = false := hr
    by_cases hd : p.dt now < 0
    · simp only [pid, hr, hr', hd', hd, Bool.false_eq_true, ↓reduceIte]
      rfl
    · have hd := not_lt.mp hd
      have hout : p.mirror.output (-(p.errors set_point input now).1)
          (-(p.errors set_point input now).2.1) (-(p.errors set_point input now).2.2) =
          p.output (p.errors set_point input now).1 (p.errors set_point input now).2.1
            (p.errors set_point input now).2.2 := by
        rw [PID.output_mirror]
        split_ifs with hm
        · rw [hk hm hr hd, neg_zero]
        · rfl
      rw [pid_computes hr hd, pid_computes hr' (hd' ▸ hd), PID.errors_mirror, hout]
      rfl

/-- In no mode the output of the mirror has the other sign. -/
theorem pid_mirror_ne {p : PID R} {set_point input : R} {now : Timespec}
    (hk : ¬p.ModeKnown set_point input now) :
    (pid p.mirror (-set_point) (-input) now).1 ≠ (pid p set_point input now).1 := by
  simp only [PID.ModeKnown, Classical.not_imp] at hk
  obtain ⟨hm, hr, hd, hne⟩ := hk
  have hr' : p.mirror.reset = false := hr
  have hd' : 0 ≤ p.mirror.dt now := hd
  rw [pid_computes hr hd, pid_computes hr' hd', PID.errors_mirror, PID.output_mirror, if_pos hm]
  exact fun h => hne (neg_eq_self.mp h)

end

namespace Regpidonfhc

def ControlInput.mirror [Neg R] (inp : ControlInput R) : ControlInput R :=
  { inp with snsr := inp.snsr.neg, snsrAgain := inp.snsrAgain.neg }

def Op.mirror [Neg R] : Op R → Op R
  | .enable => .enable
  | .disable => .disable
  | .setCoolerDelta v => .setHeaterDelta v
  | .setHeaterDelta v => .setCoolerDelta v
  | .setHeaterKp v => .setCoolerKp v
  | .setHeaterKi v => .setCoolerKi v
  | .setHeaterKd v => .setCoolerKd v
  | .setCoolerKp v => .setHeaterKp v
  | .setCoolerKi v => .setHeaterKi v
  | .setCoolerKd v => .setHeaterKd v
  | .setGoal v => .setGoal (-v)
  | .setHeaterMode v => .setCoolerMode v
  | .setCoolerMode v => .setHeaterMode v
  | .setEMMode v => .setEMMode (mirrorMode v)
  | .setChangeGap v => .setChangeGap v
  | .setHeaterPower v => .setCoolerPower v
  | .setCoolerPower v => .setHeaterPower v
  | .turnOff => .turnOff
  | .secureOutTouch => .secureOutTouch

def Input.mirror [Neg R] : Input R → Input R
  | .control inp => .control inp.mirror
  | .op o => .op o.mirror

section
variable [Neg R]

/-- `b` is the mirror of `a`, except for `state_r` in the states that do not use it. -/
structure Mirrors (a b : RegPIDOnfHC R) : Prop where
  item : b = { a.mirror with state_r := b.state_r }
  state_r : a.state.ignoresR = false → b.state_r = a.state_r.mirror

/-- The wire `w'` carries the mirror of `w`, with `state_r` at `r`; its messages are the
mirrored messages in some order. -/
structure MirrorAt (r : StateReg) (w w' : Wire R) : Prop where
  item : w'.item = { w.item.mirror with state_r := r }
  sent : w'.sent.Perm (w.sent.map Request.mirror)

/-- The modes and the PID data of the mirror. -/
def PidsMirror (p p' : EMName → StateReg × PID R) : Prop :=
  ∀ n : EMName, p' n.other = ((p n).1, (p n).2.mirror)

namespace MirrorAt

variable {r : StateReg} {w w' : Wire R}

theorem onf (h : MirrorAt r w w') : Regonf.MirrorAt r w.onf w'.onf := by
  refine ⟨?_, h.sent⟩
  simp only [Wire.onf, h.item]
  rfl

theorem pids (h : MirrorAt r w w') : PidsMirror w.item.pids w'.item.pids := by
  intro n
  rw [h.item]
  cases n <;> rfl

/-- The mirror is that of the on-off part and that of the PID data. -/
theorem of_onf (h : Regonf.MirrorAt r w.onf w'.onf)
    (hp : PidsMirror w.item.pids w'.item.pids) : MirrorAt r w w' := by
  refine ⟨RegPIDOnfHC.ext_onf h.item fun n => ?_, h.sent⟩
  rw [← n.other_other, hp n.other]
  cases n <;> rfl

theorem upd {r' : StateReg} (h : MirrorAt r w w') {f g : RegPIDOnfHC R → RegPIDOnfHC R}
    (hfg : ∀ i, g { i.mirror with state_r := r } = { (f i).mirror with state_r := r' }) :
    MirrorAt r' (w.upd f) (w'.upd g) :=
  ⟨by rw [Wire.upd_item, h.item, hfg]; rfl, h.sent⟩

theorem state_r (h : MirrorAt r w w') : w'.item.state_r = r := by rw [h.item]

theorem timer (h : MirrorAt r w w') (t : TonTs) :
    MirrorAt r (w.upd fun i => { i with tmr := t }) (w'.upd fun i => { i with tmr := t }) :=
  h.upd fun _ => rfl

theorem em (h : MirrorAt r w w') (n : EMName) :
    w'.item.em n.other = (w.item.em n).mirror := by
  rw [h.item]
  cases n <;> rfl

theorem controlEM (h : MirrorAt r w w') (n : EMName) (v : R) :
    MirrorAt r (controlEM w n v) (controlEM w' n.other v) := by
  refine of_onf ?_ ?_
  · rw [controlEM_onf, controlEM_onf]
    exact h.onf.controlEM n v
  · rw [controlEM_pids, controlEM_pids]
    exact h.pids

theorem both (h : MirrorAt r w w') (a b : R) :
    MirrorAt r (Regpidonfhc.controlEM (Regpidonfhc.controlEM w .heater a) .cooler b)
      (Regpidonfhc.controlEM (Regpidonfhc.controlEM w' .heater b) .cooler a) := by
  refine of_onf ?_ ?_
  · simp only [controlEM_onf]
    exact h.onf.both a b
  · rw [both_pids, both_pids]
    exact h.pids

theorem both_rev (h : MirrorAt r w w') (a b : R) :
    MirrorAt r (Regpidonfhc.controlEM (Regpidonfhc.controlEM w .cooler a) .heater b)
      (Regpidonfhc.controlEM (Regpidonfhc.controlEM w' .cooler b) .heater a) := by
  refine of_onf ?_ ?_
  · simp only [controlEM_onf]
    exact h.onf.both_rev a b
  · simp only [controlEM_pids]
    exact h.pids

theorem readSensor (h : MirrorAt r w w') (p : Reply R) :
    MirrorAt r (readSensor w p) (readSensor w' p.neg) := by
  refine of_onf (h.onf.readSensor p) fun n => ?_
  have hn := h.pids n
  cases n <;> exact hn

theorem greenLight [BEq R] (h : MirrorAt r w w') (p : Reply R) :
    (greenLightIsGreen w' p).1 = (greenLightIsGreen w p).1 ∧
      MirrorAt r (greenLightIsGreen w p).2 (greenLightIsGreen w' p).2 := by
  obtain ⟨hg, hi, hp⟩ := greenLight_onf w p
  obtain ⟨hg', hi', hp'⟩ := greenLight_onf w' p
  obtain ⟨he, hm⟩ := h.onf.greenLight p
  refine ⟨hg'.trans (he.trans hg.symm), of_onf ?_ ?_⟩
  · rw [hi, hi']
    exact hm
  · rw [hp, hp']
    exact h.pids

theorem secure (h : MirrorAt r w w') (inp : ControlInput R) :
    MirrorAt r (busySecure w inp) (busySecure w' inp.mirror) := by
  refine of_onf (h.onf.secure inp.toControlInput) fun n => ?_
  have hn := h.pids n
  cases n <;> exact hn

theorem inSecure (h : MirrorAt r w w') (inp : ControlInput R) :
    MirrorAt r (controlSecure w inp) (controlSecure w' inp.mirror) := by
  refine of_onf ?_ ?_
  · rw [controlSecure_onf, controlSecure_onf]
    exact h.onf.inSecure inp.toControlInput
  · have hp (v : Wire R) (inp : ControlInput R) : (controlSecure v inp).item.pids = v.item.pids :=
      both_pids v _ _
    rw [hp, hp]
    exact h.pids

section
variable [Zero R]

theorem failed (h : MirrorAt r w w') : MirrorAt r (busyFailed w) (busyFailed w') := by
  refine of_onf ?_ ?_
  · rw [busyFailed_onf, busyFailed_onf]
    exact h.onf.failed
  · rw [busyFailed_pids, busyFailed_pids]
    exact h.pids

theorem inDisable (h : MirrorAt r w w') :
    MirrorAt .regOff (controlDisable w) (controlDisable w') := by
  refine of_onf ?_ ?_
  · rw [controlDisable_onf, controlDisable_onf]
    exact h.onf.inDisable
  · rw [controlDisable_pids, controlDisable_pids]
    exact h.pids

theorem reset (h : MirrorAt r w w') : MirrorAt r (initReset w) (initReset w') := by
  unfold initReset
  have h₁ : MirrorAt r (w.upd fun i => { i with tmr := { i.tmr with ready := false } })
      (w'.upd fun i => { i with tmr := { i.tmr with ready := false } }) := h.upd fun _ => rfl
  exact (h₁.both 0 0).upd fun _ => rfl

end

end MirrorAt

end

/-- The setter of the delta of the mechanism at work re-initialises in one mode of the heater;
the two sides agree when both mechanisms are in that mode or neither is. -/
def SameModes (item : RegPIDOnfHC R) : Op R → Prop
  | .setCoolerDelta _ => item.state = .regBusy → item.state_r = .regCooler →
      (item.heater.mode = .regModeOnf ↔ item.cooler.mode = .regModeOnf)
  | .setHeaterDelta _ => item.state = .regBusy → item.state_r = .regHeater →
      (item.heater.mode = .regModeOnf ↔ item.cooler.mode = .regModeOnf)
  | _ => True

section
variable [Zero R] [Neg R]

theorem setEMMode_mirror {w w' : Wire R} {r : StateReg} (h : MirrorAt r w w') (v : String) :
    MirrorAt r (regpidonfhcSetEMMode w v) (regpidonfhcSetEMMode w' (mirrorMode v)) := by
  refine MirrorAt.of_onf ?_ ?_
  · rw [setEMMode_onf, setEMMode_onf]
    exact Regonf.setEMMode_mirror h.onf v
  · rw [setEMMode_pids, setEMMode_pids]
    exact h.pids

omit [Zero R] in
theorem setMode_mirror {w w' : Wire R} {r : StateReg} (h : MirrorAt r w w')
    (hr : w.item.state.ignoresR = false → r = w.item.state_r.mirror) (n : EMName) (v : String) :
    MirrorAt r (w.upd fun i => setMode i n v) (w'.upd fun i => setMode i n.other v) := by
  have hr' : w.item.onf.state.ignoresR = false → r = w.item.onf.state_r.mirror := hr
  have hb : (w.item.state = .regBusy ∧ r = n.other.state) ↔
      (w.item.state = .regBusy ∧ w.item.state_r = n.state) := busy_with_mirror hr' n
  refine ⟨?_, h.sent⟩
  simp only [Wire.upd_item, h.item, setMode]
  cases modeOfStr v with
  | none => rfl
  | some m =>
    cases n <;>
      simp only [RegPIDOnfHC.setEM, RegPIDOnfHC.em, RegPIDOnfHC.mirror, RegPIDOnfHCEM.mirror,
        EMName.other] at hb ⊢ <;>
      congr 1 <;> exact if_congr hb rfl rfl

/-- The two guards of a delta setter agree where the modes do. -/
theorem busy_with_mode {b m m' c c' : Prop} (hc : b ∧ c' ↔ b ∧ c) (hm : b → c → (m ↔ m')) :
    b ∧ m' ∧ c' ↔ b ∧ m ∧ c := by
  constructor
  · intro h
    have hbc := hc.mp ⟨h.1, h.2.2⟩
    exact ⟨h.1, (hm h.1 hbc.2).mpr h.2.1, hbc.2⟩
  · intro h
    have hbc := hc.mpr ⟨h.1, h.2.2⟩
    exact ⟨h.1, (hm h.1 h.2.2).mp h.2.1, hbc.2⟩

/-- One operation and its mirror. -/
theorem op_mirror {w w' : Wire R} {r : StateReg} (h : MirrorAt r w w')
    (hr : w.item.state.ignoresR = false → r = w.item.state_r.mirror) {o : Op R}
    (hm : SameModes w.item o) : MirrorAt r (applyOp w o) (applyOp w' o.mirror) := by
  have hr' : w.item.onf.state.ignoresR = false → r = w.item.onf.state_r.mirror := hr
  have hc : (w.item.state = .regBusy ∧ r = .regHeater) ↔
      (w.item.state = .regBusy ∧ w.item.state_r = .regCooler) := busy_with_mirror hr' .cooler
  have hh : (w.item.state = .regBusy ∧ r = .regCooler) ↔
      (w.item.state = .regBusy ∧ w.item.state_r = .regHeater) := busy_with_mirror hr' .heater
  cases o <;> dsimp only [applyOp, Op.mirror]
  case setCoolerDelta v =>
    refine ⟨?_, h.sent⟩
    have hg : (w.item.state = .regBusy ∧ w.item.cooler.mode = .regModeOnf ∧ r = .regHeater) ↔
        (w.item.state = .regBusy ∧ w.item.heater.mode = .regModeOnf ∧
          w.item.state_r = .regCooler) := busy_with_mode hc hm
    simp only [Wire.upd_item, h.item, regpidonfhcSetHeaterDelta, regpidonfhcSetCoolerDelta,
      RegPIDOnfHC.mirror, RegPIDOnfHCEM.mirror, hg]
  case setHeaterDelta v =>
    refine ⟨?_, h.sent⟩
    have hg : (w.item.state = .regBusy ∧ w.item.cooler.mode = .regModeOnf ∧ r = .regCooler) ↔
        (w.item.state = .regBusy ∧ w.item.heater.mode = .regModeOnf ∧
          w.item.state_r = .regHeater) := busy_with_mode hh hm
    simp only [Wire.upd_item, h.item, regpidonfhcSetHeaterDelta, regpidonfhcSetCoolerDelta,
      RegPIDOnfHC.mirror, RegPIDOnfHCEM.mirror, hg]
  case setHeaterMode v => exact setMode_mirror h hr .heater v
  case setCoolerMode v => exact setMode_mirror h hr .cooler v
  case setEMMode v => exact setEMMode_mirror h v
  case setHeaterPower v => exact (h.controlEM .heater v).upd fun _ => rfl
  case setCoolerPower v => exact (h.controlEM .cooler v).upd fun _ => rfl
  case turnOff =>
    have h₁ : MirrorAt r (w.upd fun i => { i with state := .regOff })
        (w'.upd fun i => { i with state := .regOff }) := h.upd fun _ => rfl
    exact h₁.both_rev 0 0
  all_goals exact h.upd fun _ => rfl

/-- Where the two sides disagree on the mode, one of them goes to `REG_INIT` alone. -/
theorem op_mirror_ne {w w' : Wire R} {r : StateReg} (h : MirrorAt r w w')
    (hr : w.item.state.ignoresR = false → r = w.item.state_r.mirror) {o : Op R}
    (hm : ¬SameModes w.item o) :
    (applyOp w' o.mirror).item.state ≠ (applyOp w o).item.state := by
  cases o <;> simp only [SameModes, not_true_eq_false, Classical.not_imp] at hm
  all_goals
    obtain ⟨hb, hs, hm⟩ := hm
    rw [hb] at hr
    have hr := hr (by decide)
    rw [hs] at hr
    simp only [StateReg.mirror] at hr
    have hb' : w'.item.state = .regBusy := by rw [h.item]; exact hb
    have hr' : w'.item.state_r = r := h.state_r
    have hmode : w'.item.heater.mode = w.item.cooler.mode := by rw [h.item]; rfl
    simp only [applyOp, Op.mirror, Wire.upd_item, regpidonfhcSetCoolerDelta,
      regpidonfhcSetHeaterDelta, hb, hb', hr', hr, hs, hmode, true_and, and_true]
    split_ifs <;> simp_all

end

section
variable [Field R] [LinearOrder R] [IsStrictOrderedRing R]

theorem thresholds_mirror (item : RegPIDOnfHC R) (r : StateReg) (n : EMName) :
    valIsOut { item.mirror with state_r := r } n.other = valIsOut item n ∧
      valIsLow { item.mirror with state_r := r } n.other = valIsLow item n := by
  obtain ⟨ho, hl⟩ := thresholds_onf item n
  obtain ⟨ho', hl'⟩ := thresholds_onf { item.mirror with state_r := r } n.other
  obtain ⟨hmo, hml⟩ := Regonf.thresholds_mirror item.onf r n
  exact ⟨ho'.symm.trans (hmo.trans ho), hl'.symm.trans (hml.trans hl)⟩

theorem valueIsOut_mirror {w w' : Wire R} {r : StateReg} (h : MirrorAt r w w') (n : EMName) :
    valueIsOut w'.item n.other = valueIsOut w.item n := by
  have hm : (w'.item.em n.other).mode = (w.item.em n).mode := by rw [h.em]; rfl
  have ho : w'.item.output = w.item.output := by rw [h.item]; rfl
  have ht : valIsOut w'.item n.other = valIsOut w.item n := by
    rw [h.item]
    exact (thresholds_mirror w.item r n).1
  unfold valueIsOut
  rw [hm, ho, ht]

omit [IsStrictOrderedRing R]

/-- The mechanism that a `REG_BUSY` step with a reading drives. -/
def driven (item : RegPIDOnfHC R) (n : EMName) (inp : ControlInput R) : EMName :=
  if valueIsOut item n && (item.em n.other).use &&
      (tonTs item.change_gap item.tmr inp.gapFirst inp.gapNow).1 then n.other else n

theorem busyChange_driven {w : Wire R} {n : EMName} (hn : w.item.state_r = n.state)
    (inp : ControlInput R) :
    (busyChange w n inp).item.state_r = (driven w.item n inp).state := by
  unfold busyChange driven
  cases hv : valueIsOut w.item n && (w.item.em n.other).use <;>
    cases ht : (tonTs w.item.change_gap w.item.tmr inp.gapFirst inp.gapNow).1 <;>
    simp [hn, ht]

theorem busyChange_frame (w : Wire R) (n : EMName) (inp : ControlInput R) :
    (busyChange w n inp).item.goal = w.item.goal ∧
      (busyChange w n inp).item.sensor = w.item.sensor := by
  unfold busyChange
  dsimp only
  split_ifs <;> simp

end

section
variable [Field R] [LinearOrder R] [IsStrictOrderedRing R]

theorem busyOutput_mirror {item : RegPIDOnfHC R} {m : EMName} {now : Timespec}
    (hk : (item.em m).mode = .regModePid →
      (item.em m).pid.ModeKnown item.goal item.sensor.value.value now) (r : StateReg) :
    busyOutput { item.mirror with state_r := r } m.other now =
      { (busyOutput item m now).mirror with state_r := r } := by
  have he : ({ item.mirror with state_r := r } : RegPIDOnfHC R).em m.other =
      (item.em m).mirror := by cases m <;> rfl
  have hmode : (item.em m).mirror.mode = (item.em m).mode := rfl
  unfold busyOutput
  rw [he, hmode]
  cases hm : (item.em m).mode with
  | regModePid =>
    have hp : pid (item.em m).mirror.pid (-item.goal) (-item.sensor.value.value) now = _ :=
      pid_mirror (hk hm)
    have hg : ({ item.mirror with state_r := r } : RegPIDOnfHC R).goal = -item.goal := rfl
    have hv : ({ item.mirror with state_r := r } : RegPIDOnfHC R).sensor.value.value =
        -item.sensor.value.value := rfl
    unfold busyPid
    dsimp only
    rw [he, hg, hv, hp]
    cases m <;> rfl
  | regModeOnf =>
    obtain ⟨ho, hl⟩ := thresholds_mirror item r m
    have hs : ({ item.mirror with state_r := r } : RegPIDOnfHC R).state_onf =
        item.state_onf := rfl
    unfold busyOnf
    dsimp only
    rw [ho, hl, hs]
    split <;> cases m <;> rfl
  | _ => rfl

/-- A `REG_INIT` step reads the same twice, and not exactly the goal with both mechanisms in
use. -/
def InitReads [BEq R] (item : RegPIDOnfHC R) : Input R → Prop
  | .control inp => item.state = .regInit → inp.snsrAgain = inp.snsr ∧
      ReadsOffGoal item.onf (.control inp.toControlInput)
  | .op _ => True

/-- The PID controller that `REG_BUSY` runs after a reading is in one of its modes. -/
def PidKnown (item : RegPIDOnfHC R) (n : EMName) (inp : ControlInput R) : Prop :=
  (item.em (driven item n inp)).mode = .regModePid →
    (item.em (driven item n inp)).pid.ModeKnown item.goal item.sensor.value.value inp.pidNow

/-- The condition under which a step is mirrored: a PID controller that runs is in one of its
modes, and the setter of a delta finds the two mechanisms in the same mode. -/
def Symmetric (item : RegPIDOnfHC R) : Input R → Prop
  | .control inp => item.state = .regBusy → inp.snsr.fts?.isSome = true →
      ∀ n : EMName, item.state_r = n.state →
        PidKnown { item with sensor := readSensorFTS item.sensor inp.snsr } n inp
  | .op o => SameModes item o

namespace MirrorAt

variable {r : StateReg} {w w' : Wire R}

theorem drive {m : EMName} {now : Timespec} (h : MirrorAt r w w')
    (hk : (w.item.em m).mode = .regModePid →
      (w.item.em m).pid.ModeKnown w.item.goal w.item.sensor.value.value now) :
    MirrorAt r (busyDrive w m now) (busyDrive w' m.other now) := by
  have h₁ : MirrorAt r (w.upd fun i => busyOutput i m now)
      (w'.upd fun i => busyOutput i m.other now) :=
    ⟨by rw [Wire.upd_item, h.item, busyOutput_mirror hk]; rfl, h.sent⟩
  have ho : (w'.upd fun i => busyOutput i m.other now).item.output =
      (w.upd fun i => busyOutput i m now).item.output := by rw [h₁.item]; rfl
  unfold busyDrive
  dsimp only
  rw [ho]
  exact (h₁.controlEM m _).controlEM m.other 0

/-- A PID controller in no mode gives the two sides different outputs. -/
theorem drive_ne {m : EMName} {now : Timespec} (h : MirrorAt r w w')
    (hm : (w.item.em m).mode = .regModePid)
    (hk : ¬(w.item.em m).pid.ModeKnown w.item.goal w.item.sensor.value.value now) :
    (busyDrive w' m.other now).item.output ≠ (busyDrive w m now).item.output := by
  have hm' : (w'.item.em m.other).mode = .regModePid := by rw [h.em]; exact hm
  have hp : (w'.item.em m.other).pid = (w.item.em m).pid.mirror := by rw [h.em]; rfl
  have hg : w'.item.goal = -w.item.goal := by rw [h.item]; rfl
  have hv : w'.item.sensor.value.value = -w.item.sensor.value.value := by rw [h.item]; rfl
  simp only [busyDrive, controlEM_frame, Wire.upd_item, busyOutput, hm, hm', busyPid, hp, hg, hv]
  exact pid_mirror_ne hk

/-- A handover happens on both sides or on neither. -/
theorem change {n : EMName} (h : MirrorAt n.other.state w w') (inp : ControlInput R) :
    MirrorAt (driven w.item n inp).other.state (busyChange w n inp)
      (busyChange w' n.other inp.mirror) := by
  have ho := valueIsOut_mirror h n
  have hu : (w'.item.em n.other.other).use = (w.item.em n.other).use := by
    rw [h.em n.other]
    rfl
  have ht : w'.item.tmr = w.item.tmr := by rw [h.item]; rfl
  have hg : w'.item.change_gap = w.item.change_gap := by rw [h.item]; rfl
  simp only [busyChange, driven, ControlInput.mirror, ho, hu, ht, hg]
  cases hv : valueIsOut w.item n && (w.item.em n.other).use with
  | false =>
    simp only [Bool.false_and, Bool.false_eq_true, ↓reduceIte]
    exact h.upd fun _ => rfl
  | true =>
    cases hf : (tonTs w.item.change_gap w.item.tmr inp.gapFirst inp.gapNow).1 with
    | false =>
      simp only [Bool.and_false, Bool.false_eq_true, ↓reduceIte]
      exact h.timer _
    | true =>
      simp only [Bool.and_self, ↓reduceIte]
      exact controlEM ((h.timer _).upd fun _ => rfl) n 0

theorem regulate {n : EMName} (h : MirrorAt n.other.state w w') (hn : w.item.state_r = n.state)
    (inp : ControlInput R) :
    ∃ v v', ∃ m : EMName, busyRegulate w inp = some v ∧ busyRegulate w' inp.mirror = some v' ∧
      v.item.state_r = m.state ∧ (PidKnown w.item n inp → MirrorAt m.other.state v v') ∧
      (¬PidKnown w.item n inp → v'.item.output ≠ v.item.output) := by
  have hr := busyChange_driven hn inp
  have hc := h.change inp
  obtain ⟨hg, hs⟩ := busyChange_frame w n inp
  have hp : (busyChange w n inp).item.pids (driven w.item n inp) = _ :=
    congrFun (busyChange_pids w n inp) _
  simp only [RegPIDOnfHC.pids, Prod.mk.injEq] at hp
  unfold busyRegulate
  rw [hn, h.state_r, EMName.ofState?_state, EMName.ofState?_state]
  dsimp only
  rw [hr, hc.state_r, EMName.ofState?_state, EMName.ofState?_state]
  simp only [Option.getD_some]
  refine ⟨_, _, driven w.item n inp, rfl, rfl, ?_, fun hk => ?_, fun hk => ?_⟩
  · simp [busySecure, busyDrive, busyOutput_state_r, hr]
  · exact (hc.drive fun hm => by rw [hp.2, hg, hs]; exact hk (hp.1 ▸ hm)).secure inp
  · simp only [PidKnown, Classical.not_imp] at hk
    exact hc.drive_ne (hp.1.trans hk.1) (by rw [hp.2, hg, hs]; exact hk.2)

/-- `REG_BUSY` with `state_r` naming a mechanism. -/
theorem busy {n : EMName} (h : MirrorAt n.other.state w w') (hn : w.item.state_r = n.state)
    (inp : ControlInput R) :
    ∃ v v', ∃ m : EMName, controlBusy w inp = some v ∧ controlBusy w' inp.mirror = some v' ∧
      v.item.state_r = m.state ∧
      ((inp.snsr.fts?.isSome = true →
          PidKnown { w.item with sensor := readSensorFTS w.item.sensor inp.snsr } n inp) →
        MirrorAt m.other.state v v') ∧
      (¬(inp.snsr.fts?.isSome = true →
          PidKnown { w.item with sensor := readSensorFTS w.item.sensor inp.snsr } n inp) →
        v'.item.output ≠ v.item.output) := by
  have h₁ : MirrorAt n.other.state (Regpidonfhc.readSensor w inp.snsr)
      (Regpidonfhc.readSensor w' inp.mirror.snsr) := h.readSensor inp.snsr
  have hf' : inp.mirror.snsr.fts?.isSome = inp.snsr.fts?.isSome := Reply.neg_isSome _
  unfold controlBusy
  dsimp only
  rw [hf']
  cases inp.snsr.fts?.isSome with
  | false =>
    refine ⟨_, _, n, rfl, rfl, ?_, fun _ => h₁.failed, fun hk => absurd ?_ hk⟩
    · have hr := (Regonf.busyFailed_frame (Regpidonfhc.readSensor w inp.snsr).onf).2.1
      rw [← busyFailed_onf] at hr
      exact hr.trans hn
    · rintro ⟨⟩
  | true =>
    have h₂ : MirrorAt n.other.state
        ((Regpidonfhc.readSensor w inp.snsr).upd fun i => { i with snsrf_count := 0 })
        ((Regpidonfhc.readSensor w' inp.mirror.snsr).upd fun i => { i with snsrf_count := 0 }) :=
      h₁.upd fun _ => rfl
    obtain ⟨v, v', m, hv, hv', hr, hk, hne⟩ := h₂.regulate hn inp
    exact ⟨v, v', m, hv, hv', hr, fun h => hk (h rfl), fun h => hne fun hk => h fun _ => hk⟩

/-- The end of `REG_INIT`. -/
theorem initDone (h : MirrorAt r w w') {inp : ControlInput R} {p : SensorFTS R}
    (hs : w.item.sensor = readSensorFTS p inp.snsrAgain)
    (hf : inp.snsrAgain.fts?.isSome = true)
    (ht : w.item.heater.use = true → w.item.cooler.use = true →
      w.item.onf.OffGoal w.item.sensor.value.value) :
    ∃ s, MirrorAt s (controlInitDone w inp) (controlInitDone w' inp.mirror) ∧
      ((controlInitDone w inp).item.state.ignoresR = false →
        s = (controlInitDone w inp).item.state_r.mirror) := by
  have hs' : w'.item.sensor = readSensorFTS p.neg inp.mirror.snsrAgain := by
    rw [h.item]
    exact (congrArg SensorFTS.neg hs).trans (readSensorFTS_neg p inp.snsrAgain).symm
  have hf' : inp.mirror.snsrAgain.fts?.isSome = true := (Reply.neg_isSome _).trans hf
  have haddr : w'.item.sensor.peer.addr = w.item.sensor.peer.addr := by rw [h.item]; rfl
  obtain ⟨hi, hsent⟩ := controlInitDone_choice hs hf
  obtain ⟨hi', hsent'⟩ := controlInitDone_choice hs' hf'
  have hx := h.reset
  have hchoice : initChoice (initReset w').item.onf =
      (initChoice (initReset w).item.onf).map EMName.other := by
    have hxo : (initReset w').item.onf = { (initReset w).item.onf.mirror with state_r := r } :=
      hx.onf.item
    rw [hxo]
    refine initChoice_mirror r ?_
    have hfr : (initReset w).item.onf.sensor = w.item.sensor ∧
        (initReset w).item.onf.goal = w.item.goal := by simp [initReset, RegPIDOnfHC.onf]
    rw [RegOnfHC.OffGoal, hfr.1, hfr.2]
    simpa [RegOnfHC.OffGoal, RegPIDOnfHC.onf, RegPIDOnfHCEM.onf] using ht
  have hu : ((initReset w').item.heater.use && (initReset w').item.cooler.use) =
      ((initReset w).item.heater.use && (initReset w).item.cooler.use) := by
    rw [hx.item]
    exact Bool.and_comm _ _
  have hperm : (controlInitDone w' inp.mirror).sent.Perm
      ((controlInitDone w inp).sent.map Request.mirror) := by
    rw [hsent, hsent', hu, haddr, List.map_append]
    refine hx.sent.append ?_
    split_ifs <;> exact List.Perm.refl _
  rw [hchoice] at hi'
  generalize controlInitDone w inp = y at *
  generalize controlInitDone w' inp.mirror = y' at *
  cases hc : initChoice (initReset w).item.onf with
  | none =>
    rw [hc] at hi hi'
    refine ⟨r, ⟨?_, hperm⟩, fun hs => ?_⟩
    · rw [hi, hi']
      simp only [Option.map_none, hx.item]
      rfl
    · rw [hi] at hs
      simp [StateReg.ignoresR] at hs
  | some n =>
    rw [hc] at hi hi'
    refine ⟨n.other.state, ⟨?_, hperm⟩, fun _ => ?_⟩
    · rw [hi, hi']
      simp only [Option.map_some, hx.item]
      rfl
    · rw [hi]
      exact n.state_mirror.symm

end MirrorAt

theorem init_mirror [BEq R] {w w' : Wire R} {r : StateReg} {inp : ControlInput R}
    (h : MirrorAt r w w') (hs : w.item.state = .regInit) (ha : inp.snsrAgain = inp.snsr)
    (ht : w.item.heater.use = true → w.item.cooler.use = true →
      (greenLightIsGreen w inp.green).1 = true →
      ∀ f, inp.snsr.fts? = some f → w.item.onf.OffGoal f.value) :
    ∃ s, MirrorAt s (controlInit w inp) (controlInit w' inp.mirror) ∧
      ((controlInit w inp).item.state.ignoresR = false →
        s = (controlInit w inp).item.state_r.mirror) := by
  obtain ⟨hg, h₁⟩ := h.greenLight inp.green
  obtain ⟨hgs, -, hgh, hgc⟩ := greenLightIsGreen_frame w inp.green
  have hgoal : (greenLightIsGreen w inp.green).2.item.goal = w.item.goal := by
    unfold greenLightIsGreen
    dsimp only
    split_ifs <;> rfl
  have hn : inp.mirror.snsr.fts?.isNone = inp.snsr.fts?.isNone := by
    cases hf : inp.snsr <;> simp [ControlInput.mirror, hf, Reply.neg, Reply.fts?]
  have hd : greenLightIsGreen w' inp.mirror.green = greenLightIsGreen w' inp.green := rfl
  unfold controlInit
  dsimp only
  rw [hd, hg, hn]
  split_ifs with hgreen hnone
  · exact ⟨r, h₁, fun hr => by rw [hgs, hs] at hr; cases hr⟩
  · refine ⟨r, h₁.readSensor inp.snsr, fun hr => ?_⟩
    have hst : (readSensor (greenLightIsGreen w inp.green).2 inp.snsr).item.state = .regInit :=
      hgs.trans hs
    rw [hst] at hr
    cases hr
  · obtain ⟨f, hf⟩ : ∃ f, inp.snsr.fts? = some f := by
      cases hf : inp.snsr.fts? with
      | none => simp [hf] at hnone
      | some f => exact ⟨f, rfl⟩
    refine (h₁.readSensor inp.snsr).initDone (p := (greenLightIsGreen w inp.green).2.item.sensor)
      (by rw [ha]; rfl) (by rw [ha, hf]; rfl) fun hh hc => ?_
    have hne := ht (hgh ▸ hh) (hgc ▸ hc) (by simpa using hgreen) f hf
    simpa [RegOnfHC.OffGoal, RegPIDOnfHC.onf, readSensor, readSensorFTS, hf, hgoal] using hne

/-- One call of the control function and its mirror. -/
theorem control_mirror [BEq R] {a b : RegPIDOnfHC R} {inp : ControlInput R}
    (hm : Mirrors a b) (hn : NamesEM a) (hi : InitReads a (.control inp)) :
    ∃ v v' s, regpidonfhcControl ⟨a, []⟩ inp = some v ∧
      regpidonfhcControl ⟨b, []⟩ inp.mirror = some v' ∧
      (Symmetric a (.control inp) →
        MirrorAt s v v' ∧ (v.item.state.ignoresR = false → s = v.item.state_r.mirror)) ∧
      (¬Symmetric a (.control inp) → v'.item.output ≠ v.item.output) := by
  have h : MirrorAt b.state_r ⟨a, []⟩ ⟨b, []⟩ := ⟨hm.item, List.Perm.nil⟩
  have hst : b.state = a.state := by rw [hm.item]; rfl
  -- outside `REG_BUSY` the step is mirrored
  have hne (hs : a.state ≠ .regBusy) : Symmetric a (.control inp) := fun hb => absurd hb hs
  unfold regpidonfhcControl
  dsimp only
  rw [hst]
  split
  · rename_i hs
    obtain ⟨ha, ht⟩ := hi hs
    have hg := (greenLight_onf ⟨a, []⟩ inp.green).1
    obtain ⟨s, hv, hr⟩ := init_mirror h hs ha fun hh hc hgr => ht hs hh hc (hg.symm.trans hgr)
    exact ⟨_, _, s, rfl, rfl, fun _ => ⟨hv, hr⟩, fun hk => absurd (hne (by simp [hs])) hk⟩
  · rename_i hs
    obtain ⟨n, hn⟩ := hn (Or.inl hs)
    have hrn : b.state_r = n.other.state := by
      rw [hm.state_r (by simp [StateReg.ignoresR, hs]), hn, EMName.state_mirror]
    rw [hrn] at h
    obtain ⟨v, v', m, hv, hv', hr, hk, hk'⟩ := h.busy hn inp
    have hsym : Symmetric a (.control inp) ↔ (inp.snsr.fts?.isSome = true →
        PidKnown { a with sensor := readSensorFTS a.sensor inp.snsr } n inp) := by
      refine ⟨fun hc hf => hc hs hf n hn, fun hc _ hf k hk => ?_⟩
      obtain rfl : n = k := EMName.state_inj.mp (hn.symm.trans hk)
      exact hc hf
    rw [hsym]
    exact ⟨v, v', m.other.state, hv, hv',
      fun hc => ⟨hk hc, fun _ => by rw [hr, EMName.state_mirror]⟩, hk'⟩
  · rename_i hs
    refine ⟨_, _, b.state_r, rfl, rfl, fun _ => ⟨h.inSecure inp, fun _ => ?_⟩,
      fun hk => absurd (hne (by simp [hs])) hk⟩
    rw [hm.state_r (by simp [StateReg.ignoresR, hs])]
    simp [controlSecure]
  · rename_i hs
    exact ⟨_, _, .regOff, rfl, rfl,
      fun _ => ⟨h.inDisable, fun hs => by simp [controlDisable, StateReg.ignoresR] at hs⟩,
      fun hk => absurd (hne (by simp [hs])) hk⟩
  · rename_i hs
    exact ⟨_, _, b.state_r, rfl, rfl, fun _ => ⟨h, hm.state_r⟩,
      fun hk => absurd (hne (by simp [hs])) hk⟩
  · exact ⟨_, _, b.state_r, rfl, rfl,
      fun _ => ⟨h.upd fun _ => rfl, fun hs => by simp [StateReg.ignoresR] at hs⟩,
      fun hk => absurd (hne (by assumption)) hk⟩

/-- A step and its mirror, from any state that names a mechanism while it regulates: they give
mirrored states and messages exactly under the condition. -/
theorem regpidonfhc_symmetric [BEq R] {a b : RegPIDOnfHC R} {i : Input R} (hm : Mirrors a b)
    (hn : NamesEM a) (hi : InitReads a i) :
    ∃ a' o b' o', step a i = some (a', o) ∧ step b i.mirror = some (b', o') ∧
      ((Mirrors a' b' ∧ o'.Perm (o.map Request.mirror)) ↔ Symmetric a i) := by
  have hfields {a' b' : RegPIDOnfHC R} (h : Mirrors a' b') :
      b'.output = a'.output ∧ b'.state = a'.state := by
    constructor <;> rw [h.item] <;> rfl
  cases i with
  | control inp =>
    obtain ⟨v, v', s, hv, hv', hk, hne⟩ := control_mirror hm hn hi
    refine ⟨v.item, v.sent, v'.item, v'.sent, by simp [step, hv], by simp [step, Input.mirror, hv'],
      fun h => ?_, fun hc => ?_⟩
    · by_contra hc
      exact hne hc (hfields h.1).1
    · obtain ⟨hs, hr⟩ := hk hc
      exact ⟨⟨by rw [hs.item], fun hu => by rw [hs.state_r, hr hu]⟩, hs.sent⟩
  | op o =>
    have h : MirrorAt b.state_r ⟨a, []⟩ ⟨b, []⟩ := ⟨hm.item, List.Perm.nil⟩
    refine ⟨_, _, _, _, rfl, rfl, fun hs => ?_, fun hc => ?_⟩
    · by_contra hc
      exact op_mirror_ne h hm.state_r hc (hfields hs.1).2
    · have h' := op_mirror h hm.state_r hc
      obtain ⟨hr, hs⟩ := op_states ⟨a, []⟩ o
      refine ⟨⟨by rw [h'.item], fun hu => ?_⟩, h'.sent⟩
      rw [h'.state_r, hr]
      refine hm.state_r ?_
      rcases hs with hs | hs
      · exact hs ▸ hu
      · rw [hu] at hs
        cases hs

end

/-- A program that cools, with its mechanisms in the modes `heater` and `cooler`. -/
def exampleBusy (heater cooler : StateReg) : RegPIDOnfHC ℚ :=
  let peer : Peer := ⟨⟨0x7f000001, 49178⟩⟩
  let never : Timespec := ⟨0, 0⟩
  let em (id : ℤ) (pid : PidMode) (mode : StateReg) : RegPIDOnfHCEM ℚ :=
    { em := ⟨id, id, peer, 0, 1000⟩, delta := 5
      pid := ⟨10, -20, 1, 1, 1, 0, never, false, pid⟩, output := 0, mode := mode, use := true }
  let sensor (id : ℤ) : SensorFTS ℚ := ⟨id, id, peer, ⟨0, 0, never, 0⟩⟩
  { sensor := sensor 1, heater := em 1 .heater heater, cooler := em 2 .cooler cooler
    goal := 250, change_gap := ⟨1800, 0⟩
    secure_out := ⟨0, false, never, 0, 0, ⟨never, false⟩, false, 0⟩
    green_light := ⟨sensor 0, 1, false⟩
    state := .regBusy, state_r := .regCooler, state_onf := .regWait
    output := 0, snsrf_count := 0, tmr := ⟨never, false⟩ }

/-- The mirror of a step that cools by PID heats by PID. -/
theorem regpidonfhc_symmetric_example :
    let a := exampleBusy .regModePid .regModePid
    let now : Timespec := ⟨2, 0⟩
    let inp : ControlInput ℚ :=
      { green := .timeout, snsr := .value ⟨0x7f000001, 49178⟩ ⟨1, 260, now, 1⟩
        snsrAgain := .timeout, gapFirst := now, gapNow := now, secFirst := now, secNow := now
        pidNow := now }
    ∃ a' o b' o', step a (.control inp) = some (a', o) ∧
      step a.mirror (.control inp.mirror) = some (b', o') ∧ Mirrors a' b' ∧
      o'.Perm (o.map Request.mirror) := by
  intro a now inp
  have hn : NamesEM a := fun _ => ⟨.cooler, rfl⟩
  have hmode (m : EMName) : (a.em m).pid.mode ≠ .other := by cases m <;> decide
  have hs : Symmetric a (.control inp) := fun _ _ n _ _ hk => absurd hk (hmode _)
  obtain ⟨a', o, b', o', h, h', hk⟩ := regpidonfhc_symmetric (i := .control inp)
    (⟨rfl, fun _ => rfl⟩ : Mirrors a a.mirror) hn (fun hi => absurd hi (by decide))
  exact ⟨a', o, b', o', h, h', hk.mpr hs⟩

/-- With the heater in PID mode, a new delta of the on-off cooler at work leaves `REG_BUSY` as it
is; in the mirror a new delta of the heater re-initialises. -/
theorem regpidonfhc_asymmetric :
    let a := exampleBusy .regModePid .regModeOnf
    NamesEM a ∧ ∃ a' o b' o', step a (.op (.setCoolerDelta 7)) = some (a', o) ∧
      step a.mirror (.op (.setHeaterDelta 7)) = some (b', o') ∧
      a'.state = .regBusy ∧ b'.state = .regInit ∧ ¬Mirrors a' b' := by
  refine ⟨fun _ => ⟨.cooler, rfl⟩, _, _, _, _, rfl, rfl, rfl, rfl, fun h => ?_⟩
  have hs := congrArg RegPIDOnfHC.state h.item
  cases hs

end Regpidonfhc

end Regonf
