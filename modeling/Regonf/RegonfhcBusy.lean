import Regonf.Lib.Controller
import Regonf.RegonfhcFrame

/-! The regulating states. `state_r` names a mechanism in every reachable `REG_BUSY` and
`REG_SECURE`, so no step is undefined; the mechanism is in use as long as no command
takes it out of use in `REG_SECURE`. -/
namespace Regonf

variable {R : Type*}

/-- The states in which `state_r` is not used: it is set again before it is read. -/
def StateReg.ignoresR (s : StateReg) : Bool := s = .regInit || s = .regDisable || s = .regOff

def Regulating (item : RegOnfHC R) : Prop := item.state = .regBusy ∨ item.state = .regSecure

/-- While regulating, `state_r` names a mechanism and `state_onf` is on or off. -/
def NamesEM (item : RegOnfHC R) : Prop :=
  Regulating item → (∃ n : EMName, item.state_r = n.state) ∧
    (item.state_onf = .regDo ∨ item.state_onf = .regWait)

/-- While regulating, the mechanism that `state_r` names is in use. -/
def UsesEM (item : RegOnfHC R) : Prop :=
  Regulating item → ∀ n : EMName, item.state_r = n.state → (item.em n).use = true

theorem NamesEM.of_not {item : RegOnfHC R} (h : ¬Regulating item) : NamesEM item :=
  fun hr => absurd hr h

theorem UsesEM.of_not {item : RegOnfHC R} (h : ¬Regulating item) : UsesEM item :=
  fun hr => absurd hr h

/-- Neither invariant looks beyond these fields. -/
theorem NamesEM.frame {item item' : RegOnfHC R} (h : NamesEM item)
    (hs : item'.state = item.state) (hr : item'.state_r = item.state_r)
    (ho : item'.state_onf = item.state_onf) : NamesEM item' := by
  unfold NamesEM Regulating at *
  rw [hs, hr, ho]
  exact h

theorem UsesEM.frame {item item' : RegOnfHC R} (h : UsesEM item)
    (hs : item'.state = item.state) (hr : item'.state_r = item.state_r)
    (hu : ∀ n, (item'.em n).use = (item.em n).use) : UsesEM item' := by
  unfold UsesEM Regulating at *
  rw [hs, hr]
  intro h' n hn
  rw [hu]
  exact h h' n hn

theorem Loaded.not_regulating [Zero R] {item : RegOnfHC R} (hl : Loaded item) :
    ¬Regulating item := by
  rcases hl.state with h | h <;> simp [Regulating, h]

/-- Whether the mode string puts the mechanism in use. -/
def modeUses (value : String) (n : EMName) : Bool :=
  if value = REG_EM_MODE_COOLER_STR then n = .cooler
  else if value = REG_EM_MODE_HEATER_STR then n = .heater
  else value = REG_EM_MODE_BOTH_STR

section
variable [Zero R]

theorem setEMMode_use (w : Wire R) (value : String) (n : EMName) :
    ((regonfhcSetEMMode w value).item.em n).use = modeUses value n := by
  unfold regonfhcSetEMMode modeUses
  dsimp only
  split_ifs <;> cases n <;> simp_all [RegOnfHC.setUse, RegOnfHC.em]

theorem setEMMode_state (w : Wire R) (value : String) :
    (regonfhcSetEMMode w value).item.state =
      (if w.item.state = .regBusy then .regInit else w.item.state) ∧
    (regonfhcSetEMMode w value).item.state_r = w.item.state_r ∧
    (regonfhcSetEMMode w value).item.state_onf = w.item.state_onf := by
  unfold regonfhcSetEMMode
  dsimp only
  split_ifs <;> simp_all [RegOnfHC.setUse]

theorem busyFailed_frame (w : Wire R) :
    ((busyFailed w).item.state = w.item.state ∨ (busyFailed w).item.state = .regInit) ∧
    (busyFailed w).item.state_r = w.item.state_r ∧
    (busyFailed w).item.state_onf = w.item.state_onf ∧
    ∀ n, ((busyFailed w).item.em n).use = (w.item.em n).use := by
  unfold busyFailed
  dsimp only
  split_ifs
  · refine ⟨Or.inr rfl, by simp, by simp, fun n => ?_⟩
    cases n <;> simp [RegOnfHC.em]
  · refine ⟨Or.inl rfl, rfl, rfl, fun n => ?_⟩
    cases n <;> rfl

theorem initReset_use (w : Wire R) (n : EMName) :
    ((initReset w).item.em n).use = (w.item.em n).use := by
  unfold initReset
  cases n <;> simp [RegOnfHC.em]

theorem op_names {w : Wire R} (hi : NamesEM w.item) (o : Op R) :
    NamesEM (applyOp w o).item := by
  cases o with
  | enable => exact NamesEM.of_not (by simp [Regulating, applyOp, regonfhcEnable])
  | disable => exact NamesEM.of_not (by simp [Regulating, applyOp, regonfhcDisable])
  | setCoolerDelta v =>
    simp only [applyOp, regonfhcSetCoolerDelta, Wire.upd_item]
    split_ifs
    · exact NamesEM.of_not (by simp [Regulating])
    · exact hi
  | setHeaterDelta v =>
    simp only [applyOp, regonfhcSetHeaterDelta, Wire.upd_item]
    split_ifs
    · exact NamesEM.of_not (by simp [Regulating])
    · exact hi
  | setEMMode v =>
    -- from `REG_BUSY` the command starts over; in any other state nothing is touched
    obtain ⟨hs, hr, ho⟩ := setEMMode_state w v
    by_cases hb : w.item.state = .regBusy
    · exact NamesEM.of_not (by simp [Regulating, applyOp, hs, hb])
    · exact hi.frame (by simpa [applyOp, hb] using hs) hr ho
  | setHeaterPower v =>
    exact hi.frame (by simp [applyOp, regonfhcSetHeaterPower])
      (by simp [applyOp, regonfhcSetHeaterPower]) (by simp [applyOp, regonfhcSetHeaterPower])
  | setCoolerPower v =>
    exact hi.frame (by simp [applyOp, regonfhcSetCoolerPower])
      (by simp [applyOp, regonfhcSetCoolerPower]) (by simp [applyOp, regonfhcSetCoolerPower])
  | turnOff => exact NamesEM.of_not (by simp [Regulating, applyOp, regonfhcTurnOff])
  | _ => exact hi

/-- An operation that leaves the program in `REG_BUSY` has found it there, and keeps what the
regulation goes by. -/
theorem op_busy {w : Wire R} {o : Op R} (hb : (applyOp w o).item.state = .regBusy) :
    w.item.state = .regBusy ∧ (applyOp w o).item.state_r = w.item.state_r ∧
      (applyOp w o).item.state_onf = w.item.state_onf ∧ (applyOp w o).item.tmr = w.item.tmr := by
  cases o with
  | enable => simp [applyOp, regonfhcEnable] at hb
  | disable => simp [applyOp, regonfhcDisable] at hb
  | setCoolerDelta v =>
    simp only [applyOp, regonfhcSetCoolerDelta, Wire.upd_item] at hb
    split_ifs at hb
    exact ⟨hb, rfl, rfl, rfl⟩
  | setHeaterDelta v =>
    simp only [applyOp, regonfhcSetHeaterDelta, Wire.upd_item] at hb
    split_ifs at hb
    exact ⟨hb, rfl, rfl, rfl⟩
  | setEMMode v =>
    rw [applyOp, (setEMMode_state w v).1] at hb
    split_ifs at hb with hb'
    exact absurd hb hb'
  | setHeaterPower v => simpa [applyOp, regonfhcSetHeaterPower] using hb
  | setCoolerPower v => simpa [applyOp, regonfhcSetCoolerPower] using hb
  | turnOff => simp [applyOp, regonfhcTurnOff] at hb
  | _ => exact ⟨hb, rfl, rfl, rfl⟩

/-- An operation that stays in a state that uses `state_r` keeps `state_r`. -/
theorem op_state_r (w : Wire R) {o : Op R} (hs : (applyOp w o).item.state.ignoresR = false) :
    w.item.state.ignoresR = false ∧ (applyOp w o).item.state_r = w.item.state_r := by
  cases o with
  | enable => simp [applyOp, regonfhcEnable, StateReg.ignoresR] at hs
  | disable => simp [applyOp, regonfhcDisable, StateReg.ignoresR] at hs
  | setCoolerDelta v =>
    simp only [applyOp, regonfhcSetCoolerDelta, Wire.upd_item] at hs ⊢
    split_ifs at hs
    · simp [StateReg.ignoresR] at hs
    · exact ⟨hs, trivial⟩
  | setHeaterDelta v =>
    simp only [applyOp, regonfhcSetHeaterDelta, Wire.upd_item] at hs ⊢
    split_ifs at hs
    · simp [StateReg.ignoresR] at hs
    · exact ⟨hs, trivial⟩
  | setEMMode v =>
    obtain ⟨hs', hr', -⟩ := setEMMode_state w v
    rw [applyOp, hs'] at hs
    split_ifs at hs
    · simp [StateReg.ignoresR] at hs
    · exact ⟨hs, hr'⟩
  | setHeaterPower v =>
    exact ⟨by simpa [applyOp, regonfhcSetHeaterPower] using hs,
      by simp [applyOp, regonfhcSetHeaterPower]⟩
  | setCoolerPower v =>
    exact ⟨by simpa [applyOp, regonfhcSetCoolerPower] using hs,
      by simp [applyOp, regonfhcSetCoolerPower]⟩
  | turnOff => simp [applyOp, regonfhcTurnOff, StateReg.ignoresR] at hs
  | _ => exact ⟨hs, rfl⟩

/-- The command, taken in this state, leaves the mechanism that `state_r` names in use
while the program is in `REG_SECURE`. Only a change of the EM mode can fail to. -/
def KeepsActive (item : RegOnfHC R) : Input R → Prop
  | .op (.setEMMode v) =>
    item.state = .regSecure → ∀ n : EMName, item.state_r = n.state → modeUses v n = true
  | _ => True

theorem op_uses {w : Wire R} (hi : UsesEM w.item) {o : Op R}
    (hk : KeepsActive w.item (.op o)) : UsesEM (applyOp w o).item := by
  cases o with
  | enable => exact UsesEM.of_not (by simp [Regulating, applyOp, regonfhcEnable])
  | disable => exact UsesEM.of_not (by simp [Regulating, applyOp, regonfhcDisable])
  | setCoolerDelta v =>
    simp only [applyOp, regonfhcSetCoolerDelta, Wire.upd_item]
    split_ifs
    · exact UsesEM.of_not (by simp [Regulating])
    · exact hi.frame rfl rfl fun n => by cases n <;> rfl
  | setHeaterDelta v =>
    simp only [applyOp, regonfhcSetHeaterDelta, Wire.upd_item]
    split_ifs
    · exact UsesEM.of_not (by simp [Regulating])
    · exact hi.frame rfl rfl fun n => by cases n <;> rfl
  | setEMMode v =>
    obtain ⟨hs, hr, -⟩ := setEMMode_state w v
    by_cases hb : w.item.state = .regBusy
    · exact UsesEM.of_not (by simp [Regulating, applyOp, hs, hb])
    -- it stays in `REG_SECURE` with the new flags, where the condition speaks
    · intro hreg n hn
      rw [if_neg hb] at hs
      have hsec : w.item.state = .regSecure := by
        simpa [Regulating, applyOp, hs, hb] using hreg
      exact (setEMMode_use w v n).trans (hk hsec n (hr.symm.trans hn))
  | setHeaterPower v =>
    exact hi.frame (by simp [applyOp, regonfhcSetHeaterPower])
      (by simp [applyOp, regonfhcSetHeaterPower])
      fun n => by cases n <;> simp [applyOp, regonfhcSetHeaterPower, RegOnfHC.em]
  | setCoolerPower v =>
    exact hi.frame (by simp [applyOp, regonfhcSetCoolerPower])
      (by simp [applyOp, regonfhcSetCoolerPower])
      fun n => by cases n <;> simp [applyOp, regonfhcSetCoolerPower, RegOnfHC.em]
  | turnOff => exact UsesEM.of_not (by simp [Regulating, applyOp, regonfhcTurnOff])
  | _ => exact hi.frame rfl rfl fun n => by cases n <;> rfl

section init
variable [LT R] [DecidableLT R]

/-- What the end of `REG_INIT` establishes. -/
theorem controlInitDone_spec (w : Wire R) :
    (∃ n, initChoice (initReset w).item = some n ∧
      (controlInitDone w).item.state = .regBusy ∧ (controlInitDone w).item.state_r = n.state ∧
      (controlInitDone w).item.state_onf = .regWait ∧
      ((controlInitDone w).item.em n).use = true) ∨
    (controlInitDone w).item.state = .regDisable := by
  unfold controlInitDone
  dsimp only
  rcases hc : initChoice (initReset w).item with _ | n
  · exact Or.inr rfl
  · refine Or.inl ⟨n, rfl, rfl, rfl, rfl, ?_⟩
    have hu := initChoice_use hc
    cases n <;> exact hu

/-- `REG_INIT` either waits, changing nothing but the sensors, or completes. -/
theorem controlInit_cases [BEq R] (w : Wire R) (inp : ControlInput R) :
    (∃ g s, (controlInit w inp).item = { w.item with green_light := g, sensor := s }) ∨
    ((greenLightIsGreen w inp.green).1 = true ∧ inp.snsr.fts?.isSome = true ∧
      controlInit w inp =
        controlInitDone (readSensor (greenLightIsGreen w inp.green).2 inp.snsr)) := by
  unfold controlInit
  dsimp only
  have hg := greenLightIsGreen_item w inp.green
  split_ifs with h₁ h₂
  · exact Or.inl ⟨_, w.item.sensor, hg⟩
  · refine Or.inl ⟨(greenLightIsGreen w inp.green).2.item.green_light,
      readSensorFTS (greenLightIsGreen w inp.green).2.item.sensor inp.snsr, ?_⟩
    simp only [readSensor]
    rw [hg]
  · refine Or.inr ⟨by simpa using h₁, ?_, rfl⟩
    cases hf : inp.snsr.fts? with
    | none => simp [hf] at h₂
    | some f => rfl

end init

variable [Add R] [Sub R] [LT R] [DecidableLT R]

/-- A `REG_BUSY` step from a state that names a mechanism. -/
theorem controlBusy_spec {w : Wire R} {n : EMName} (hn : w.item.state_r = n.state)
    (inp : ControlInput R) :
    (inp.snsr.fts?.isSome = true ∧ ∃ w₁ : Wire R, ∃ m,
      w₁ = (readSensor w inp.snsr).upd (fun i => { i with snsrf_count := 0 }) ∧
      (busyChange w₁ n inp).item.state_r = m.state ∧
      (m = n ∨ m = n.other ∧ (w.item.em n.other).use = true) ∧
      controlBusy w inp = some (busySecure (busyDrive (busyChange w₁ n inp) m) inp)) ∨
    (inp.snsr.fts?.isSome = false ∧
      controlBusy w inp = some (busyFailed (readSensor w inp.snsr))) := by
  unfold controlBusy
  dsimp only
  cases hf : inp.snsr.fts?.isSome with
  | true =>
    obtain ⟨m, hr, hm, he⟩ := busyRegulate_spec
      (w := (readSensor w inp.snsr).upd fun i => { i with snsrf_count := 0 }) (n := n)
      (by simpa using hn) inp
    refine Or.inl ⟨rfl, _, m, rfl, hr, ?_, by simpa using he⟩
    exact hm.imp id fun h => ⟨h.1, by cases n <;> exact h.2⟩
  | false => exact Or.inr ⟨rfl, by simp⟩

theorem busyOnf_state_onf {item : RegOnfHC R} (n : EMName)
    (ho : item.state_onf = .regDo ∨ item.state_onf = .regWait) :
    (busyOnf item n).state_onf = .regDo ∨ (busyOnf item n).state_onf = .regWait := by
  rcases ho with ho | ho <;> simp only [busyOnf, ho] <;> split_ifs <;> simp

variable [BEq R]

/-- What one control step does, by the state that it is taken in. In `busy`, `w₁` is the
regulator after the reading, and `m` is the mechanism that is driven. -/
inductive ControlStep (w : Wire R) (inp : ControlInput R) : Wire R → Prop where
  | init (hst : w.item.state = .regInit) : ControlStep w inp (controlInit w inp)
  | busy {n m : EMName} {w₁ : Wire R} (hst : w.item.state = .regBusy)
      (hok : inp.snsr.fts?.isSome = true) (hn : w.item.state_r = n.state)
      (hw₁ : w₁ = (readSensor w inp.snsr).upd fun i => { i with snsrf_count := 0 })
      (hr : (busyChange w₁ n inp).item.state_r = m.state)
      (hm : m = n ∨ m = n.other ∧ (w.item.em n.other).use = true) :
      ControlStep w inp (busySecure (busyDrive (busyChange w₁ n inp) m) inp)
  | failed (hst : w.item.state = .regBusy) (hno : inp.snsr.fts?.isSome = false) :
      ControlStep w inp (busyFailed (readSensor w inp.snsr))
  | secure (hst : w.item.state = .regSecure) : ControlStep w inp (controlSecure w inp)
  | disable (hst : w.item.state = .regDisable) : ControlStep w inp (controlDisable w)
  | off (hst : w.item.state = .regOff) : ControlStep w inp w
  | other (hst : w.item.state ∉ [.regInit, .regBusy, .regSecure, .regDisable, .regOff]) :
      ControlStep w inp (w.upd fun i => { i with state := .regOff })

theorem control_cases {w w' : Wire R} {inp : ControlInput R}
    (hw : regonfhcControl w inp = some w') : ControlStep w inp w' := by
  unfold regonfhcControl at hw
  split at hw
  · cases hw
    exact .init (by assumption)
  · rename_i hst
    cases hf : inp.snsr.fts?.isSome with
    | false =>
      have hfail : controlBusy w inp = some (busyFailed (readSensor w inp.snsr)) := by
        simp [controlBusy, hf]
      rw [hfail] at hw
      cases hw
      exact .failed hst hf
    | true =>
      -- without a mechanism in `state_r` the step is undefined
      obtain ⟨n, hn⟩ : ∃ n : EMName, w.item.state_r = n.state := by
        cases hr : EMName.ofState? w.item.state_r with
        | some n => exact ⟨n, EMName.ofState?_eq_some.mp hr⟩
        | none => simp [controlBusy, busyRegulate, readSensor, hf, hr] at hw
      rcases controlBusy_spec hn inp with ⟨-, w₁, m, hw₁, hr, hm, he⟩ | ⟨hno, -⟩
      · rw [he] at hw
        cases hw
        exact .busy hst hf hn hw₁ hr hm
      · rw [hf] at hno
        cases hno
  · cases hw
    exact .secure (by assumption)
  · cases hw
    exact .disable (by assumption)
  · cases hw
    exact .off (by assumption)
  · cases hw
    refine .other ?_
    simp_all

theorem control_names {w w' : Wire R} {inp : ControlInput R} (hi : NamesEM w.item)
    (hw : regonfhcControl w inp = some w') : NamesEM w'.item := by
  cases control_cases hw with
  | init hst =>
    rcases controlInit_cases w inp with ⟨g, s, he⟩ | ⟨-, -, he⟩
    · rw [he]
      exact hi
    · rw [he]
      rcases controlInitDone_spec (readSensor (greenLightIsGreen w inp.green).2 inp.snsr) with
        ⟨n, -, hs, hr, ho, -⟩ | hd
      · exact fun _ => ⟨⟨n, hr⟩, Or.inr ho⟩
      · exact NamesEM.of_not (by simp [Regulating, hd])
  | @busy n m w₁ hst _ _ hw₁ hr _ =>
    have ho := (hi (Or.inl hst)).2
    have ho₁ : (busyChange w₁ n inp).item.state_onf = .regDo ∨
        (busyChange w₁ n inp).item.state_onf = .regWait := by simpa [hw₁] using ho
    refine fun _ => ⟨⟨m, by simpa using hr⟩, ?_⟩
    simpa using busyOnf_state_onf m ho₁
  | failed hst =>
    obtain ⟨⟨n, hn⟩, ho⟩ := hi (Or.inl hst)
    obtain ⟨-, hr, ho', -⟩ := busyFailed_frame (readSensor w inp.snsr)
    exact fun _ => ⟨⟨n, by simpa [hr] using hn⟩, by simpa [ho'] using ho⟩
  | secure hst =>
    intro _
    simpa [controlSecure] using hi (Or.inr hst)
  | disable => exact NamesEM.of_not (by simp [Regulating, controlDisable])
  | off => exact hi
  | other => exact NamesEM.of_not (by simp [Regulating])

theorem control_uses {w w' : Wire R} {inp : ControlInput R} (hi : UsesEM w.item)
    (hw : regonfhcControl w inp = some w') : UsesEM w'.item := by
  cases control_cases hw with
  | init hst =>
    rcases controlInit_cases w inp with ⟨g, s, he⟩ | ⟨-, -, he⟩
    · rw [he]
      exact hi.frame rfl rfl fun n => by cases n <;> rfl
    · rw [he]
      -- the mechanism that is chosen is in use
      rcases controlInitDone_spec (readSensor (greenLightIsGreen w inp.green).2 inp.snsr) with
        ⟨n, -, -, hr, -, hu⟩ | hd
      · intro _ k hk
        obtain rfl := EMName.state_inj.mp (hr.symm.trans hk)
        exact hu
      · exact UsesEM.of_not (by simp [Regulating, hd])
  | @busy n m w₁ hst _ hn hw₁ hr hm =>
    -- a handover goes to a mechanism in use
    have hun := hi (Or.inl hst) n hn
    intro _ k hk
    obtain rfl : m = k := EMName.state_inj.mp (by simpa [hr] using hk)
    have hem : w₁.item.em m = w.item.em m := by rw [hw₁]; cases m <;> rfl
    simp only [busySecure_em, busyDrive_em_frame, busyChange_em_frame, hem]
    rcases hm with rfl | ⟨rfl, hu⟩
    · exact hun
    · exact hu
  | failed hst =>
    obtain ⟨-, hr, -, hu⟩ := busyFailed_frame (readSensor w inp.snsr)
    intro _ k hk
    rw [hu, readSensor_em]
    exact hi (Or.inl hst) k (by simpa [hr] using hk)
  | secure hst =>
    intro _ k hk
    have hu := hi (Or.inr hst) k (by simpa [controlSecure] using hk)
    cases k <;> simpa [controlSecure, RegOnfHC.em] using hu
  | disable => exact UsesEM.of_not (by simp [Regulating, controlDisable])
  | off => exact hi
  | other => exact UsesEM.of_not (by simp [Regulating])

theorem step_names {item item' : RegOnfHC R} {i : Input R} {out : List (Request R)}
    (hi : NamesEM item) (hs : step item i = some (item', out)) : NamesEM item' := by
  cases i with
  | control inp =>
    rw [step, Option.map_eq_some_iff] at hs
    obtain ⟨w, hw, he⟩ := hs
    cases he
    exact control_names hi hw
  | op o =>
    cases hs
    exact op_names hi o

theorem step_uses {item item' : RegOnfHC R} {i : Input R} {out : List (Request R)}
    (hi : UsesEM item) (hk : KeepsActive item i)
    (hs : step item i = some (item', out)) : UsesEM item' := by
  cases i with
  | control inp =>
    rw [step, Option.map_eq_some_iff] at hs
    obtain ⟨w, hw, he⟩ := hs
    cases he
    exact control_uses hi hw
  | op o =>
    cases hs
    exact op_uses (w := ⟨item, []⟩) hi hk

/-- No reachable step dereferences a null `reg_em`. -/
theorem step_isSome {item : RegOnfHC R} (hi : NamesEM item) (i : Input R) :
    ∃ item' out, step item i = some (item', out) := by
  cases i with
  | op o => exact ⟨_, _, rfl⟩
  | control inp =>
    have hw : ∃ w', regonfhcControl ⟨item, []⟩ inp = some w' := by
      unfold regonfhcControl
      split
      -- only `REG_BUSY` can fail to be defined
      case h_2 hst =>
        obtain ⟨⟨n, hn⟩, -⟩ := hi (Or.inl hst)
        rcases controlBusy_spec (w := ⟨item, []⟩) hn inp with ⟨-, w₁, m, -, -, -, he⟩ | ⟨-, he⟩
        · exact ⟨_, he⟩
        · exact ⟨_, he⟩
      all_goals exact ⟨_, rfl⟩
    obtain ⟨w', hw⟩ := hw
    exact ⟨w'.item, w'.sent, by simp [step, hw]⟩

theorem run_isSome_of_names {item : RegOnfHC R} (hi : NamesEM item) (is : List (Input R)) :
    ∃ t out, Controller.run step item is = some (t, out) := by
  refine Controller.run_isSome (P := fun _ => True) (I := NamesEM) ?_ hi fun _ _ => trivial
  intro s i hs _
  obtain ⟨s', out, h⟩ := step_isSome hs i
  exact ⟨s', out, h, step_names hs h⟩

/-- Every run of a loaded program is defined. -/
theorem run_isSome {item : RegOnfHC R} (hl : Loaded item) (is : List (Input R)) :
    ∃ t out, Controller.run step item is = some (t, out) :=
  run_isSome_of_names (NamesEM.of_not hl.not_regulating) is

/-- In a run whose EM-mode changes in `REG_SECURE` keep the active mechanism in use, every
`REG_BUSY` state drives a mechanism that is in use. -/
theorem busy_drives_used_mechanism {item t : RegOnfHC R} {out : List (Request R)}
    {is : List (Input R)} (hl : Loaded item)
    (hk : Controller.Along step (fun s _ i => KeepsActive s i) item [] is)
    (hr : Controller.run step item is = some (t, out)) (hb : t.state = .regBusy) :
    (∃ n : EMName, t.state_r = n.state ∧ (t.em n).use = true) ∧
      (t.state_onf = .regDo ∨ t.state_onf = .regWait) := by
  have hinv : NamesEM t ∧ UsesEM t :=
    Controller.run_invariant_along (I := fun s _ => NamesEM s ∧ UsesEM s)
      (fun s h i s' o hi hc hs => ⟨step_names hi.1 hs, step_uses hi.2 hc hs⟩)
      ⟨NamesEM.of_not hl.not_regulating, UsesEM.of_not hl.not_regulating⟩ hk hr
  obtain ⟨⟨n, hn⟩, ho⟩ := hinv.1 (Or.inl hb)
  exact ⟨⟨n, hn, hinv.2 (Or.inl hb) n hn⟩, ho⟩

/-- The last theorem for a run in which the mode changes to cooler in `REG_SECURE`, which keeps the
cooler in use, and the next goal command takes the program back to `REG_BUSY`. -/
theorem busy_drives_used_mechanism_example :
    let prog := { exampleProg with
      secure_out := { exampleProg.secure_out with active := true } }
    let is := [exampleControl 0 (some 260), exampleControl 0 (some 260),
      exampleControl 1 (some 260), .op (.setEMMode "cooler"), .op .secureOutTouch,
      exampleControl 2 none]
    ∃ t out, Controller.run step prog is = some (t, out) ∧
      (∃ n : EMName, t.state_r = n.state ∧ (t.em n).use = true) ∧
      (t.state_onf = .regDo ∨ t.state_onf = .regWait) := by
  intro prog is
  have hl : Loaded prog := ⟨Or.inl rfl, rfl, rfl, rfl, rfl, rfl, rfl, rfl, rfl, rfl, rfl⟩
  -- at the change of the mode `state_r` names the cooler
  have hr : (Controller.run step prog (is.take 3)).map (fun r => r.1.state_r) =
      some .regCooler := by decide +kernel
  have hmode : ∀ n : EMName, StateReg.regCooler = n.state → modeUses "cooler" n = true := by
    intro n hn
    cases n
    · cases hn
    · decide
  have hk : Controller.Along step (fun s _ i => KeepsActive s i) prog [] is := by
    refine ⟨trivial, fun s₁ o₁ h₁ => ⟨trivial, fun s₂ o₂ h₂ => ⟨trivial, fun s₃ o₃ h₃ =>
      ⟨fun _ => ?_, fun _ _ _ => ⟨trivial, fun _ _ _ => ⟨trivial, fun _ _ _ => trivial⟩⟩⟩⟩⟩⟩
    have h : Controller.run step prog (is.take 3) = some (s₃, o₁ ++ (o₂ ++ (o₃ ++ []))) :=
      Controller.run_cons_some.mpr ⟨s₁, o₁, _, h₁, Controller.run_cons_some.mpr ⟨s₂, o₂, _, h₂,
        Controller.run_cons_some.mpr ⟨s₃, o₃, [], h₃, rfl, rfl⟩, rfl⟩, rfl⟩
    rw [h] at hr
    have hr : s₃.state_r = .regCooler := Option.some.inj hr
    rw [hr]
    exact hmode
  have hb : (Controller.run step prog is).map (fun r => r.1.state) = some .regBusy := by
    decide +kernel
  obtain ⟨⟨t, out⟩, hrun, hb⟩ := Option.map_eq_some_iff.mp hb
  exact ⟨t, out, hrun, busy_drives_used_mechanism hl hk hrun hb⟩

/-- `KeepsActive` is needed: the mode changes to cooler in `REG_SECURE`, and the next goal
command takes the program back to `REG_BUSY` with the heater. -/
theorem busy_drives_unused_mechanism :
    let prog := { exampleProg with
      secure_out := { exampleProg.secure_out with active := true } }
    let is := [exampleControl 0 (some 240), exampleControl 0 (some 240),
      exampleControl 1 (some 240), .op (.setEMMode "cooler"), .op .secureOutTouch,
      exampleControl 2 none]
    Loaded prog ∧ ∃ t out, Controller.run step prog is = some (t, out) ∧
      t.state = .regBusy ∧ t.state_r = .regHeater ∧ t.heater.use = false :=
  ⟨⟨Or.inl rfl, rfl, rfl, rfl, rfl, rfl, rfl, rfl, rfl, rfl, rfl⟩, _, _, rfl, rfl, rfl, rfl⟩

end

end Regonf
