import Regonf.RegonfhcOutputs
import Regonf.Regpidonfhc

/-! The on-off part of the regulator with PID: what is left of it when the PID data and the
modes are forgotten. Every part of `regpidonfhc_control` that does not look at them does to it
what the part of `regonfhc_control` does. -/
namespace Regonf

variable {R : Type*}

def RegPIDOnfHCEM.onf (e : RegPIDOnfHCEM R) : RegOnfHCEM R := ⟨e.em, e.delta, e.output, e.use⟩

def RegPIDOnfHC.onf (item : RegPIDOnfHC R) : RegOnfHC R :=
  { sensor := item.sensor, heater := item.heater.onf, cooler := item.cooler.onf
    goal := item.goal, change_gap := item.change_gap, secure_out := item.secure_out
    green_light := item.green_light, state := item.state, state_r := item.state_r
    state_onf := item.state_onf, output := item.output, snsrf_count := item.snsrf_count
    tmr := item.tmr }

/-- The mode and the PID data of each mechanism. -/
def RegPIDOnfHC.pids (item : RegPIDOnfHC R) (n : EMName) : StateReg × PID R :=
  ((item.em n).mode, (item.em n).pid)

/-- A regulator is its on-off part with the modes and the PID data. -/
theorem RegPIDOnfHC.ext_onf {a b : RegPIDOnfHC R} (ho : a.onf = b.onf)
    (hp : ∀ n, a.pids n = b.pids n) : a = b := by
  have hh := hp .heater
  have hc := hp .cooler
  rcases a with ⟨_, ⟨_, _, _, _, _, _⟩, ⟨_, _, _, _, _, _⟩, _, _, _, _, _, _, _, _, _, _⟩
  rcases b with ⟨_, ⟨_, _, _, _, _, _⟩, ⟨_, _, _, _, _, _⟩, _, _, _, _, _, _, _, _, _, _⟩
  simp only [RegPIDOnfHC.pids, RegPIDOnfHC.em, Prod.mk.injEq] at hh hc
  simp only [RegPIDOnfHC.onf, RegPIDOnfHCEM.onf, RegOnfHC.mk.injEq, RegOnfHCEM.mk.injEq] at ho
  simp_all

namespace Regpidonfhc

def Wire.onf (w : Wire R) : Regonf.Wire R := ⟨w.item.onf, w.sent⟩

theorem onf_upd {w : Wire R} {f : RegPIDOnfHC R → RegPIDOnfHC R} {g : RegOnfHC R → RegOnfHC R}
    (h : ∀ i, (f i).onf = g i.onf) : (w.upd f).onf = w.onf.upd g := by
  simp only [Wire.onf, Wire.upd, Regonf.Wire.upd, h]

theorem controlEM_of_use {w : Wire R} {n : EMName} (hu : (w.item.em n).use = true) (v : R) :
    controlEM w n v =
      { item := w.item.setEM n { w.item.em n with
          em := acpSetEMFloat (w.item.em n).em v, output := v }
        sent := w.sent ++ [.setFloat n v (w.item.em n).em.peer.addr] } := by
  simp only [controlEM, hu, ↓reduceIte]

theorem controlEM_of_not_use {w : Wire R} {n : EMName} (hu : (w.item.em n).use = false)
    (v : R) : controlEM w n v = w := by
  simp only [controlEM, hu, Bool.false_eq_true, ↓reduceIte]

@[simp] theorem Wire.upd_item (w : Wire R) (f : RegPIDOnfHC R → RegPIDOnfHC R) :
    (w.upd f).item = f w.item := rfl

@[simp] theorem Wire.upd_sent (w : Wire R) (f : RegPIDOnfHC R → RegPIDOnfHC R) :
    (w.upd f).sent = w.sent := rfl

@[simp] theorem controlEM_frame (w : Wire R) (n : EMName) (v : R) :
    (controlEM w n v).item.sensor = w.item.sensor ∧
    (controlEM w n v).item.goal = w.item.goal ∧
    (controlEM w n v).item.secure_out = w.item.secure_out ∧
    (controlEM w n v).item.state = w.item.state ∧
    (controlEM w n v).item.state_r = w.item.state_r ∧
    (controlEM w n v).item.output = w.item.output := by
  cases hu : (w.item.em n).use with
  | true =>
    rw [controlEM_of_use hu]
    cases n <;> exact ⟨rfl, rfl, rfl, rfl, rfl, rfl⟩
  | false =>
    rw [controlEM_of_not_use hu]
    exact ⟨rfl, rfl, rfl, rfl, rfl, rfl⟩

@[simp] theorem controlEM_use (w : Wire R) (n : EMName) (v : R) :
    (controlEM w n v).item.heater.use = w.item.heater.use ∧
      (controlEM w n v).item.cooler.use = w.item.cooler.use := by
  cases hu : (w.item.em n).use with
  | true =>
    rw [controlEM_of_use hu]
    cases n <;> exact ⟨rfl, rfl⟩
  | false =>
    rw [controlEM_of_not_use hu]
    exact ⟨rfl, rfl⟩

theorem controlEM_onf (w : Wire R) (n : EMName) (v : R) :
    (controlEM w n v).onf = Regonf.controlEM w.onf n v := by
  have hw : (w.onf.item.em n).use = (w.item.em n).use := by cases n <;> rfl
  cases hu : (w.item.em n).use with
  | true =>
    rw [controlEM_of_use hu, Regonf.controlEM_of_use (hw.trans hu)]
    cases n <;> rfl
  | false => rw [controlEM_of_not_use hu, Regonf.controlEM_of_not_use (hw.trans hu)]

@[simp] theorem controlEM_pids (w : Wire R) (n : EMName) (v : R) :
    (controlEM w n v).item.pids = w.item.pids := by
  cases hu : (w.item.em n).use with
  | true =>
    rw [controlEM_of_use hu]
    funext m
    cases n <;> cases m <;> rfl
  | false => rw [controlEM_of_not_use hu]

theorem both_pids (w : Wire R) (a b : R) :
    (controlEM (controlEM w .heater a) .cooler b).item.pids = w.item.pids := by
  rw [controlEM_pids, controlEM_pids]

theorem readSensor_onf (w : Wire R) (r : Reply R) :
    (readSensor w r).onf = Regonf.readSensor w.onf r := rfl

theorem greenLight_onf [BEq R] (w : Wire R) (r : Reply R) :
    (greenLightIsGreen w r).1 = (Regonf.greenLightIsGreen w.onf r).1 ∧
      (greenLightIsGreen w r).2.onf = (Regonf.greenLightIsGreen w.onf r).2 ∧
      (greenLightIsGreen w r).2.item.pids = w.item.pids := by
  unfold greenLightIsGreen Regonf.greenLightIsGreen
  dsimp only [Wire.onf, RegPIDOnfHC.onf]
  split_ifs <;> exact ⟨rfl, rfl, rfl⟩

theorem busySecure_onf (w : Wire R) (inp : ControlInput R) :
    (busySecure w inp).onf = Regonf.busySecure w.onf inp.toControlInput := rfl

theorem controlSecure_onf (w : Wire R) (inp : ControlInput R) :
    (controlSecure w inp).onf = Regonf.controlSecure w.onf inp.toControlInput := by
  unfold controlSecure Regonf.controlSecure
  dsimp only
  rw [← controlEM_onf, ← controlEM_onf]
  rfl

section
variable [Zero R]

theorem busyFailed_onf (w : Wire R) : (busyFailed w).onf = Regonf.busyFailed w.onf := by
  unfold busyFailed Regonf.busyFailed
  dsimp only
  rw [← controlEM_onf, ← controlEM_onf]
  change Wire.onf (if w.item.snsrf_count > _ then _ else _) =
    if w.item.snsrf_count > _ then _ else _
  split_ifs <;> rfl

theorem busyFailed_pids (w : Wire R) : (busyFailed w).item.pids = w.item.pids := by
  unfold busyFailed
  dsimp only
  split_ifs
  · exact both_pids w 0 0
  · rfl

theorem controlDisable_onf (w : Wire R) :
    (controlDisable w).onf = Regonf.controlDisable w.onf := by
  unfold controlDisable Regonf.controlDisable
  dsimp only
  rw [← controlEM_onf, ← controlEM_onf]
  rfl

theorem controlDisable_pids (w : Wire R) : (controlDisable w).item.pids = w.item.pids := by
  refine Eq.trans ?_ (both_pids w 0 0)
  funext n
  cases n <;> rfl

/-- `REG_INIT` of the on-off regulator also names the heater. -/
theorem initReset_onf (w : Wire R) :
    (initReset w).onf =
      (Regonf.initReset w.onf).upd fun i => { i with state_r := w.item.state_r } := by
  have hr : Regonf.initReset w.onf =
      ((Regonf.controlEM (Regonf.controlEM (w.onf.upd fun i =>
        { i with tmr := { i.tmr with ready := false } }) .heater 0) .cooler 0).upd fun i =>
        { i with state_r := .regHeater }).upd fun i =>
          { i with output := 0, snsrf_count := 0, state_onf := .regWait, state := .regBusy } := by
    rw [← controlEM_setR, ← controlEM_setR]
    rfl
  have ho : w.onf.upd (fun i => { i with tmr := { i.tmr with ready := false } }) =
      (w.upd fun i => { i with tmr := { i.tmr with ready := false } }).onf := rfl
  have hs : w.item.state_r = (controlEM (controlEM (w.upd fun i =>
      { i with tmr := { i.tmr with ready := false } }) .heater 0) .cooler 0).onf.item.state_r := by
    simp only [controlEM_onf, Regonf.controlEM_frame]
    rfl
  rw [hr, ho, hs, ← controlEM_onf, ← controlEM_onf]
  rfl

theorem initReset_mode (w : Wire R) (n : EMName) :
    ((initReset w).item.em n).mode = (w.item.em n).mode := by
  have hp := both_pids (w.upd fun i => { i with tmr := { i.tmr with ready := false } }) 0 0
  refine Eq.trans ?_ (congrArg Prod.fst (congrFun hp n) : _ = (w.item.em n).mode)
  cases n <;> rfl

omit [Zero R] in
/-- A read that gives the result of the one before changes nothing. -/
theorem readSensorFTS_again (p : SensorFTS R) {q : Reply R} (hf : q.fts?.isSome = true) :
    readSensorFTS (readSensorFTS p q) q = readSensorFTS p q := by
  cases q with
  | value src f => rfl
  | timeout => cases hf
  | refused src => cases hf

/-- The end of `REG_INIT` when the second read gives what the first gave: the choice is that of
the on-off regulator. -/
theorem controlInitDone_choice [LT R] [DecidableLT R] {w : Wire R} {inp : ControlInput R}
    {p : SensorFTS R} (hs : w.item.sensor = readSensorFTS p inp.snsrAgain)
    (hf : inp.snsrAgain.fts?.isSome = true) :
    (controlInitDone w inp).item =
      (match initChoice (initReset w).item.onf with
        | some n => { (initReset w).item with state_r := n.state }
        | none => { (initReset w).item with state := .regDisable }) ∧
      (controlInitDone w inp).sent = (initReset w).sent ++
        if (initReset w).item.heater.use && (initReset w).item.cooler.use then
          [.getFTS .sensor w.item.sensor.peer.addr] else [] := by
  have hsensor : (initReset w).item.sensor = w.item.sensor := by
    have hi := congrArg (fun q : Regonf.Wire R => q.item.sensor) (initReset_onf w)
    exact hi.trans (by simp [Regonf.initReset]; rfl)
  unfold controlInitDone
  generalize initReset w = u at *
  have hread : (readSensor u inp.snsrAgain).item = u.item := by
    simp only [readSensor, hsensor, hs, readSensorFTS_again p hf]
    rw [← hs, ← hsensor]
  have hsent : (readSensor u inp.snsrAgain).sent =
      u.sent ++ [.getFTS .sensor w.item.sensor.peer.addr] := by
    simp only [readSensor, hsensor]
  have hh : u.item.onf.heater.use = u.item.heater.use := rfl
  have hc : u.item.onf.cooler.use = u.item.cooler.use := rfl
  dsimp only
  unfold initChoice
  rw [hh, hc]
  rcases Bool.eq_false_or_eq_true u.item.heater.use with h₁ | h₁ <;>
    rcases Bool.eq_false_or_eq_true u.item.cooler.use with h₂ | h₂
  · have hb : (u.item.heater.use && u.item.cooler.use) = true := by rw [h₁, h₂]; rfl
    simp only [hb, ↓reduceIte, hf, ← hsent]
    have hg : (u.item.onf.sensor.value.value > u.item.onf.goal) =
        (u.item.sensor.value.value > u.item.goal) := rfl
    refine ⟨?_, rfl⟩
    simp only [Wire.upd, hread, hg]
    split_ifs <;> rfl
  all_goals simp [h₁, h₂, Wire.upd, EMName.state]

theorem setEMMode_onf (w : Wire R) (value : String) :
    (regpidonfhcSetEMMode w value).onf = regonfhcSetEMMode w.onf value := by
  unfold regpidonfhcSetEMMode regonfhcSetEMMode
  dsimp only
  rw [← controlEM_onf, ← controlEM_onf, ← controlEM_onf]
  split_ifs <;> rfl

theorem setEMMode_pids (w : Wire R) (value : String) :
    (regpidonfhcSetEMMode w value).item.pids = w.item.pids := by
  unfold regpidonfhcSetEMMode
  dsimp only
  split_ifs
  · refine Eq.trans ?_ (controlEM_pids w .heater 0)
    funext n
    cases n <;> rfl
  · refine Eq.trans ?_ (controlEM_pids w .cooler 0)
    funext n
    cases n <;> rfl
  · funext n
    cases n <;> rfl
  · refine Eq.trans ?_ (both_pids w 0 0)
    funext n
    cases n <;> rfl

section busy
variable [LT R] [DecidableLT R] [Add R] [Sub R]

omit [Zero R] in
theorem thresholds_onf (item : RegPIDOnfHC R) (n : EMName) :
    Regonf.valIsOut item.onf n = valIsOut item n ∧
      Regonf.valIsLow item.onf n = valIsLow item n := by
  cases n <;> exact ⟨rfl, rfl⟩

/-- The handover check looks at the mode only to tell whether the mechanism is done. -/
theorem busyChange_onf {w : Wire R} {n : EMName}
    (hv : valueIsOut w.item n = Regonf.valIsOut w.onf.item n) (inp : ControlInput R) :
    (busyChange w n inp).onf = Regonf.busyChange w.onf n inp.toControlInput := by
  have hu : (w.onf.item.em n.other).use = (w.item.em n.other).use := by cases n <;> rfl
  have hg : w.onf.item.change_gap = w.item.change_gap := rfl
  have ht : w.onf.item.tmr = w.item.tmr := rfl
  unfold busyChange Regonf.busyChange
  dsimp only
  rw [hv, hu, hg, ht]
  split_ifs
  · exact controlEM_onf _ n 0
  all_goals rfl

theorem busyChange_pids (w : Wire R) (n : EMName) (inp : ControlInput R) :
    (busyChange w n inp).item.pids = w.item.pids := by
  unfold busyChange
  dsimp only
  split_ifs
  · rw [controlEM_pids]
    rfl
  all_goals rfl

theorem busyOnf_pids (item : RegPIDOnfHC R) (n : EMName) :
    (busyOnf item n).pids = item.pids := by
  unfold busyOnf
  split <;> rfl

theorem busyOnf_onf (item : RegPIDOnfHC R) (n : EMName) :
    (busyOnf item n).onf = Regonf.busyOnf item.onf n := by
  have hs : item.onf.state_onf = item.state_onf := rfl
  unfold busyOnf Regonf.busyOnf
  rw [hs, (thresholds_onf item n).1, (thresholds_onf item n).2]
  cases item.state_onf <;> cases n <;> rfl

variable [Mul R] [Div R] [IntCast R]

/-- The output and the commands of a mechanism that works on-off. -/
theorem busyDrive_onf {w : Wire R} {m : EMName} (hm : (w.item.em m).mode = .regModeOnf)
    (now : Timespec) :
    (busyDrive w m now).onf = Regonf.busyDrive w.onf m ∧
      (busyDrive w m now).item.pids = w.item.pids := by
  have ho : busyOutput w.item m now = busyOnf w.item m := by simp only [busyOutput, hm]
  have hw : (w.upd fun i => busyOutput i m now).onf = w.onf.upd fun i => Regonf.busyOnf i m := by
    simp only [Wire.upd, Wire.onf, Regonf.Wire.upd, ho, busyOnf_onf]
  have hout : (w.upd fun i => busyOutput i m now).item.output =
      (w.upd fun i => busyOutput i m now).onf.item.output := rfl
  unfold busyDrive Regonf.busyDrive
  dsimp only
  refine ⟨?_, ?_⟩
  · rw [controlEM_onf, controlEM_onf, hout, hw]
  · rw [controlEM_pids, controlEM_pids, Wire.upd, ho, busyOnf_pids]

theorem busyRegulate_onf {w : Wire R} (hm : ∀ n, (w.item.em n).mode = .regModeOnf)
    (inp : ControlInput R) :
    (busyRegulate w inp).map Wire.onf = Regonf.busyRegulate w.onf inp.toControlInput ∧
      ∀ v, busyRegulate w inp = some v → v.item.pids = w.item.pids := by
  have hr : w.onf.item.state_r = w.item.state_r := rfl
  unfold busyRegulate Regonf.busyRegulate
  rw [hr]
  cases EMName.ofState? w.item.state_r with
  | none => exact ⟨rfl, by rintro v ⟨⟩⟩
  | some n =>
    have hv : valueIsOut w.item n = Regonf.valIsOut w.onf.item n := by
      simp only [valueIsOut, hm n]
      exact (thresholds_onf w.item n).1.symm
    have hc := busyChange_onf hv inp
    have hcr : (busyChange w n inp).item.state_r = (busyChange w n inp).onf.item.state_r := rfl
    obtain ⟨hd, hp⟩ := busyDrive_onf (w := busyChange w n inp)
      (m := (EMName.ofState? (busyChange w n inp).item.state_r).getD n)
      ((congrArg Prod.fst (congrFun (busyChange_pids w n inp) _)).trans (hm _)) inp.pidNow
    dsimp only
    refine ⟨?_, ?_⟩
    · rw [Option.map_some, busySecure_onf, hd, hcr, hc]
    · rintro v ⟨⟩
      exact hp.trans (busyChange_pids w n inp)

/-- With both mechanisms on-off, `REG_BUSY` is that of the on-off regulator. -/
theorem controlBusy_onf {w : Wire R} (hm : ∀ n, (w.item.em n).mode = .regModeOnf)
    (inp : ControlInput R) :
    (controlBusy w inp).map Wire.onf = Regonf.controlBusy w.onf inp.toControlInput ∧
      ∀ v, controlBusy w inp = some v → v.item.pids = w.item.pids := by
  unfold controlBusy Regonf.controlBusy
  dsimp only
  cases inp.snsr.fts?.isSome with
  | false =>
    simp only [Bool.false_eq_true, ↓reduceIte, Option.map_some, busyFailed_onf]
    exact ⟨rfl, by rintro v ⟨⟩; exact busyFailed_pids _⟩
  | true =>
    simp only [↓reduceIte]
    exact busyRegulate_onf (w := (readSensor w inp.snsr).upd fun i => { i with snsrf_count := 0 })
      (fun n => by cases n <;> [exact hm .heater; exact hm .cooler]) inp

end busy

end

end Regpidonfhc

end Regonf
