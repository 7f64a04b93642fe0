import Regonf.Regonfhc

/-! What the parts of `regonfhc_control` leave alone, and the cases of a handover. -/
namespace Regonf

variable {R : Type*}

@[simp] theorem EMName.other_ne (n : EMName) : n.other ≠ n := by cases n <;> decide

@[simp] theorem EMName.ne_other (n : EMName) : n ≠ n.other := by cases n <;> decide

@[simp] theorem EMName.other_other (n : EMName) : n.other.other = n := by cases n <;> rfl

theorem EMName.eq_or_eq_other (m n : EMName) : m = n ∨ m = n.other := by
  cases m <;> cases n <;> decide

@[simp] theorem EMName.state_inj {m n : EMName} : m.state = n.state ↔ m = n := by
  cases m <;> cases n <;> decide

@[simp] theorem EMName.ofState?_state (n : EMName) : EMName.ofState? n.state = some n := by
  cases n <;> rfl

theorem EMName.ofState?_eq_some {s : StateReg} {n : EMName} :
    EMName.ofState? s = some n ↔ s = n.state := by
  cases s <;> cases n <;> decide

@[simp] theorem Wire.upd_item (w : Wire R) (f : RegOnfHC R → RegOnfHC R) :
    (w.upd f).item = f w.item := rfl

@[simp] theorem Wire.upd_sent (w : Wire R) (f : RegOnfHC R → RegOnfHC R) :
    (w.upd f).sent = w.sent := rfl

theorem em_setEM (item : RegOnfHC R) (n m : EMName) (e : RegOnfHCEM R) :
    (item.setEM n e).em m = if m = n then e else item.em m := by
  cases n <;> cases m <;> rfl

@[simp] theorem setEM_frame (item : RegOnfHC R) (n : EMName) (e : RegOnfHCEM R) :
    (item.setEM n e).sensor = item.sensor ∧ (item.setEM n e).goal = item.goal ∧
    (item.setEM n e).change_gap = item.change_gap ∧
    (item.setEM n e).secure_out = item.secure_out ∧
    (item.setEM n e).green_light = item.green_light ∧
    (item.setEM n e).state = item.state ∧ (item.setEM n e).state_r = item.state_r ∧
    (item.setEM n e).state_onf = item.state_onf ∧ (item.setEM n e).output = item.output ∧
    (item.setEM n e).snsrf_count = item.snsrf_count ∧ (item.setEM n e).tmr = item.tmr := by
  cases n <;> simp [RegOnfHC.setEM]

theorem controlEM_of_use {w : Wire R} {n : EMName} (hu : (w.item.em n).use = true) (v : R) :
    controlEM w n v =
      { item := w.item.setEM n { w.item.em n with
          em := acpSetEMFloat (w.item.em n).em v, output := v }
        sent := w.sent ++ [.setFloat n v (w.item.em n).em.peer.addr] } := by
  simp only [controlEM, hu, ↓reduceIte]

theorem controlEM_of_not_use {w : Wire R} {n : EMName} (hu : (w.item.em n).use = false)
    (v : R) : controlEM w n v = w := by
  simp only [controlEM, hu, Bool.false_eq_true, ↓reduceIte]

/-- `controlEM` touches nothing but the two mechanism records. -/
@[simp] theorem controlEM_frame (w : Wire R) (n : EMName) (v : R) :
    (controlEM w n v).item.sensor = w.item.sensor ∧
    (controlEM w n v).item.goal = w.item.goal ∧
    (controlEM w n v).item.change_gap = w.item.change_gap ∧
    (controlEM w n v).item.secure_out = w.item.secure_out ∧
    (controlEM w n v).item.green_light = w.item.green_light ∧
    (controlEM w n v).item.state = w.item.state ∧
    (controlEM w n v).item.state_r = w.item.state_r ∧
    (controlEM w n v).item.state_onf = w.item.state_onf ∧
    (controlEM w n v).item.output = w.item.output ∧
    (controlEM w n v).item.snsrf_count = w.item.snsrf_count ∧
    (controlEM w n v).item.tmr = w.item.tmr := by
  cases hu : (w.item.em n).use with
  | true => simp [controlEM_of_use hu]
  | false => simp [controlEM_of_not_use hu]

theorem controlEM_em_output (w : Wire R) (n m : EMName) (v : R) :
    ((controlEM w n v).item.em m).output =
      if m = n ∧ (w.item.em n).use = true then v else (w.item.em m).output := by
  cases hu : (w.item.em n).use with
  | true =>
    simp only [controlEM_of_use hu, em_setEM, and_true]
    split <;> rfl
  | false => simp [controlEM_of_not_use hu]

@[simp] theorem controlEM_em_frame (w : Wire R) (n m : EMName) (v : R) :
    ((controlEM w n v).item.em m).use = (w.item.em m).use ∧
    ((controlEM w n v).item.em m).delta = (w.item.em m).delta ∧
    ((controlEM w n v).item.em m).em.pwm_rsl = (w.item.em m).em.pwm_rsl ∧
    ((controlEM w n v).item.em m).em.peer = (w.item.em m).em.peer ∧
    ((controlEM w n v).item.em m).em.id = (w.item.em m).em.id ∧
    ((controlEM w n v).item.em m).em.remote_id = (w.item.em m).em.remote_id := by
  cases hu : (w.item.em n).use with
  | true =>
    simp only [controlEM_of_use hu, em_setEM]
    by_cases hm : m = n
    · subst hm
      simp [hu, acpSetEMFloat]
    · simp [hm]
  | false => simp [controlEM_of_not_use hu]

theorem controlEM_setR (w : Wire R) (r : StateReg) (n : EMName) (v : R) :
    controlEM (w.upd fun i => { i with state_r := r }) n v =
      (controlEM w n v).upd fun i => { i with state_r := r } := by
  have hw : ((w.upd fun i => { i with state_r := r }).item.em n).use = (w.item.em n).use := by
    cases n <;> rfl
  cases hu : (w.item.em n).use with
  | true =>
    rw [controlEM_of_use hu, controlEM_of_use (hw.trans hu)]
    cases n <;> rfl
  | false => rw [controlEM_of_not_use hu, controlEM_of_not_use (hw.trans hu)]

/-- The order of a command to the heater and one to the cooler shows on the wire only. -/
theorem controlEM_comm (w : Wire R) (a b : R) :
    (controlEM (controlEM w .cooler a) .heater b).item =
      (controlEM (controlEM w .heater b) .cooler a).item ∧
    (controlEM (controlEM w .cooler a) .heater b).sent.Perm
      (controlEM (controlEM w .heater b) .cooler a).sent := by
  cases hh : w.item.heater.use <;> cases hc : w.item.cooler.use <;>
    simp [controlEM, RegOnfHC.em, RegOnfHC.setEM, hh, hc]
  exact (List.Perm.swap _ _ _).append_left _

@[simp] theorem controlEM_heater_use (w : Wire R) (n : EMName) (v : R) :
    (controlEM w n v).item.heater.use = w.item.heater.use :=
  (controlEM_em_frame w n .heater v).1

@[simp] theorem controlEM_cooler_use (w : Wire R) (n : EMName) (v : R) :
    (controlEM w n v).item.cooler.use = w.item.cooler.use :=
  (controlEM_em_frame w n .cooler v).1

@[simp] theorem readSensor_em (w : Wire R) (r : Reply R) (n : EMName) :
    (readSensor w r).item.em n = w.item.em n := by cases n <;> rfl

@[simp] theorem readSensor_frame (w : Wire R) (r : Reply R) :
    (readSensor w r).item.goal = w.item.goal ∧
    (readSensor w r).item.change_gap = w.item.change_gap ∧
    (readSensor w r).item.secure_out = w.item.secure_out ∧
    (readSensor w r).item.green_light = w.item.green_light ∧
    (readSensor w r).item.state = w.item.state ∧
    (readSensor w r).item.state_r = w.item.state_r ∧
    (readSensor w r).item.state_onf = w.item.state_onf ∧
    (readSensor w r).item.output = w.item.output ∧
    (readSensor w r).item.snsrf_count = w.item.snsrf_count ∧
    (readSensor w r).item.tmr = w.item.tmr := by
  simp [readSensor]

@[simp] theorem busySecure_frame (w : Wire R) (inp : ControlInput R) :
    (busySecure w inp).sent = w.sent ∧
    (busySecure w inp).item.sensor = w.item.sensor ∧
    (busySecure w inp).item.goal = w.item.goal ∧
    (busySecure w inp).item.change_gap = w.item.change_gap ∧
    (busySecure w inp).item.green_light = w.item.green_light ∧
    (busySecure w inp).item.state_r = w.item.state_r ∧
    (busySecure w inp).item.state_onf = w.item.state_onf ∧
    (busySecure w inp).item.output = w.item.output ∧
    (busySecure w inp).item.snsrf_count = w.item.snsrf_count ∧
    (busySecure w inp).item.tmr = w.item.tmr := by
  simp [busySecure]

@[simp] theorem busySecure_em (w : Wire R) (inp : ControlInput R) (n : EMName) :
    (busySecure w inp).item.em n = w.item.em n := by cases n <;> rfl

/-- Everything but the two sensors survives the reads of `REG_INIT`. -/
theorem greenLightIsGreen_item [BEq R] (w : Wire R) (r : Reply R) :
    (greenLightIsGreen w r).2.item = { w.item with
      green_light := (greenLightIsGreen w r).2.item.green_light } := by
  unfold greenLightIsGreen
  dsimp only
  split <;> rfl

section
variable [LT R] [DecidableLT R]

theorem initChoice_use {item : RegOnfHC R} {n : EMName} (h : initChoice item = some n) :
    (item.em n).use = true := by
  unfold initChoice at h
  split_ifs at h <;> simp_all <;> subst h <;> simp_all [RegOnfHC.em]

theorem initChoice_congr {item item' : RegOnfHC R} (hs : item'.sensor = item.sensor)
    (hg : item'.goal = item.goal) (hu : ∀ n, (item'.em n).use = (item.em n).use) :
    initChoice item' = initChoice item := by
  have hh := hu .heater
  have hc := hu .cooler
  simp only [RegOnfHC.em] at hh hc
  simp only [initChoice, hs, hg, hh, hc]

variable [Zero R] [Add R] [Sub R]

/-- The three outcomes of the handover check. -/
theorem busyChange_cases (w : Wire R) (n : EMName) (inp : ControlInput R) :
    let t := tonTs w.item.change_gap w.item.tmr inp.gapFirst inp.gapNow
    (valIsOut w.item n = true ∧ (w.item.em n.other).use = true ∧ t.1 = true ∧
      busyChange w n inp =
        controlEM (w.upd fun i => { i with tmr := t.2, state_r := n.other.state }) n 0) ∨
    (valIsOut w.item n = true ∧ (w.item.em n.other).use = true ∧ t.1 = false ∧
      busyChange w n inp = w.upd fun i => { i with tmr := t.2 }) ∨
    (¬(valIsOut w.item n = true ∧ (w.item.em n.other).use = true) ∧
      busyChange w n inp = w.upd fun i => { i with tmr := { i.tmr with ready := false } }) := by
  intro t
  unfold busyChange
  by_cases hv : valIsOut w.item n = true ∧ (w.item.em n.other).use = true
  · cases ht : t.1 with
    | true => exact Or.inl ⟨hv.1, hv.2, rfl, by simp [hv, t, ht, Wire.upd]⟩
    | false => exact Or.inr (Or.inl ⟨hv.1, hv.2, rfl, by simp [hv, t, ht, Wire.upd]⟩)
  · exact Or.inr (Or.inr ⟨hv, by simp only [Bool.and_eq_true, hv, ↓reduceIte]⟩)

omit [Zero R] in
/-- The two thresholds depend on the reading, the goal and the deltas only. -/
theorem thresholds_congr {item item' : RegOnfHC R} (hs : item'.sensor = item.sensor)
    (hg : item'.goal = item.goal) (hd : ∀ n, (item'.em n).delta = (item.em n).delta)
    (n : EMName) :
    valIsOut item' n = valIsOut item n ∧ valIsLow item' n = valIsLow item n := by
  have hh := hd .heater
  have hc := hd .cooler
  simp only [RegOnfHC.em] at hh hc
  cases n <;> simp only [valIsOut, valIsLow, hs, hg, hh, hc, and_self]

theorem busyOnf_em (item : RegOnfHC R) (n m : EMName) :
    (busyOnf item n).em m = item.em m := by
  unfold busyOnf
  split <;> cases m <;> rfl

@[simp] theorem busyOnf_frame (item : RegOnfHC R) (n : EMName) :
    (busyOnf item n).sensor = item.sensor ∧ (busyOnf item n).goal = item.goal ∧
    (busyOnf item n).change_gap = item.change_gap ∧
    (busyOnf item n).secure_out = item.secure_out ∧
    (busyOnf item n).green_light = item.green_light ∧
    (busyOnf item n).state = item.state ∧ (busyOnf item n).state_r = item.state_r ∧
    (busyOnf item n).snsrf_count = item.snsrf_count ∧ (busyOnf item n).tmr = item.tmr := by
  unfold busyOnf
  split <;> simp only [and_self]

theorem busyOnf_wait {item : RegOnfHC R} (n : EMName) (ho : item.state_onf = .regWait) :
    (busyOnf item n).output = 0 ∧
      (busyOnf item n).state_onf = if valIsLow item n then .regDo else .regWait := by
  simp only [busyOnf, ho, and_self]

theorem busyOnf_do {item : RegOnfHC R} (n : EMName) (ho : item.state_onf = .regDo) :
    (busyOnf item n).output = (item.em n).em.pwm_rsl ∧
      (busyOnf item n).state_onf = if valIsOut item n then .regWait else .regDo := by
  simp only [busyOnf, ho, and_self]

/-- The handover check keeps everything but `state_r`, the gap timer and the output of the
mechanism that it switches off. -/
@[simp] theorem busyChange_frame (w : Wire R) (n : EMName) (inp : ControlInput R) :
    (busyChange w n inp).item.sensor = w.item.sensor ∧
    (busyChange w n inp).item.goal = w.item.goal ∧
    (busyChange w n inp).item.change_gap = w.item.change_gap ∧
    (busyChange w n inp).item.secure_out = w.item.secure_out ∧
    (busyChange w n inp).item.green_light = w.item.green_light ∧
    (busyChange w n inp).item.state = w.item.state ∧
    (busyChange w n inp).item.state_onf = w.item.state_onf ∧
    (busyChange w n inp).item.output = w.item.output ∧
    (busyChange w n inp).item.snsrf_count = w.item.snsrf_count := by
  rcases busyChange_cases w n inp with ⟨-, -, -, he⟩ | ⟨-, -, -, he⟩ | ⟨-, he⟩ <;>
    simp [he]

@[simp] theorem busyChange_em_frame (w : Wire R) (n m : EMName) (inp : ControlInput R) :
    ((busyChange w n inp).item.em m).use = (w.item.em m).use ∧
    ((busyChange w n inp).item.em m).delta = (w.item.em m).delta ∧
    ((busyChange w n inp).item.em m).em.pwm_rsl = (w.item.em m).em.pwm_rsl ∧
    ((busyChange w n inp).item.em m).em.peer = (w.item.em m).em.peer ∧
    ((busyChange w n inp).item.em m).em.id = (w.item.em m).em.id ∧
    ((busyChange w n inp).item.em m).em.remote_id = (w.item.em m).em.remote_id := by
  rcases busyChange_cases w n inp with ⟨-, -, -, he⟩ | ⟨-, -, -, he⟩ | ⟨-, he⟩ <;> rw [he]
  · simp only [controlEM_em_frame]
    cases m <;> exact ⟨rfl, rfl, rfl, rfl, rfl, rfl⟩
  · cases m <;> exact ⟨rfl, rfl, rfl, rfl, rfl, rfl⟩
  · cases m <;> exact ⟨rfl, rfl, rfl, rfl, rfl, rfl⟩

/-- `state_r` after the handover check. -/
theorem busyChange_state_r (w : Wire R) {n : EMName} (hn : w.item.state_r = n.state)
    (inp : ControlInput R) :
    (busyChange w n inp).item.state_r = n.state ∨
      (busyChange w n inp).item.state_r = n.other.state ∧
        (w.item.em n.other).use = true := by
  rcases busyChange_cases w n inp with ⟨-, hu, -, he⟩ | ⟨-, -, -, he⟩ | ⟨-, he⟩
  · exact Or.inr ⟨by simp [he], hu⟩
  · exact Or.inl (by simp [he, hn])
  · exact Or.inl (by simp [he, hn])

@[simp] theorem busyDrive_frame (w : Wire R) (m : EMName) :
    (busyDrive w m).item.sensor = w.item.sensor ∧
    (busyDrive w m).item.goal = w.item.goal ∧
    (busyDrive w m).item.change_gap = w.item.change_gap ∧
    (busyDrive w m).item.secure_out = w.item.secure_out ∧
    (busyDrive w m).item.green_light = w.item.green_light ∧
    (busyDrive w m).item.state = w.item.state ∧
    (busyDrive w m).item.state_r = w.item.state_r ∧
    (busyDrive w m).item.state_onf = (busyOnf w.item m).state_onf ∧
    (busyDrive w m).item.output = (busyOnf w.item m).output ∧
    (busyDrive w m).item.snsrf_count = w.item.snsrf_count ∧
    (busyDrive w m).item.tmr = w.item.tmr := by
  simp [busyDrive]

@[simp] theorem busyDrive_em_frame (w : Wire R) (m n : EMName) :
    ((busyDrive w m).item.em n).use = (w.item.em n).use ∧
    ((busyDrive w m).item.em n).delta = (w.item.em n).delta ∧
    ((busyDrive w m).item.em n).em.pwm_rsl = (w.item.em n).em.pwm_rsl ∧
    ((busyDrive w m).item.em n).em.peer = (w.item.em n).em.peer ∧
    ((busyDrive w m).item.em n).em.id = (w.item.em n).em.id ∧
    ((busyDrive w m).item.em n).em.remote_id = (w.item.em n).em.remote_id := by
  simp [busyDrive, busyOnf_em]

theorem busyRegulate_of_state_r {w : Wire R} {n m : EMName} (hn : w.item.state_r = n.state)
    {inp : ControlInput R} (hm : (busyChange w n inp).item.state_r = m.state) :
    busyRegulate w inp = some (busySecure (busyDrive (busyChange w n inp) m) inp) := by
  simp only [busyRegulate, hn, hm, EMName.ofState?_state, Option.getD_some]

/-- With `state_r` naming a mechanism, `REG_BUSY` is defined: it hands over or not, and then
drives the mechanism that `state_r` names. -/
theorem busyRegulate_spec {w : Wire R} {n : EMName} (hn : w.item.state_r = n.state)
    (inp : ControlInput R) :
    ∃ m, (busyChange w n inp).item.state_r = m.state ∧
      (m = n ∨ m = n.other ∧ (w.item.em n.other).use = true) ∧
      busyRegulate w inp = some (busySecure (busyDrive (busyChange w n inp) m) inp) := by
  rcases busyChange_state_r w hn inp with hr | ⟨hr, hu⟩
  · exact ⟨n, hr, Or.inl rfl, busyRegulate_of_state_r hn hr⟩
  · exact ⟨n.other, hr, Or.inr ⟨rfl, hu⟩, busyRegulate_of_state_r hn hr⟩

end

end Regonf
