import Regonf.RegonfhcUnsecured
import Regonf.RegpidonfhcNames

/-! What a step of the regulator with PID does to its on-off part, whatever the modes are. The modes
decide when a handover is due and which output is commanded, not to whom or in which order. -/
namespace Regonf.Regpidonfhc

variable {R : Type*}

/-- Neither of the two manual power commands. -/
def Input.automatic : Input R → Bool
  | .op (.setHeaterPower _) => false
  | .op (.setCoolerPower _) => false
  | _ => true

/-- The operation of the on-off regulator that does the same to the on-off part in every state. -/
def Op.onf? : Op R → Option (Regonf.Op R)
  | .enable => some .enable
  | .disable => some .disable
  | .setGoal v => some (.setGoal v)
  | .setChangeGap v => some (.setChangeGap v)
  | .setEMMode v => some (.setEMMode v)
  | .setHeaterPower v => some (.setHeaterPower v)
  | .setCoolerPower v => some (.setCoolerPower v)
  | .turnOff => some .turnOff
  | .secureOutTouch => some .secureOutTouch
  | _ => none

theorem Op.onf?_automatic {o : Op R} {o' : Regonf.Op R} (h : o.onf? = some o') :
    (Regonf.Input.op o').automatic = (Input.op o).automatic := by
  cases o <;> cases h <;> rfl

section
variable [Zero R]

theorem op_onf {w : Wire R} {o : Op R} {o' : Regonf.Op R} (h : o.onf? = some o') :
    (applyOp w o).onf = Regonf.applyOp w.onf o' := by
  cases o <;> cases h
  case setEMMode v => exact setEMMode_onf w v
  case setHeaterPower v =>
    simp only [applyOp, Regonf.applyOp, regpidonfhcSetHeaterPower, regonfhcSetHeaterPower,
      ← controlEM_onf]
    rfl
  case setCoolerPower v =>
    simp only [applyOp, Regonf.applyOp, regpidonfhcSetCoolerPower, regonfhcSetCoolerPower,
      ← controlEM_onf]
    rfl
  case turnOff =>
    simp only [applyOp, Regonf.applyOp, regpidonfhcTurnOff, regonfhcTurnOff, controlEM_onf]
    rfl
  all_goals rfl

/-- The setters of a delta, of a mode and of the PID data: at most they restart a program that
regulates. -/
theorem op_sets {w : Wire R} {o : Op R} (h : o.onf? = none) :
    ∃ dh dc s, (s = w.item.state ∨ w.item.state = .regBusy ∧ s = .regInit) ∧
      (applyOp w o).onf = w.onf.upd fun i =>
        { i with
          heater := { i.heater with delta := dh }
          cooler := { i.cooler with delta := dc }
          state := s } := by
  -- a setter restarts the program only if it regulates
  have hset (P : Prop) [Decidable P] (hp : P → w.item.state = .regBusy) :
      (if P then .regInit else w.item.state) = w.item.state ∨
        w.item.state = .regBusy ∧ (if P then StateReg.regInit else w.item.state) = .regInit := by
    by_cases h : P
    · exact Or.inr ⟨hp h, if_pos h⟩
    · exact Or.inl (if_neg h)
  have hmode (n : EMName) (v : String) : ∃ s,
      (s = w.item.state ∨ w.item.state = .regBusy ∧ s = .regInit) ∧
      (w.upd fun i => setMode i n v).onf = w.onf.upd fun i => { i with state := s } := by
    unfold setMode
    cases modeOfStr v with
    | none => exact ⟨_, Or.inl rfl, rfl⟩
    | some m =>
      refine ⟨_, hset (w.item.state = .regBusy ∧ w.item.state_r = n.state) And.left, ?_⟩
      cases n <;> rfl
  -- the setters of the PID data change nothing of the on-off part
  cases o <;> cases h <;> dsimp only [applyOp]
  case setCoolerDelta v => exact ⟨w.item.heater.delta, v, _, hset _ And.left, rfl⟩
  case setHeaterDelta v => exact ⟨v, w.item.cooler.delta, _, hset _ And.left, rfl⟩
  case setHeaterMode v =>
    obtain ⟨s, hs, he⟩ := hmode .heater v
    exact ⟨w.item.heater.delta, w.item.cooler.delta, s, hs, he⟩
  case setCoolerMode v =>
    obtain ⟨s, hs, he⟩ := hmode .cooler v
    exact ⟨w.item.heater.delta, w.item.cooler.delta, s, hs, he⟩
  all_goals exact ⟨w.item.heater.delta, w.item.cooler.delta, _, Or.inl rfl, rfl⟩

variable [LT R] [DecidableLT R]

/-- The end of `REG_INIT`: the reset, a second reading or none, and the choice. -/
theorem controlInitDone_cases (w : Wire R) (inp : ControlInput R) :
    ∃ sensor r s l, (s = .regBusy ∨ s = .regDisable) ∧
      (l = [] ∨ ∃ dst, l = [.getFTS .sensor dst]) ∧
      controlInitDone w inp =
        { item := { (initReset w).item with sensor := sensor, state_r := r, state := s }
          sent := (initReset w).sent ++ l } := by
  unfold controlInitDone
  have hs : (initReset w).item.state = .regBusy := rfl
  generalize initReset w = u at *
  rcases u with ⟨u, l⟩
  dsimp only at hs ⊢
  -- heater and cooler in use: their choice takes a second reading
  split_ifs
  · exact ⟨_, _, u.state, _, Or.inl hs, Or.inr ⟨_, rfl⟩, rfl⟩
  · exact ⟨_, u.state_r, u.state, _, Or.inl hs, Or.inr ⟨_, rfl⟩, rfl⟩
  · exact ⟨u.sensor, _, u.state, [], Or.inl hs, Or.inl rfl, by rw [List.append_nil]; rfl⟩
  · exact ⟨u.sensor, _, u.state, [], Or.inl hs, Or.inl rfl, by rw [List.append_nil]; rfl⟩
  · exact ⟨u.sensor, u.state_r, _, [], Or.inr rfl, Or.inl rfl, by rw [List.append_nil]; rfl⟩

section busy
variable [Add R] [Sub R]

/-- The three outcomes of the handover check. -/
theorem busyChange_cases (w : Wire R) (n : EMName) (inp : ControlInput R) :
    let t := tonTs w.item.change_gap w.item.tmr inp.gapFirst inp.gapNow
    (valueIsOut w.item n = true ∧ (w.item.em n.other).use = true ∧ t.1 = true ∧
      busyChange w n inp =
        controlEM (w.upd fun i => { i with tmr := t.2, state_r := n.other.state }) n 0) ∨
    (valueIsOut w.item n = true ∧ (w.item.em n.other).use = true ∧ t.1 = false ∧
      busyChange w n inp = w.upd fun i => { i with tmr := t.2 }) ∨
    (¬(valueIsOut w.item n = true ∧ (w.item.em n.other).use = true) ∧
      busyChange w n inp = w.upd fun i => { i with tmr := { i.tmr with ready := false } }) := by
  intro t
  unfold busyChange
  by_cases hv : valueIsOut w.item n = true ∧ (w.item.em n.other).use = true
  · cases ht : t.1 with
    | true => exact Or.inl ⟨hv.1, hv.2, rfl, by simp [hv, t, ht, Wire.upd]⟩
    | false => exact Or.inr (Or.inl ⟨hv.1, hv.2, rfl, by simp [hv, t, ht, Wire.upd]⟩)
  · exact Or.inr (Or.inr ⟨hv, by simp only [Bool.and_eq_true, hv, ↓reduceIte]⟩)

/-- The handover check looks at nothing but `state_r`, the gap timer and the mechanism that it
switches off. -/
@[simp] theorem busyChange_onf_frame (w : Wire R) (n : EMName) (inp : ControlInput R) :
    (busyChange w n inp).onf.item.state = w.onf.item.state ∧
    (busyChange w n inp).onf.item.secure_out = w.onf.item.secure_out ∧
    (busyChange w n inp).onf.item.change_gap = w.onf.item.change_gap ∧
    (busyChange w n inp).onf.item.snsrf_count = w.onf.item.snsrf_count ∧
    (busyChange w n inp).onf.item.state_onf = w.onf.item.state_onf := by
  rcases busyChange_cases w n inp with ⟨-, -, -, he⟩ | ⟨-, -, -, he⟩ | ⟨-, he⟩ <;> rw [he]
  · simp only [controlEM_onf, Regonf.controlEM_frame]
    exact ⟨rfl, rfl, rfl, rfl, rfl⟩
  · exact ⟨rfl, rfl, rfl, rfl, rfl⟩
  · exact ⟨rfl, rfl, rfl, rfl, rfl⟩

variable [Mul R] [Div R] [IntCast R]

/-- A new output changes the PID data of a mechanism, `state_onf` and `output`, no more. -/
theorem busyOutput_onf (item : RegPIDOnfHC R) (m : EMName) (now : Timespec) :
    (busyOutput item m now).onf =
      { item.onf with
        output := (busyOutput item m now).output
        state_onf := (busyOutput item m now).state_onf } := by
  unfold busyOutput
  split
  · cases m <;> rfl
  · unfold busyOnf
    split <;> rfl
  · rfl

/-- `REG_BUSY` commands the new output to `m`, and 0 to the other mechanism. -/
theorem busyDrive_onf_any (w : Wire R) (m : EMName) (now : Timespec) :
    let i := busyOutput w.item m now
    (busyDrive w m now).onf = Regonf.controlEM (Regonf.controlEM
      (w.onf.upd fun j => { j with output := i.output, state_onf := i.state_onf }) m i.output)
        m.other 0 := by
  intro i
  -- the PID data is not part of the on-off regulator
  have hw : (w.upd fun j => busyOutput j m now).onf =
      w.onf.upd fun j => { j with output := i.output, state_onf := i.state_onf } :=
    congrArg (Regonf.Wire.mk · w.sent) (busyOutput_onf w.item m now)
  unfold busyDrive
  dsimp only
  rw [controlEM_onf, controlEM_onf, hw]
  rfl

@[simp] theorem busyDrive_onf_frame (w : Wire R) (m : EMName) (now : Timespec) :
    (busyDrive w m now).onf.item.state = w.onf.item.state ∧
    (busyDrive w m now).onf.item.state_r = w.onf.item.state_r ∧
    (busyDrive w m now).onf.item.secure_out = w.onf.item.secure_out ∧
    (busyDrive w m now).onf.item.change_gap = w.onf.item.change_gap ∧
    (busyDrive w m now).onf.item.snsrf_count = w.onf.item.snsrf_count ∧
    (busyDrive w m now).onf.item.tmr = w.onf.item.tmr := by
  rw [busyDrive_onf_any]
  simp

variable [BEq R]

/-- What one control step does. Where it neither ends `REG_INIT` nor regulates, it is a step of the
on-off regulator that keeps the modes and the PID data. In `busy`, `w₁` is the regulator after the
reading, and `m` is the mechanism that is driven. -/
inductive ControlStep (w : Wire R) (inp : ControlInput R) : Wire R → Prop where
  | onf {w' : Wire R} (h : regonfhcControl w.onf inp.toControlInput = some w'.onf)
      (hp : w'.item.pids = w.item.pids) (hi : w.item.state = .regInit → w'.item.state = .regInit)
      (hb : w.item.state = .regBusy → inp.snsr.fts?.isSome = false) : ControlStep w inp w'
  | init (hst : w.item.state = .regInit) (hg : (greenLightIsGreen w inp.green).1 = true)
      (hok : inp.snsr.fts?.isSome = true) :
      ControlStep w inp
        (controlInitDone (readSensor (greenLightIsGreen w inp.green).2 inp.snsr) inp)
  | busy {n m : EMName} {w₁ : Wire R} (hst : w.item.state = .regBusy)
      (hok : inp.snsr.fts?.isSome = true) (hn : w.item.state_r = n.state)
      (hw₁ : w₁ = (readSensor w inp.snsr).upd fun i => { i with snsrf_count := 0 })
      (hr : (busyChange w₁ n inp).item.state_r = m.state) :
      ControlStep w inp (busySecure (busyDrive (busyChange w₁ n inp) m inp.pidNow) inp)

theorem controlInit_cases {w : Wire R} (inp : ControlInput R) (hst : w.item.state = .regInit) :
    ControlStep w inp (controlInit w inp) := by
  have hst' : w.onf.item.state = .regInit := hst
  obtain ⟨hg, hi, hp⟩ := greenLight_onf w inp.green
  have hgs : (greenLightIsGreen w inp.green).2.item.state = .regInit :=
    (greenLightIsGreen_frame w inp.green).1.trans hst
  unfold controlInit
  dsimp only
  split_ifs with h₁ h₂
  -- the light is not green: the step only asks for it
  · refine .onf ?_ hp (fun _ => hgs) fun hb => absurd (hst.symm.trans hb) (by decide)
    rw [hg] at h₁
    simp only [regonfhcControl, hst', Regonf.controlInit, h₁, ↓reduceIte, hi]
  · refine .onf ?_ hp (fun _ => hgs) fun hb => absurd (hst.symm.trans hb) (by decide)
    rw [hg] at h₁
    simp only [regonfhcControl, hst', Regonf.controlInit, h₁, h₂, ↓reduceIte, readSensor_onf, hi]
    rfl
  · exact .init hst (by simpa using h₁) (by simpa [Option.isSome_iff_ne_none] using h₂)

theorem controlBusy_cases {w w' : Wire R} {inp : ControlInput R} (hst : w.item.state = .regBusy)
    (hw : controlBusy w inp = some w') : ControlStep w inp w' := by
  have hst' : w.onf.item.state = .regBusy := hst
  cases hf : inp.snsr.fts?.isSome with
  | false =>
    simp only [controlBusy, hf, Bool.false_eq_true, ↓reduceIte, Option.some.injEq] at hw
    subst hw
    refine .onf ?_ (busyFailed_pids _) (fun hi => absurd (hst.symm.trans hi) (by decide))
      fun _ => hf
    rw [busyFailed_onf]
    simp only [regonfhcControl, hst', Regonf.controlBusy, hf, Bool.false_eq_true, ↓reduceIte]
    rfl
  | true =>
    -- without a mechanism in `state_r` the step is undefined
    cases hr : EMName.ofState? w.item.state_r with
    | none => simp [controlBusy, busyRegulate, readSensor, hf, hr] at hw
    | some n =>
      have hn := EMName.ofState?_eq_some.mp hr
      set w₁ := (readSensor w inp.snsr).upd fun i => { i with snsrf_count := 0 } with hw₁
      have hr₁ : EMName.ofState? w₁.item.state_r = some n := hr
      -- the check leaves a mechanism in `state_r`, and it is the one that is driven
      obtain ⟨m, hm⟩ := busyChange_state_r w₁ hn inp
      simp only [controlBusy, hf, ↓reduceIte, ← hw₁, busyRegulate, hr₁, hm,
        EMName.ofState?_state, Option.getD_some, Option.some.injEq] at hw
      exact hw ▸ .busy hst hf hn hw₁ hm

/-- The steps of the states that do not read the sensor. -/
theorem control_onf {w w' : Wire R} {inp : ControlInput R} (hi : w.item.state ≠ .regInit)
    (hb : w.item.state ≠ .regBusy) (hw : regpidonfhcControl w inp = some w') :
    regonfhcControl w.onf inp.toControlInput = some w'.onf ∧ w'.item.pids = w.item.pids := by
  have hs : w.onf.item.state = w.item.state := rfl
  -- the state decides; `REG_INIT` and `REG_BUSY` are excluded
  cases hst : w.item.state with
  | regInit => exact absurd hst hi
  | regBusy => exact absurd hst hb
  | regSecure =>
    simp only [regpidonfhcControl, hst, Option.some.injEq] at hw
    simp only [regonfhcControl, hs, hst, ← hw, controlSecure_onf, true_and]
    exact both_pids w _ _
  | regDisable =>
    simp only [regpidonfhcControl, hst, Option.some.injEq] at hw
    simp only [regonfhcControl, hs, hst, ← hw, controlDisable_onf, true_and]
    exact controlDisable_pids w
  | regOff =>
    simp only [regpidonfhcControl, hst, Option.some.injEq] at hw
    simp only [regonfhcControl, hs, hst, ← hw, and_self]
  | _ =>
    simp only [regpidonfhcControl, hst, Option.some.injEq] at hw
    simp only [regonfhcControl, hs, hst, ← hw]
    exact ⟨rfl, rfl⟩

theorem control_cases {w w' : Wire R} {inp : ControlInput R}
    (hw : regpidonfhcControl w inp = some w') : ControlStep w inp w' := by
  by_cases hi : w.item.state = .regInit
  · simp only [regpidonfhcControl, hi, Option.some.injEq] at hw
    exact hw ▸ controlInit_cases inp hi
  · by_cases hb : w.item.state = .regBusy
    · simp only [regpidonfhcControl, hb] at hw
      exact controlBusy_cases hb hw
    · obtain ⟨h, hp⟩ := control_onf hi hb hw
      exact .onf h hp (fun h => absurd h hi) fun h => absurd h hb

end busy

end

end Regonf.Regpidonfhc
