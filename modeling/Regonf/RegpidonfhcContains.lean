import Regonf.RegonfhcBusy
import Regonf.RegpidonfhcOnf

/-! The regulator with PID contains the on-off regulator: with both modes at `REG_MODE_ONF` it
sends the same commands. -/
namespace Regonf

variable {R : Type*}

section
variable [Zero R]

/-- Outside `REG_BUSY` no operation looks at `state_r`. -/
theorem applyOp_setR {w : Wire R} (hs : w.item.state ≠ .regBusy) (r : StateReg) (o : Op R) :
    applyOp (w.upd fun i => { i with state_r := r }) o =
      (applyOp w o).upd fun i => { i with state_r := r } := by
  cases o with
  | setCoolerDelta v => simp [applyOp, regonfhcSetCoolerDelta, Wire.upd, hs]
  | setHeaterDelta v => simp [applyOp, regonfhcSetHeaterDelta, Wire.upd, hs]
  | setEMMode v =>
    simp only [applyOp, regonfhcSetEMMode, controlEM_setR]
    split_ifs <;> rfl
  | setHeaterPower v => simp only [applyOp, regonfhcSetHeaterPower, controlEM_setR]; rfl
  | setCoolerPower v => simp only [applyOp, regonfhcSetCoolerPower, controlEM_setR]; rfl
  | turnOff =>
    have ho : (w.upd fun i => { i with state_r := r }).upd (fun i => { i with state := .regOff }) =
        (w.upd fun i => { i with state := .regOff }).upd fun i => { i with state_r := r } := rfl
    simp only [applyOp, regonfhcTurnOff, ho, controlEM_setR]
  | _ => rfl

end

/-- The operation of the regulator with PID. -/
def Op.toPid : Op R → Regpidonfhc.Op R
  | .enable => .enable
  | .disable => .disable
  | .setCoolerDelta v => .setCoolerDelta v
  | .setHeaterDelta v => .setHeaterDelta v
  | .setGoal v => .setGoal v
  | .setChangeGap v => .setChangeGap v
  | .setEMMode v => .setEMMode v
  | .setHeaterPower v => .setHeaterPower v
  | .setCoolerPower v => .setCoolerPower v
  | .turnOff => .turnOff
  | .secureOutTouch => .secureOutTouch

/-- The two regulators get the same operation, or the same results in a control step, where
the second read of `REG_INIT` gives the result of the first. -/
def SameInput : Input R → Regpidonfhc.Input R → Prop
  | .control inp, .control inp' => inp'.toControlInput = inp ∧ inp'.snsrAgain = inp.snsr
  | .op o, .op o' => o' = o.toPid
  | _, _ => False

/-- `b` is `a` with both modes on-off, except for `state_r` in the states that do not use
it. -/
structure Contains (a : RegOnfHC R) (b : RegPIDOnfHC R) : Prop where
  onf : b.onf = { a with state_r := b.state_r }
  state_r : a.state.ignoresR = false → b.state_r = a.state_r
  mode : ∀ n, (b.em n).mode = .regModeOnf

namespace Regpidonfhc

theorem mode_of_pids {a b : RegPIDOnfHC R} (hp : b.pids = a.pids)
    (hm : ∀ n, (a.em n).mode = .regModeOnf) (n : EMName) : (b.em n).mode = .regModeOnf :=
  (congrArg Prod.fst (congrFun hp n)).trans (hm n)

variable [Zero R]

section
omit [Zero R]

/-- Wires that differ in `state_r`, in a state that does not use it. -/
theorem Contains.of_onf {w : Regonf.Wire R} {v : Wire R} {r : StateReg}
    (hv : v.onf = w.upd fun i => { i with state_r := r }) (hs : w.item.state.ignoresR = true)
    (hm : ∀ n, (v.item.em n).mode = .regModeOnf) :
    Contains w.item v.item ∧ commands v.sent = commands w.sent := by
  have hi : v.item.onf = { w.item with state_r := r } :=
    congrArg (fun q : Regonf.Wire R => q.item) hv
  have hr : v.item.state_r = r := congrArg (fun q : RegOnfHC R => q.state_r) hi
  refine ⟨⟨by rw [hi, hr], fun h => ?_, hm⟩, ?_⟩
  · rw [hs] at h
    cases h
  · exact congrArg (fun q : Regonf.Wire R => commands q.sent) hv

theorem Contains.of_eq {w : Regonf.Wire R} {v : Wire R} (hv : v.onf = w)
    (hm : ∀ n, (v.item.em n).mode = .regModeOnf) :
    Contains w.item v.item ∧ commands v.sent = commands w.sent := by
  subst hv
  exact ⟨⟨rfl, fun _ => rfl, hm⟩, rfl⟩

end

theorem applyOp_onf {w : Wire R} (hm : ∀ n, (w.item.em n).mode = .regModeOnf)
    (o : Regonf.Op R) :
    (applyOp w o.toPid).onf = Regonf.applyOp w.onf o ∧
      (applyOp w o.toPid).item.pids = w.item.pids := by
  have hh : w.item.heater.mode = .regModeOnf := hm .heater
  cases o <;> dsimp only [Op.toPid, applyOp, Regonf.applyOp]
  case setCoolerDelta v =>
    refine ⟨?_, funext fun n => by cases n <;> rfl⟩
    simp only [Wire.onf, Wire.upd, Regonf.Wire.upd, regpidonfhcSetCoolerDelta, hh, true_and]
    rfl
  case setHeaterDelta v =>
    refine ⟨?_, funext fun n => by cases n <;> rfl⟩
    simp only [Wire.onf, Wire.upd, Regonf.Wire.upd, regpidonfhcSetHeaterDelta, hh, true_and]
    rfl
  case setEMMode v => exact ⟨setEMMode_onf w v, setEMMode_pids w v⟩
  case setHeaterPower v =>
    unfold regpidonfhcSetHeaterPower regonfhcSetHeaterPower
    exact ⟨by rw [← controlEM_onf]; rfl, controlEM_pids w .heater v⟩
  case setCoolerPower v =>
    unfold regpidonfhcSetCoolerPower regonfhcSetCoolerPower
    exact ⟨by rw [← controlEM_onf]; rfl, controlEM_pids w .cooler v⟩
  case turnOff =>
    unfold regpidonfhcTurnOff regonfhcTurnOff
    dsimp only
    rw [controlEM_onf, controlEM_onf, controlEM_pids, controlEM_pids]
    exact ⟨rfl, rfl⟩
  all_goals exact ⟨rfl, rfl⟩

section init
variable [LT R] [DecidableLT R]

/-- The end of `REG_INIT`, on wires that differ in `state_r`, when the second read of the sensor
gives what the first has given. -/
theorem controlInitDone_contains {w : Regonf.Wire R} {v : Wire R} {inp : ControlInput R}
    {r : StateReg} {p : SensorFTS R} (hv : v.onf = w.upd fun i => { i with state_r := r })
    (hs : v.item.sensor = readSensorFTS p inp.snsrAgain)
    (hf : inp.snsrAgain.fts?.isSome = true) (hm : ∀ n, (v.item.em n).mode = .regModeOnf) :
    Contains (Regonf.controlInitDone w).item (controlInitDone v inp).item ∧
      commands (controlInitDone v inp).sent = commands (Regonf.controlInitDone w).sent := by
  have hx : (initReset v).onf = (Regonf.initReset w).upd fun i =>
      { i with state_r := v.item.state_r } := by
    rw [initReset_onf, hv]
    rfl
  obtain ⟨hi, hsent⟩ := controlInitDone_choice hs hf
  have hmode : ∀ n, ((initReset v).item.em n).mode = .regModeOnf :=
    fun n => (initReset_mode v n).trans (hm n)
  rw [hsent]
  unfold Regonf.controlInitDone
  generalize initReset v = u at *
  generalize Regonf.initReset w = x at *
  have hu : u.item.onf = { x.item with state_r := v.item.state_r } :=
    congrArg (fun q : Regonf.Wire R => q.item) hx
  have hr : u.item.state_r = v.item.state_r := congrArg (fun q : RegOnfHC R => q.state_r) hu
  have hus : u.sent = x.sent := congrArg (fun q : Regonf.Wire R => q.sent) hx
  have hcm (l : List (Request R)) (b : Bool) (d : SockAddr) :
      commands (l ++ if b then [.getFTS .sensor d] else []) = commands l := by
    cases b <;> simp [commands]
  have hchoice : initChoice u.item.onf = initChoice x.item := by rw [hu]; rfl
  rw [hchoice] at hi
  dsimp only
  rw [hi, hcm, hus]
  cases initChoice x.item with
  | none =>
    refine ⟨⟨?_, fun h => absurd h (by simp [StateReg.ignoresR]), ?_⟩, rfl⟩
    · change { u.item.onf with state := .regDisable } =
        { x.item with state := .regDisable, state_r := u.item.state_r }
      rw [hu, hr]
    · exact fun n => by cases n <;> [exact hmode .heater; exact hmode .cooler]
  | some n =>
    refine ⟨⟨?_, fun _ => rfl, ?_⟩, rfl⟩
    · change { u.item.onf with state_r := n.state } = _
      rw [hu]
      rfl
    · exact fun n => by cases n <;> [exact hmode .heater; exact hmode .cooler]

omit [Zero R] [LT R] [DecidableLT R] in
theorem greenLight_setR [BEq R] (w : Regonf.Wire R) (r : StateReg) (p : Reply R) :
    Regonf.greenLightIsGreen (w.upd fun i => { i with state_r := r }) p =
      ((Regonf.greenLightIsGreen w p).1,
        (Regonf.greenLightIsGreen w p).2.upd fun i => { i with state_r := r }) := by
  unfold Regonf.greenLightIsGreen
  dsimp only [Regonf.Wire.upd]
  split_ifs <;> rfl

/-- `REG_INIT` on wires that differ in `state_r`. -/
theorem controlInit_contains [BEq R] {w : Regonf.Wire R} {v : Wire R} {inp : ControlInput R}
    {r : StateReg} (hv : v.onf = w.upd fun i => { i with state_r := r })
    (hs : w.item.state = .regInit) (hm : ∀ n, (v.item.em n).mode = .regModeOnf)
    (ha : inp.snsrAgain = inp.snsr) :
    Contains (Regonf.controlInit w inp.toControlInput).item (controlInit v inp).item ∧
      commands (controlInit v inp).sent =
        commands (Regonf.controlInit w inp.toControlInput).sent := by
  obtain ⟨hg, hg', hp⟩ := greenLight_onf v inp.green
  rw [hv, greenLight_setR] at hg hg'
  have hst : (Regonf.greenLightIsGreen w inp.green).2.item.state = .regInit := by
    rw [greenLightIsGreen_item]
    exact hs
  have hm' := mode_of_pids hp hm
  unfold controlInit Regonf.controlInit
  dsimp only
  rw [hg]
  generalize (greenLightIsGreen v inp.green).2 = x at *
  generalize (Regonf.greenLightIsGreen w inp.green).2 = y at *
  split_ifs with h₁ h₂
  · exact Contains.of_onf hg' (by rw [hst]; rfl) hm'
  · refine Contains.of_onf (r := r) ?_ ?_
      (fun n => by cases n <;> [exact hm' .heater; exact hm' .cooler])
    · rw [readSensor_onf, hg']
      rfl
    · rw [(readSensor_frame _ _).2.2.2.2.1, hst]
      rfl
  · refine controlInitDone_contains (r := r) (p := x.item.sensor) ?_ ?_ ?_ ?_
    · rw [readSensor_onf, hg']
      rfl
    · rw [ha]
      rfl
    · rw [ha, Option.isSome_iff_ne_none]
      simpa using h₂
    · exact fun n => by cases n <;> [exact hm' .heater; exact hm' .cooler]

end init

theorem op_contains {a : RegOnfHC R} {b : RegPIDOnfHC R} (hc : Contains a b)
    (o : Regonf.Op R) :
    Contains (Regonf.applyOp ⟨a, []⟩ o).item (applyOp ⟨b, []⟩ o.toPid).item ∧
      commands (applyOp ⟨b, []⟩ o.toPid).sent = commands (Regonf.applyOp ⟨a, []⟩ o).sent := by
  obtain ⟨ho, hp⟩ := applyOp_onf (w := ⟨b, []⟩) hc.mode o
  have hm := mode_of_pids hp hc.mode
  have hv : (⟨b, []⟩ : Wire R).onf =
      (⟨a, []⟩ : Regonf.Wire R).upd fun i => { i with state_r := b.state_r } := by
    simp only [Wire.onf, hc.onf]
    rfl
  rw [hv] at ho
  cases hs : a.state.ignoresR with
  | false =>
    rw [hc.state_r hs] at ho
    exact Contains.of_eq ho hm
  | true =>
    have hb : a.state ≠ .regBusy := by
      rintro hb
      simp [hb, StateReg.ignoresR] at hs
    rw [applyOp_setR hb] at ho
    refine Contains.of_onf ho ?_ hm
    by_contra h
    rw [(op_state_r ⟨a, []⟩ (Bool.not_eq_true _ ▸ h)).1] at hs
    cases hs

variable [LT R] [DecidableLT R] [Add R] [Sub R] [Mul R] [Div R] [IntCast R] [BEq R]

/-- One control step of the two regulators. -/
theorem control_contains {a : RegOnfHC R} {b : RegPIDOnfHC R} {inp : ControlInput R}
    {w : Regonf.Wire R} (hc : Contains a b) (ha : inp.snsrAgain = inp.snsr)
    (hw : regonfhcControl ⟨a, []⟩ inp.toControlInput = some w) :
    ∃ v, regpidonfhcControl ⟨b, []⟩ inp = some v ∧ Contains w.item v.item ∧
      commands v.sent = commands w.sent := by
  have hv : (⟨b, []⟩ : Wire R).onf =
      (⟨a, []⟩ : Regonf.Wire R).upd fun i => { i with state_r := b.state_r } := by
    simp only [Wire.onf, hc.onf]
    rfl
  have hst : b.state = a.state := congrArg (fun q : RegOnfHC R => q.state) hc.onf
  -- where `state_r` is used, the on-off part is the other regulator
  have heq (hs : a.state.ignoresR = false) : (⟨b, []⟩ : Wire R).onf = ⟨a, []⟩ := by
    rw [hv, hc.state_r hs]
    rfl
  unfold regonfhcControl at hw
  unfold regpidonfhcControl
  dsimp only at hw ⊢
  rw [hst]
  cases hs : a.state <;> simp only [hs] at hw ⊢
  case regInit =>
    cases hw
    exact ⟨_, rfl, controlInit_contains hv hs hc.mode ha⟩
  case regBusy =>
    obtain ⟨hb, hp⟩ := controlBusy_onf (w := ⟨b, []⟩) hc.mode inp
    rw [heq (by simp [hs, StateReg.ignoresR]), hw] at hb
    obtain ⟨v, hv', hvw⟩ := Option.map_eq_some_iff.mp hb
    exact ⟨v, hv', Contains.of_eq hvw (mode_of_pids (hp v hv') hc.mode)⟩
  case regSecure =>
    cases hw
    have hp : (controlSecure ⟨b, []⟩ inp).item.pids = b.pids := both_pids ⟨b, []⟩ _ _
    refine ⟨_, rfl, Contains.of_eq ?_ (mode_of_pids hp hc.mode)⟩
    rw [controlSecure_onf, heq (by simp [hs, StateReg.ignoresR])]
  case regDisable =>
    cases hw
    have hp : (controlDisable ⟨b, []⟩).item.pids = b.pids := controlDisable_pids ⟨b, []⟩
    refine ⟨_, rfl, Contains.of_eq ?_ (mode_of_pids hp hc.mode)⟩
    rw [controlDisable_onf, hv]
    unfold Regonf.controlDisable
    dsimp only
    rw [controlEM_setR, controlEM_setR]
    rfl
  all_goals
    cases hw
  case regOff => exact ⟨_, rfl, Contains.of_onf hv (by simp [hs, StateReg.ignoresR]) hc.mode⟩
  all_goals
    refine ⟨_, rfl, Contains.of_onf (r := b.state_r) ?_ rfl hc.mode⟩
    rw [onf_upd (g := fun i => { i with state := .regOff }) fun _ => rfl, hv]
    rfl

theorem step_contains {a a' : RegOnfHC R} {b : RegPIDOnfHC R} {i : Regonf.Input R} {j : Input R}
    {o : List (Request R)} (hc : Contains a b) (hi : SameInput i j)
    (hs : Regonf.step a i = some (a', o)) :
    ∃ b' o', step b j = some (b', o') ∧ Contains a' b' ∧ commands o' = commands o := by
  cases i with
  | control inp =>
    cases j with
    | op o => exact hi.elim
    | control inp' =>
      obtain ⟨rfl, ha⟩ := hi
      simp only [Regonf.step, Option.map_eq_some_iff, Prod.mk.injEq] at hs
      obtain ⟨w, hw, rfl, rfl⟩ := hs
      obtain ⟨v, hv, hcv, ho⟩ := control_contains hc ha hw
      exact ⟨v.item, v.sent, by rw [step, hv]; rfl, hcv, ho⟩
  | op p =>
    cases j with
    | control inp => exact hi.elim
    | op p' =>
      obtain rfl : p' = p.toPid := hi
      cases hs
      obtain ⟨hcv, ho⟩ := op_contains hc p
      exact ⟨_, _, rfl, hcv, ho⟩

omit [Add R] [Sub R] [Mul R] [Div R] [IntCast R] [LT R] [DecidableLT R] [BEq R] in
theorem Loaded.not_regulating {item : RegPIDOnfHC R} (hl : Loaded item) :
    ¬Regulating item.onf := by
  rintro (hr | hr) <;> rcases hl.state with h | h | h <;> exact absurd (h.symm.trans hr) (by simp)

end Regpidonfhc

variable [Zero R] [LT R] [DecidableLT R] [Add R] [Sub R] [Mul R] [Div R] [IntCast R] [BEq R]

/-- With both modes on-off, a loaded regulator with PID sends the commands of the on-off
regulator that is loaded with the same data, and agrees with it. -/
theorem onf_contained {item : RegPIDOnfHC R} {is : List (Input R)}
    {js : List (Regpidonfhc.Input R)} (hl : Regpidonfhc.Loaded item)
    (hm : ∀ n, (item.em n).mode = .regModeOnf) (hi : List.Forall₂ SameInput is js) :
    ∃ t out u out', Controller.run step item.onf is = some (t, out) ∧
      Controller.run Regpidonfhc.step item js = some (u, out') ∧
      commands out' = commands out ∧ u.onf = { t with state_r := u.state_r } ∧
      (t.state = .regBusy ∨ t.state = .regSecure → u.state_r = t.state_r) := by
  obtain ⟨t, out, hr⟩ := run_isSome_of_names (NamesEM.of_not hl.not_regulating) is
  have hc : Controller.Along step (fun _ _ _ => True) item.onf [] is :=
    Controller.along_of_forall_mem (fun _ _ _ _ => trivial) _ _
  obtain ⟨u, out', hr', hcu, ho⟩ := Controller.run_simulates (E := SameInput) (S := Contains)
    (O := fun o o' : List (Request R) => commands o' = commands o) rfl
    (fun _ _ _ _ h h' => by simp only [commands, List.filter_append] at *; rw [h, h'])
    (fun _ _ _ _ _ _ _ hs _ he ht => Regpidonfhc.step_contains hs he ht)
    (⟨rfl, fun _ => rfl, hm⟩ : Contains item.onf item) hi hc hr
  refine ⟨t, out, u, out', hr, hr', ho, hcu.onf, fun hs => hcu.state_r ?_⟩
  rcases hs with hs | hs <;> simp [hs, StateReg.ignoresR]

/-- Two readings below the threshold power both heaters. -/
theorem onf_contained_example :
    let is := [exampleControl 0 (some 240), exampleControl 1 (some 240), .op (.setGoal 260),
      exampleControl 2 (some 240)]
    let js := [.control (Regpidonfhc.exampleReading 0 (some 240) (some 240)),
      .control (Regpidonfhc.exampleReading 1 (some 240) (some 240)), .op (.setGoal 260),
      .control (Regpidonfhc.exampleReading 2 (some 240) (some 240))]
    let item := Regpidonfhc.exampleProg .regModeOnf .regModeOnf
    ∃ t out u out', Controller.run step item.onf is = some (t, out) ∧
      Controller.run Regpidonfhc.step item js = some (u, out') ∧
      commands out' = commands out ∧ t.heater.output = 1000 ∧ u.heater.output = 1000 := by
  intro is js item
  have hi : List.Forall₂ SameInput is js := by
    repeat' constructor
  obtain ⟨t, out, u, out', hr, hr', ho, hu, -⟩ := onf_contained
    (Regpidonfhc.exampleProg_loaded .regModeOnf .regModeOnf) (by intro n; cases n <;> rfl) hi
  have ht : t.heater.output = 1000 := by
    have h : (Controller.run step item.onf is).map (fun q => q.1.heater.output) = some 1000 := by
      decide +kernel
    rw [hr] at h
    exact Option.some.inj h
  refine ⟨t, out, u, out', hr, hr', ho, ht, ?_⟩
  rw [← ht]
  exact congrArg (fun q : RegOnfHC ℤ => q.heater.output) hu

end Regonf
