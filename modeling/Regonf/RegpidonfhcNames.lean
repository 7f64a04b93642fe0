import Regonf.RegonfhcBusy
import Regonf.RegpidonfhcOnf

/-! The pointers of `REG_BUSY` in the regulator with PID. `reg_em` is assigned where `state_r`
names a mechanism; one branch of `REG_INIT` leaves `state_r` as it was. -/
namespace Regonf.Regpidonfhc

variable {R : Type*}

/-- While regulating, `state_r` names a mechanism. -/
def NamesEM (item : RegPIDOnfHC R) : Prop :=
  item.state = .regBusy ∨ item.state = .regSecure → ∃ n : EMName, item.state_r = n.state

theorem NamesEM.frame {a b : RegPIDOnfHC R} (h : NamesEM a) (hs : b.state = a.state)
    (hr : b.state_r = a.state_r) : NamesEM b := by
  unfold NamesEM
  rw [hs, hr]
  exact h

theorem NamesEM.of_state {item : RegPIDOnfHC R} (hb : item.state ≠ .regBusy)
    (hs : item.state ≠ .regSecure) : NamesEM item :=
  fun h => absurd h (by simp [hb, hs])

section
variable [Zero R]

/-- An operation keeps `state_r`; it keeps `state` or leaves the states that use `state_r`. -/
theorem op_states (w : Wire R) (o : Op R) :
    (applyOp w o).item.state_r = w.item.state_r ∧
      ((applyOp w o).item.state = w.item.state ∨
        (applyOp w o).item.state.ignoresR = true) := by
  have hset {s : StateReg} {P : Prop} [Decidable P]
      (hs : s = if P then .regInit else w.item.state) :
      s = w.item.state ∨ s.ignoresR = true := by
    by_cases hp : P
    · rw [if_pos hp] at hs
      exact Or.inr (hs ▸ rfl)
    · rw [if_neg hp] at hs
      exact Or.inl hs
  cases o <;> dsimp only [applyOp]
  case enable => exact ⟨rfl, Or.inr rfl⟩
  case disable => exact ⟨rfl, Or.inr rfl⟩
  case turnOff =>
    exact ⟨by simp [regpidonfhcTurnOff], Or.inr (by simp [regpidonfhcTurnOff, StateReg.ignoresR])⟩
  case setCoolerDelta v => exact ⟨rfl, hset rfl⟩
  case setHeaterDelta v => exact ⟨rfl, hset rfl⟩
  case setEMMode v =>
    -- the two fields are those of the on-off part
    have hone := setEMMode_onf w v
    have hitem : (regpidonfhcSetEMMode w v).item.onf = (Regonf.regonfhcSetEMMode w.onf v).item :=
      congrArg Regonf.Wire.item hone
    obtain ⟨hstate, hr, -⟩ := Regonf.setEMMode_state w.onf v
    rw [← hitem] at hstate hr
    exact ⟨hr, hset hstate⟩
  case setHeaterMode v =>
    unfold regpidonfhcSetHeaterMode setMode
    cases modeOfStr v with
    | none => exact ⟨rfl, Or.inl rfl⟩
    | some m => exact ⟨rfl, hset rfl⟩
  case setCoolerMode v =>
    unfold regpidonfhcSetCoolerMode setMode
    cases modeOfStr v with
    | none => exact ⟨rfl, Or.inl rfl⟩
    | some m => exact ⟨rfl, hset rfl⟩
  case setHeaterPower v => simp [regpidonfhcSetHeaterPower]
  case setCoolerPower v => simp [regpidonfhcSetCoolerPower]
  all_goals exact ⟨rfl, Or.inl rfl⟩

/-- `REG_BUSY` where `state_r` names no mechanism, so that the pointers are null. -/
def Unnamed (item : RegPIDOnfHC R) : Prop :=
  item.state = .regBusy ∧ ∀ n : EMName, item.state_r ≠ n.state

/-- The operations that take a program out of `REG_BUSY` whatever `state_r` is. -/
def Op.Restarts : Op R → Prop
  | .enable | .disable | .setEMMode _ | .turnOff => True
  | _ => False

/-- The other operations look for the mechanism that `state_r` names, or do not touch the state. -/
theorem op_unnamed {w : Wire R} (h : Unnamed w.item) {o : Op R} (ho : ¬o.Restarts) :
    Unnamed (applyOp w o).item := by
  obtain ⟨hb, hn⟩ := h
  refine ⟨?_, fun n hc => hn n ((op_states w o).1.symm.trans hc)⟩
  have hmode (n : EMName) (v : String) : (setMode w.item n v).state = .regBusy := by
    unfold setMode
    cases modeOfStr v with
    | none => exact hb
    | some m =>
      cases n
      · exact (if_neg fun hc => hn .heater hc.2).trans hb
      · exact (if_neg fun hc => hn .cooler hc.2).trans hb
  cases o <;> dsimp only [applyOp]
  case enable | disable | setEMMode | turnOff => exact absurd trivial ho
  case setCoolerDelta v =>
    exact (if_neg fun hc => hn .cooler hc.2.2).trans hb
  case setHeaterDelta v =>
    exact (if_neg fun hc => hn .heater hc.2.2).trans hb
  case setHeaterMode v => exact hmode .heater v
  case setCoolerMode v => exact hmode .cooler v
  case setHeaterPower v => simp [regpidonfhcSetHeaterPower, hb]
  case setCoolerPower v => simp [regpidonfhcSetCoolerPower, hb]
  all_goals exact hb

theorem op_restarts {w : Wire R} (hb : w.item.state = .regBusy) {o : Op R} (ho : o.Restarts) :
    NamesEM (applyOp w o).item := by
  have hs : (applyOp w o).item.state = .regInit ∨ (applyOp w o).item.state = .regDisable ∨
      (applyOp w o).item.state = .regOff := by
    cases o with
    | enable => exact Or.inl rfl
    | disable => exact Or.inr (Or.inl rfl)
    | turnOff => exact Or.inr (Or.inr (by simp [applyOp, regpidonfhcTurnOff]))
    | setEMMode v =>
      have hitem : (regpidonfhcSetEMMode w v).item.onf = (Regonf.regonfhcSetEMMode w.onf v).item :=
        congrArg Regonf.Wire.item (setEMMode_onf w v)
      obtain ⟨hstate, -, -⟩ := Regonf.setEMMode_state w.onf v
      rw [← hitem] at hstate
      exact Or.inl (hstate.trans (if_pos hb))
    | _ => exact absurd ho id
  refine NamesEM.of_state ?_ ?_ <;> rcases hs with hs | hs | hs <;> simp [hs]

theorem op_names {w : Wire R} (hi : NamesEM w.item) (o : Op R) : NamesEM (applyOp w o).item := by
  obtain ⟨hr, hs | hs⟩ := op_states w o
  · exact hi.frame hs hr
  · refine NamesEM.of_state ?_ ?_ <;> intro h <;> simp [h, StateReg.ignoresR] at hs

omit [Zero R] in
/-- The green light changes only its own sensor. -/
theorem greenLightIsGreen_frame [BEq R] (w : Wire R) (r : Reply R) :
    (greenLightIsGreen w r).2.item.state = w.item.state ∧
    (greenLightIsGreen w r).2.item.state_r = w.item.state_r ∧
    (greenLightIsGreen w r).2.item.heater = w.item.heater ∧
    (greenLightIsGreen w r).2.item.cooler = w.item.cooler := by
  unfold greenLightIsGreen
  dsimp only
  split_ifs <;> exact ⟨rfl, rfl, rfl, rfl⟩

@[simp] theorem initReset_frame (w : Wire R) :
    (initReset w).item.state = .regBusy ∧ (initReset w).item.state_r = w.item.state_r ∧
    (initReset w).item.heater.use = w.item.heater.use ∧
    (initReset w).item.cooler.use = w.item.cooler.use := by
  simp [initReset]

variable [LT R] [DecidableLT R]

/-- The branch of `REG_INIT` that leaves `state_r` as it was. -/
theorem controlInitDone_failed {w : Wire R} {inp : ControlInput R}
    (hh : w.item.heater.use = true) (hc : w.item.cooler.use = true)
    (hf : inp.snsrAgain.fts?.isSome = false) :
    (controlInitDone w inp).item.state = .regBusy ∧
      (controlInitDone w inp).item.state_r = w.item.state_r := by
  simp [controlInitDone, hh, hc, hf, readSensor]

theorem controlInitDone_names {w : Wire R} {inp : ControlInput R}
    (h : w.item.heater.use = true → w.item.cooler.use = true →
      inp.snsrAgain.fts?.isSome = true) : NamesEM (controlInitDone w inp).item := by
  unfold controlInitDone
  simp only [initReset_frame]
  split_ifs with h₁ h₂ h₃ h₄
  · intro _
    simp only [Wire.upd_item]
    split_ifs
    · exact ⟨.cooler, rfl⟩
    · exact ⟨.heater, rfl⟩
  · exact absurd (h (by simp_all) (by simp_all)) h₂
  · exact fun _ => ⟨.heater, rfl⟩
  · exact fun _ => ⟨.cooler, rfl⟩
  · exact NamesEM.of_state (by simp) (by simp)

/-- In `REG_INIT`, with both mechanisms in use, a first successful read is followed by a second
one, unless `state_r` names a mechanism already. -/
def Chooses [BEq R] (item : RegPIDOnfHC R) : Input R → Prop
  | .control inp => item.state = .regInit →
      (greenLightIsGreen ⟨item, []⟩ inp.green).1 = true → inp.snsr.fts?.isSome = true →
      item.heater.use = true → item.cooler.use = true →
      inp.snsrAgain.fts?.isSome = true ∨ ∃ n : EMName, item.state_r = n.state
  | .op _ => True

theorem controlInit_names [BEq R] {item : RegPIDOnfHC R} {inp : ControlInput R}
    (hs : item.state = .regInit) (hc : Chooses item (.control inp)) :
    NamesEM (controlInit ⟨item, []⟩ inp).item := by
  have hc := hc hs
  obtain ⟨hgs, hgr, hgh, hgc⟩ := greenLightIsGreen_frame ⟨item, []⟩ inp.green
  unfold controlInit
  dsimp only
  split_ifs with h₁ h₂
  · exact NamesEM.of_state (by simp [hgs, hs]) (by simp [hgs, hs])
  · exact NamesEM.of_state (by simp [readSensor, hgs, hs]) (by simp [readSensor, hgs, hs])
  · have hc := hc (by simpa using h₁) (by simpa [Option.isSome_iff_ne_none] using h₂)
    by_cases hf : item.heater.use = true ∧ item.cooler.use = true ∧
        inp.snsrAgain.fts?.isSome = false
    · obtain ⟨hh, hcu, hf⟩ := hf
      obtain ⟨-, hr⟩ := controlInitDone_failed (w := readSensor
        (greenLightIsGreen ⟨item, []⟩ inp.green).2 inp.snsr)
        (by simp [readSensor, hgh, hh]) (by simp [readSensor, hgc, hcu]) hf
      intro _
      rw [hr]
      obtain h | ⟨n, hn⟩ := hc hh hcu
      · rw [hf] at h
        cases h
      · exact ⟨n, hgr.trans hn⟩
    · refine controlInitDone_names fun hh hcu => ?_
      have hh' : item.heater.use = true := hgh ▸ hh
      have hc' : item.cooler.use = true := hgc ▸ hcu
      by_contra h
      exact hf ⟨hh', hc', by simpa using h⟩

/-- Where the condition fails, `REG_BUSY` is entered with `state_r` naming no mechanism. -/
theorem controlInit_unnamed [BEq R] {item : RegPIDOnfHC R} {inp : ControlInput R}
    (hc : ¬Chooses item (.control inp)) :
    (controlInit ⟨item, []⟩ inp).item.state = .regBusy ∧
      ∀ n : EMName, (controlInit ⟨item, []⟩ inp).item.state_r ≠ n.state := by
  obtain ⟨-, hgr, hgh, hgc⟩ := greenLightIsGreen_frame ⟨item, []⟩ inp.green
  simp only [Chooses, Classical.not_imp, not_or, not_exists] at hc
  obtain ⟨-, hg, h₁, hh, hcu, hf, hn⟩ := hc
  have h₂ : inp.snsr.fts?.isNone = false := by
    rw [← Option.not_isSome, h₁]
    rfl
  obtain ⟨hb, hr⟩ := controlInitDone_failed (w := readSensor
    (greenLightIsGreen ⟨item, []⟩ inp.green).2 inp.snsr)
    (by simp [readSensor, hgh, hh]) (by simp [readSensor, hgc, hcu]) (by simpa using hf)
  simp only [controlInit, hg, h₂, Bool.not_true, Bool.false_eq_true, ↓reduceIte]
  exact ⟨hb, fun n h => hn n (hgr.symm.trans (hr.symm.trans h))⟩

variable [Add R] [Sub R]

theorem busyChange_state_r (w : Wire R) {n : EMName} (hn : w.item.state_r = n.state)
    (inp : ControlInput R) : ∃ m : EMName, (busyChange w n inp).item.state_r = m.state := by
  unfold busyChange
  dsimp only
  split_ifs
  · exact ⟨n.other, by simp⟩
  · exact ⟨n, hn⟩
  · exact ⟨n, hn⟩

variable [Mul R] [Div R] [IntCast R]

theorem busyOutput_state_r (item : RegPIDOnfHC R) (n : EMName) (now : Timespec) :
    (busyOutput item n now).state_r = item.state_r := by
  unfold busyOutput
  split
  · cases n <;> rfl
  · unfold busyOnf
    split <;> rfl
  · rfl

/-- `REG_BUSY` is defined where `state_r` names a mechanism, and ends with one. -/
theorem controlBusy_names {w : Wire R} {n : EMName} (hn : w.item.state_r = n.state)
    (inp : ControlInput R) :
    ∃ v, controlBusy w inp = some v ∧ ∃ m : EMName, v.item.state_r = m.state := by
  unfold controlBusy
  dsimp only
  split_ifs
  · unfold busyRegulate
    have hr : ((readSensor w inp.snsr).upd fun i => { i with snsrf_count := 0 }).item.state_r =
        n.state := hn
    obtain ⟨m, hm⟩ := busyChange_state_r _ hr inp
    rw [hr, EMName.ofState?_state]
    refine ⟨_, rfl, m, ?_⟩
    simp only [busySecure, busyDrive, Wire.upd_item, controlEM_frame, busyOutput_state_r, hm]
  · refine ⟨_, rfl, n, ?_⟩
    unfold busyFailed
    dsimp only
    split_ifs <;> simp [readSensor, hn]

/-- The null pointer: `REG_BUSY` with a reading where `state_r` names no mechanism. -/
theorem controlBusy_unnamed {w : Wire R} {inp : ControlInput R}
    (hn : ∀ n : EMName, w.item.state_r ≠ n.state) (hf : inp.snsr.fts?.isSome = true) :
    controlBusy w inp = none := by
  have hr : EMName.ofState? w.item.state_r = none := by
    cases hs : EMName.ofState? w.item.state_r with
    | none => rfl
    | some n => exact absurd (EMName.ofState?_eq_some.mp hs) (hn n)
  unfold controlBusy busyRegulate
  simp only [hf, ↓reduceIte, Wire.upd_item, readSensor, hr]

/-- A step is defined from a state that names a mechanism while regulating, and keeps that when
the condition holds, and only then. -/
theorem step_names [BEq R] {item : RegPIDOnfHC R} (hi : NamesEM item) (i : Input R) :
    ∃ item' out, step item i = some (item', out) ∧ (Chooses item i → NamesEM item') ∧
      ((item'.state = .regBusy → ∃ n : EMName, item'.state_r = n.state) → Chooses item i) := by
  cases i with
  | op o => exact ⟨_, _, rfl, fun _ => op_names hi o, fun _ => trivial⟩
  | control inp =>
    have hw : ∃ w, regpidonfhcControl ⟨item, []⟩ inp = some w ∧
        (Chooses item (.control inp) → NamesEM w.item) ∧
        ((w.item.state = .regBusy → ∃ n : EMName, w.item.state_r = n.state) →
          Chooses item (.control inp)) := by
      have hne (hs : item.state ≠ .regInit) : Chooses item (.control inp) := fun h => absurd h hs
      unfold regpidonfhcControl
      dsimp only
      split
      · rename_i hs
        refine ⟨_, rfl, controlInit_names hs, fun hb => ?_⟩
        by_contra hc
        obtain ⟨hs', hr⟩ := controlInit_unnamed hc
        obtain ⟨n, hn⟩ := hb hs'
        exact hr n hn
      · rename_i hs
        obtain ⟨n, hn⟩ := hi (Or.inl hs)
        obtain ⟨v, hv, m, hm⟩ := controlBusy_names (w := ⟨item, []⟩) hn inp
        exact ⟨v, hv, fun _ _ => ⟨m, hm⟩, fun _ => hne (by simp [hs])⟩
      · rename_i hs
        refine ⟨_, rfl, fun _ _ => ?_, fun _ => hne (by simp [hs])⟩
        obtain ⟨n, hn⟩ := hi (Or.inr hs)
        exact ⟨n, by simp [controlSecure, hn]⟩
      · rename_i hs
        exact ⟨_, rfl, fun _ => NamesEM.of_state (by simp [controlDisable])
          (by simp [controlDisable]), fun _ => hne (by simp [hs])⟩
      · rename_i hs
        exact ⟨_, rfl, fun _ => hi, fun _ => hne (by simp [hs])⟩
      · exact ⟨_, rfl, fun _ => NamesEM.of_state (by simp) (by simp),
          fun _ => hne (by assumption)⟩
    obtain ⟨w, hw, hc⟩ := hw
    exact ⟨w.item, w.sent, by rw [step, hw]; rfl, hc⟩

/-- A `REG_INIT` step that does not choose a mechanism is followed, before the next control step,
by an operation that takes the program out of `REG_BUSY` again. -/
def ChoosesInTime [BEq R] (item : RegPIDOnfHC R) (is : List (Input R)) : Prop :=
  ∀ (js : List (Input R)) i (os : List (Op R)) inp s out,
    js ++ i :: os.map .op ++ [.control inp] <+: is →
    Controller.run step item js = some (s, out) → Chooses s i ∨ ∃ o ∈ os, o.Restarts

theorem choosesInTime_cons [BEq R] {item item' : RegPIDOnfHC R} {i : Input R}
    {is : List (Input R)} {out : List (Request R)} (hs : step item i = some (item', out))
    (hi : Chooses item i ∨ ∀ (os : List (Op R)) inp, os.map .op ++ [.control inp] <+: is →
      ∃ o ∈ os, o.Restarts) (hq : ChoosesInTime item' is) : ChoosesInTime item (i :: is) := by
  intro js j os inp s out' hj hr
  cases js with
  | nil =>
    obtain ⟨rfl, hj'⟩ := List.cons_prefix_cons.mp hj
    cases hr
    exact hi.imp_right fun h => h os inp hj'
  | cons k js =>
    obtain ⟨rfl, hj'⟩ := List.cons_prefix_cons.mp hj
    obtain ⟨s', o, rest, hs', hr, -⟩ := Controller.run_cons_some.mp hr
    rw [hs] at hs'
    cases hs'
    exact hq js j os inp s rest hj' hr

/-- The last step but operations has not chosen a mechanism, and none of these has taken the
program out of `REG_BUSY`. -/
def Pending [BEq R] (item : RegPIDOnfHC R) (js : List (Input R)) : Prop :=
  ∃ (js₀ : List (Input R)) (i : Input R) (os : List (Op R)) (s : RegPIDOnfHC R)
      (out : List (Request R)), js = js₀ ++ i :: os.map .op ∧
    Controller.run step item js₀ = some (s, out) ∧ ¬Chooses s i ∧ ∀ o ∈ os, ¬o.Restarts

theorem run_snoc [BEq R] {item s t : RegPIDOnfHC R} {js : List (Input R)} {i : Input R}
    {out o : List (Request R)} (hr : Controller.run step item js = some (s, out))
    (hs : step s i = some (t, o)) :
    Controller.run step item (js ++ [i]) = some (t, out ++ o) :=
  Controller.run_append_some.mpr ⟨s, out, o, hr,
    Controller.run_cons_some.mpr ⟨t, o, [], hs, rfl, (List.append_nil o).symm⟩, rfl⟩

theorem not_chooses_unnamed [BEq R] {item item' : RegPIDOnfHC R} {i : Input R}
    {out : List (Request R)} (hi : NamesEM item) (hc : ¬Chooses item i)
    (hs : step item i = some (item', out)) : Unnamed item' := by
  obtain ⟨u, o, hu, -, hback⟩ := step_names hi i
  rw [hs] at hu
  cases hu
  have hn := mt hback hc
  rw [Classical.not_imp, not_exists] at hn
  exact hn

/-- A run that chooses in time is defined; where it has come to names a mechanism, or waits for an
operation to take it out of `REG_BUSY`. -/
theorem run_names [BEq R] {item : RegPIDOnfHC R} (hi : NamesEM item) {is : List (Input R)}
    (hq : ChoosesInTime item is) {js : List (Input R)} (hj : js <+: is) :
    ∃ t out, Controller.run step item js = some (t, out) ∧
      (NamesEM t ∨ Unnamed t ∧ Pending item js) := by
  -- induction on the run from its end: what is pending is decided by the last steps
  induction js using List.reverseRecOn with
  | nil => exact ⟨item, [], rfl, Or.inl hi⟩
  | append_singleton js x ih =>
    obtain ⟨t, out, hr, hn | ⟨hu, js₀, i, os, s, out₀, rfl, hr₀, hc, hos⟩⟩ :=
      ih ((List.prefix_append js [x]).trans hj)
    · obtain ⟨t', o, hs, hnames, -⟩ := step_names hn x
      refine ⟨t', out ++ o, run_snoc hr hs, ?_⟩
      by_cases hc : Chooses t x
      · exact Or.inl (hnames hc)
      · exact Or.inr ⟨not_chooses_unnamed hn hc hs, js, x, [], t, out, rfl, hr, hc,
          List.forall_mem_nil _⟩
    · cases x with
      -- the control step that the condition is about
      | control inp => exact absurd (hq js₀ i os inp s out₀ hj hr₀) (by
          rintro (h | ⟨o, ho, h⟩)
          · exact hc h
          · exact hos o ho h)
      | op o =>
        refine ⟨_, _, run_snoc hr rfl, ?_⟩
        by_cases ho : o.Restarts
        · exact Or.inl (op_restarts (w := ⟨t, []⟩) hu.1 ho)
        · refine Or.inr ⟨op_unnamed (w := ⟨t, []⟩) hu ho, js₀, i, os ++ [o], s, out₀, by simp, hr₀,
            hc, fun o' ho' => ?_⟩
          rcases List.mem_append.mp ho' with ho' | ho'
          · exact hos o' ho'
          · rwa [List.mem_singleton.mp ho']

/-- Operations that are no restart leave null pointers null. -/
theorem run_ops_unnamed [BEq R] {item t : RegPIDOnfHC R} (hu : Unnamed item) {os : List (Op R)}
    (hos : ∀ o ∈ os, ¬o.Restarts) {out : List (Request R)}
    (hr : Controller.run step item (os.map .op) = some (t, out)) : Unnamed t := by
  induction os generalizing item out with
  | nil =>
    cases hr
    exact hu
  | cons o os ih =>
    obtain ⟨ho, hos⟩ := List.forall_mem_cons.mp hos
    obtain ⟨s, o', rest, hs, hr, -⟩ := Controller.run_cons_some.mp hr
    cases hs
    exact ih (op_unnamed (w := ⟨item, []⟩) hu ho) hos hr

/-- In a run of a zeroed program every control step is defined, and one that is executed in
`REG_BUSY` finds a mechanism named, exactly if each `REG_INIT` step that finds both mechanisms in
use reads the sensor twice, or finds a mechanism named, or an operation takes the program out of
`REG_BUSY` before the next control step. -/
theorem busy_names_mechanism [BEq R] {item : RegPIDOnfHC R} (hl : Loaded item)
    (is : List (Input R)) :
    (∀ js inp, js ++ [.control inp] <+: is → ∃ t out, Controller.run step item js = some (t, out) ∧
        (t.state = .regBusy → ∃ n : EMName, t.state_r = n.state) ∧
        (step t (.control inp)).isSome = true) ↔ ChoosesInTime item is := by
  constructor
  · intro h js i os inp s out hj hr
    by_contra hno
    obtain ⟨hc, hos⟩ := not_or.mp hno
    -- a step that does not choose starts in `REG_INIT`, and ends with null pointers
    have hn : NamesEM s := by
      cases i with
      | op o => exact absurd trivial hc
      | control inp' =>
        have hs : s.state = .regInit := (Classical.not_imp.mp hc).1
        exact NamesEM.of_state (by simp [hs]) (by simp [hs])
    obtain ⟨t, out', hr', hnamed, -⟩ := h _ inp hj
    obtain ⟨s₀, o₀, o₁, hr₀, hr₁, -⟩ := Controller.run_append_some.mp hr'
    rw [hr] at hr₀
    cases hr₀
    obtain ⟨s', o, rest, hs', hops, -⟩ := Controller.run_cons_some.mp hr₁
    have hu := run_ops_unnamed (not_chooses_unnamed hn hc hs')
      (fun o ho hres => hos ⟨o, ho, hres⟩) hops
    obtain ⟨n, hname⟩ := hnamed hu.1
    exact hu.2 n hname
  · intro hq js inp hj
    have hi : NamesEM item := by
      refine NamesEM.of_state ?_ ?_ <;> rcases hl.state with h | h | h <;> simp [h]
    obtain ⟨t, out, hr, hn | ⟨-, js₀, i, os, s, out₀, rfl, hr₀, hc, hos⟩⟩ :=
      run_names hi hq ((List.prefix_append js _).trans hj)
    · obtain ⟨t', o, hs, -⟩ := step_names hn (.control inp)
      exact ⟨t, out, hr, fun hb => hn (Or.inl hb), by rw [hs]; rfl⟩
    · rcases hq js₀ i os inp s out₀ hj hr₀ with h | ⟨o, ho, h⟩
      · exact absurd h hc
      · exact absurd h (hos o ho)

end

/-- The second read of `REG_INIT` fails, but the program is enabled again before the next control
step, which finds `REG_INIT` and reads twice. -/
theorem busy_names_mechanism_example :
    let is := [Input.control (exampleReading 0 (some 240) none), .op .enable,
      .control (exampleReading 1 (some 240) (some 240)),
      .control (exampleReading 2 (some 240) (some 240))]
    ∀ js inp, js ++ [.control inp] <+: is →
      ∃ t out, Controller.run step (exampleProg .regModeOnf .regModePid) js = some (t, out) ∧
        (t.state = .regBusy → ∃ n : EMName, t.state_r = n.state) ∧
        (step t (.control inp)).isSome = true := by
  intro is
  refine (busy_names_mechanism (exampleProg_loaded .regModeOnf .regModePid) is).mpr ?_
  refine choosesInTime_cons rfl (Or.inr fun os inp hj => ?_) (choosesInTime_cons rfl
    (Or.inl trivial) (choosesInTime_cons rfl (Or.inl fun _ _ _ _ _ => Or.inl rfl)
      (choosesInTime_cons rfl (Or.inl fun _ _ _ _ _ => Or.inl rfl) fun js i os inp s out hj => ?_)))
  · cases os with
    | nil => exact absurd (List.cons_prefix_cons.mp hj).1 (by rintro ⟨⟩)
    | cons o os =>
      obtain ⟨ho, -⟩ := List.cons_prefix_cons.mp hj
      cases ho
      exact ⟨.enable, List.mem_cons_self, trivial⟩
  · have := hj.length_le
    simp at this

/-- The second read of `REG_INIT` fails: the next control step that reads the sensor uses a null
pointer. -/
theorem busy_null_pointer :
    Loaded (exampleProg .regModeOnf .regModeOnf) ∧
    ∃ t out, Controller.run step (exampleProg .regModeOnf .regModeOnf)
        [.control (exampleReading 0 (some 240) none)] = some (t, out) ∧
      t.state = .regBusy ∧ t.state_r = .regOff ∧ (∀ n : EMName, t.state_r ≠ n.state) ∧
      step t (.control (exampleReading 1 (some 240) (some 240))) = none :=
  ⟨exampleProg_loaded _ _, _, _, rfl, rfl, rfl, fun n => by cases n <;> decide, rfl⟩

end Regonf.Regpidonfhc
