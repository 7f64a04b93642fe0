import Mathlib.Algebra.Order.Group.Defs
import Mathlib.Algebra.Order.Group.Unbundled.Basic
import Mathlib.Data.List.Forall2
import Regonf.RegonfhcBusy

/-! Heating and cooling are mirror images in the on-off regulator: with the two mechanisms
exchanged and the goal and the readings negated, it takes the mirror of each step. -/
namespace Regonf

def StateReg.mirror : StateReg → StateReg
  | .regHeater => .regCooler
  | .regCooler => .regHeater
  | s => s

/-- The mode string with `cooler` and `heater` exchanged. -/
def mirrorMode (value : String) : String :=
  if value = REG_EM_MODE_COOLER_STR then REG_EM_MODE_HEATER_STR
  else if value = REG_EM_MODE_HEATER_STR then REG_EM_MODE_COOLER_STR
  else value

theorem mirrorMode_cases (value : String) :
    (value = REG_EM_MODE_COOLER_STR ∧ mirrorMode value = REG_EM_MODE_HEATER_STR) ∨
    (value = REG_EM_MODE_HEATER_STR ∧ mirrorMode value = REG_EM_MODE_COOLER_STR) ∨
    (value ≠ REG_EM_MODE_COOLER_STR ∧ value ≠ REG_EM_MODE_HEATER_STR ∧
      mirrorMode value = value) := by
  unfold mirrorMode
  split_ifs with h₁ h₂
  · exact Or.inl ⟨h₁, rfl⟩
  · exact Or.inr (Or.inl ⟨h₂, rfl⟩)
  · exact Or.inr (Or.inr ⟨h₁, h₂, rfl⟩)

@[simp] theorem EMName.state_mirror (n : EMName) : n.state.mirror = n.other.state := by
  cases n <;> rfl

variable {R : Type*}

def RegSecure.mirror (sec : RegSecure R) : RegSecure R :=
  { sec with
    heater_duty_cycle := sec.cooler_duty_cycle
    cooler_duty_cycle := sec.heater_duty_cycle }

def Request.mirror : Request R → Request R
  | .getFTS s dst => .getFTS s dst
  | .setFloat n v dst => .setFloat n.other v dst

/-- The two sides agree on whether `REG_BUSY` works with a mechanism. -/
theorem busy_with_mirror {item : RegOnfHC R} {r : StateReg}
    (hr : item.state.ignoresR = false → r = item.state_r.mirror) (n : EMName) :
    (item.state = .regBusy ∧ r = n.other.state) ↔
      (item.state = .regBusy ∧ item.state_r = n.state) := by
  refine and_congr_right fun hb => ?_
  rw [hr (by simp [StateReg.ignoresR, hb])]
  cases item.state_r <;> cases n <;> decide

section
variable [Neg R]

def FTS.neg (f : FTS R) : FTS R := { f with value := -f.value }

def SensorFTS.neg (s : SensorFTS R) : SensorFTS R := { s with value := s.value.neg }

def Reply.neg : Reply R → Reply R
  | .timeout => .timeout
  | .refused src => .refused src
  | .value src f => .value src f.neg

/-- The mirror of a regulator. The green light compares its own value and keeps it. -/
def RegOnfHC.mirror (item : RegOnfHC R) : RegOnfHC R :=
  { item with
    sensor := item.sensor.neg
    heater := item.cooler
    cooler := item.heater
    goal := -item.goal
    secure_out := item.secure_out.mirror
    state_r := item.state_r.mirror }

def ControlInput.mirror (inp : ControlInput R) : ControlInput R :=
  { inp with snsr := inp.snsr.neg }

def Op.mirror : Op R → Op R
  | .enable => .enable
  | .disable => .disable
  | .setCoolerDelta v => .setHeaterDelta v
  | .setHeaterDelta v => .setCoolerDelta v
  | .setGoal v => .setGoal (-v)
  | .setChangeGap v => .setChangeGap v
  | .setEMMode v => .setEMMode (mirrorMode v)
  | .setHeaterPower v => .setCoolerPower v
  | .setCoolerPower v => .setHeaterPower v
  | .turnOff => .turnOff
  | .secureOutTouch => .secureOutTouch

def Input.mirror : Input R → Input R
  | .control inp => .control inp.mirror
  | .op o => .op o.mirror

/-- `b` is the mirror of `a`, except for `state_r` in the states that do not use it. -/
structure Mirrors (a b : RegOnfHC R) : Prop where
  item : b = { a.mirror with state_r := b.state_r }
  state_r : a.state.ignoresR = false → b.state_r = a.state_r.mirror

theorem mirrors_mirror (a : RegOnfHC R) : Mirrors a a.mirror := ⟨rfl, fun _ => rfl⟩

@[simp] theorem Reply.neg_isSome (r : Reply R) : r.neg.fts?.isSome = r.fts?.isSome := by
  cases r <;> rfl

@[simp] theorem readSensorFTS_neg (s : SensorFTS R) (r : Reply R) :
    readSensorFTS s.neg r.neg = (readSensorFTS s r).neg := by
  cases r <;> rfl

omit [Neg R] in
@[simp] theorem regSecureNeed_mirror (sec : RegSecure R) (first now : Timespec) :
    regSecureNeed sec.mirror first now =
      ((regSecureNeed sec first now).1, (regSecureNeed sec first now).2.mirror) := by
  unfold regSecureNeed RegSecure.mirror
  dsimp only
  split_ifs <;> rfl

/-- The wire `w'` carries the mirror of `w`, with `state_r` at `r`; its messages are the
mirrored messages in some order. -/
structure MirrorAt (r : StateReg) (w w' : Wire R) : Prop where
  item : w'.item = { w.item.mirror with state_r := r }
  sent : w'.sent.Perm (w.sent.map Request.mirror)

namespace MirrorAt

variable {r : StateReg} {w w' : Wire R}

theorem upd {r' : StateReg} (h : MirrorAt r w w') {f g : RegOnfHC R → RegOnfHC R}
    (hfg : ∀ i, g { i.mirror with state_r := r } = { (f i).mirror with state_r := r' }) :
    MirrorAt r' (w.upd f) (w'.upd g) :=
  ⟨by rw [Wire.upd_item, h.item, hfg]; rfl, h.sent⟩

theorem state_r (h : MirrorAt r w w') : w'.item.state_r = r := by rw [h.item]

theorem timer (h : MirrorAt r w w') (t : TonTs) :
    MirrorAt r (w.upd fun i => { i with tmr := t }) (w'.upd fun i => { i with tmr := t }) :=
  h.upd fun _ => rfl

theorem em (h : MirrorAt r w w') (n : EMName) : w'.item.em n.other = w.item.em n := by
  rw [h.item]
  cases n <;> rfl

theorem controlEM (h : MirrorAt r w w') (n : EMName) (v : R) :
    MirrorAt r (controlEM w n v) (controlEM w' n.other v) := by
  have he := h.em n
  cases hu : (w.item.em n).use with
  | false =>
    rw [controlEM_of_not_use hu, controlEM_of_not_use (he ▸ hu)]
    exact h
  | true =>
    rw [controlEM_of_use hu, controlEM_of_use (he ▸ hu), he]
    refine ⟨?_, ?_⟩
    · dsimp only
      rw [h.item]
      cases n <;> rfl
    · simpa only [List.map_append, List.map_cons, List.map_nil, Request.mirror] using
        h.sent.append_right _

/-- Commands to both mechanisms, whichever comes first on either side. -/
theorem both (h : MirrorAt r w w') (a b : R) :
    MirrorAt r (Regonf.controlEM (Regonf.controlEM w .heater a) .cooler b)
      (Regonf.controlEM (Regonf.controlEM w' .heater b) .cooler a) := by
  obtain ⟨hi, hs⟩ := (h.controlEM .heater a).controlEM .cooler b
  obtain ⟨hi', hs'⟩ := controlEM_comm w' a b
  exact ⟨hi'.symm.trans hi, hs'.symm.trans hs⟩

theorem both_rev (h : MirrorAt r w w') (a b : R) :
    MirrorAt r (Regonf.controlEM (Regonf.controlEM w .cooler a) .heater b)
      (Regonf.controlEM (Regonf.controlEM w' .cooler b) .heater a) := by
  obtain ⟨hi, hs⟩ := (h.controlEM .cooler a).controlEM .heater b
  obtain ⟨hi', hs'⟩ := controlEM_comm w' b a
  exact ⟨hi'.trans hi, hs'.trans hs⟩

theorem readSensor (h : MirrorAt r w w') (p : Reply R) :
    MirrorAt r (readSensor w p) (readSensor w' p.neg) := by
  refine ⟨?_, ?_⟩
  · simp only [Regonf.readSensor, h.item, RegOnfHC.mirror, readSensorFTS_neg]
  · have hs := h.sent.append_right [.getFTS .sensor w.item.sensor.peer.addr]
    have ha : w'.item.sensor.peer.addr = w.item.sensor.peer.addr := by rw [h.item]; rfl
    simpa only [Regonf.readSensor, ha, List.map_append, List.map_cons, List.map_nil,
      Request.mirror] using hs

theorem greenLight [BEq R] (h : MirrorAt r w w') (p : Reply R) :
    (greenLightIsGreen w' p).1 = (greenLightIsGreen w p).1 ∧
      MirrorAt r (greenLightIsGreen w p).2 (greenLightIsGreen w' p).2 := by
  have hg : w'.item.green_light = w.item.green_light := by rw [h.item]; rfl
  unfold greenLightIsGreen
  dsimp only
  rw [hg]
  split_ifs
  · refine ⟨rfl, ?_, ?_⟩
    · rw [h.item]
      rfl
    · have hs := h.sent.append_right
        [.getFTS .greenLight w.item.green_light.sensor.peer.addr]
      simpa only [List.map_append, List.map_cons, List.map_nil, Request.mirror] using hs
  · exact ⟨rfl, h⟩

theorem secure (h : MirrorAt r w w') (inp : ControlInput R) :
    MirrorAt r (busySecure w inp) (busySecure w' inp.mirror) := by
  refine ⟨?_, h.sent⟩
  have hs : w'.item.secure_out = w.item.secure_out.mirror := by rw [h.item]; rfl
  simp only [busySecure, Wire.upd_item, hs, ControlInput.mirror, regSecureNeed_mirror]
  rw [h.item]
  rfl

theorem inSecure (h : MirrorAt r w w') (inp : ControlInput R) :
    MirrorAt r (controlSecure w inp) (controlSecure w' inp.mirror) := by
  have hs : w'.item.secure_out = w.item.secure_out.mirror := by rw [h.item]; rfl
  have hb := h.both w.item.secure_out.heater_duty_cycle w.item.secure_out.cooler_duty_cycle
  simp only [controlSecure, controlEM_frame, hs, ControlInput.mirror, regSecureNeed_mirror]
  exact hb.upd fun _ => rfl

section
variable [Zero R]

theorem failed (h : MirrorAt r w w') : MirrorAt r (busyFailed w) (busyFailed w') := by
  have hc : w'.item.snsrf_count = w.item.snsrf_count := by rw [h.item]; rfl
  unfold busyFailed
  dsimp only
  rw [hc]
  split_ifs
  · exact (h.both 0 0).upd fun _ => rfl
  · exact h.upd fun _ => rfl

theorem inDisable (h : MirrorAt r w w') :
    MirrorAt .regOff (controlDisable w) (controlDisable w') := by
  unfold controlDisable
  exact (h.both 0 0).upd fun _ => rfl

theorem reset (h : MirrorAt r w w') : MirrorAt .regHeater (initReset w) (initReset w') := by
  unfold initReset
  have h₁ : MirrorAt .regHeater
      (w.upd fun i => { i with tmr := { i.tmr with ready := false }, state_r := .regHeater })
      (w'.upd fun i => { i with tmr := { i.tmr with ready := false }, state_r := .regHeater }) :=
    h.upd fun _ => rfl
  exact (h₁.both 0 0).upd fun _ => rfl

end

end MirrorAt

end

section
variable [Zero R] [Neg R]

theorem setEMMode_mirror {w w' : Wire R} {r : StateReg} (h : MirrorAt r w w') (v : String) :
    MirrorAt r (regonfhcSetEMMode w v) (regonfhcSetEMMode w' (mirrorMode v)) := by
  unfold regonfhcSetEMMode
  refine MirrorAt.upd ?_ fun _ => rfl
  have hne : REG_EM_MODE_HEATER_STR ≠ REG_EM_MODE_COOLER_STR := by decide
  rcases mirrorMode_cases v with ⟨rfl, hv⟩ | ⟨rfl, hv⟩ | ⟨h₁, h₂, hv⟩
  · rw [hv, if_pos rfl, if_neg hne, if_pos rfl]
    exact (h.controlEM .heater 0).upd fun _ => rfl
  · rw [hv, if_neg hne, if_pos rfl, if_pos rfl]
    exact (h.controlEM .cooler 0).upd fun _ => rfl
  · rw [hv, if_neg h₁, if_neg h₂, if_neg h₁, if_neg h₂]
    split_ifs
    · exact h.upd fun _ => rfl
    · exact (h.both 0 0).upd fun _ => rfl

/-- One operation and its mirror. -/
theorem op_mirror {w w' : Wire R} {r : StateReg} (h : MirrorAt r w w')
    (hr : w.item.state.ignoresR = false → r = w.item.state_r.mirror) (o : Op R) :
    MirrorAt r (applyOp w o) (applyOp w' o.mirror) := by
  have hc := busy_with_mirror hr .cooler
  have hh := busy_with_mirror hr .heater
  simp only [EMName.other, EMName.state] at hc hh
  cases o <;> dsimp only [applyOp, Op.mirror]
  case setCoolerDelta v =>
    refine ⟨?_, h.sent⟩
    simp only [Wire.upd_item, h.item, regonfhcSetHeaterDelta, regonfhcSetCoolerDelta,
      RegOnfHC.mirror, hc]
  case setHeaterDelta v =>
    refine ⟨?_, h.sent⟩
    simp only [Wire.upd_item, h.item, regonfhcSetHeaterDelta, regonfhcSetCoolerDelta,
      RegOnfHC.mirror, hh]
  case setEMMode v => exact setEMMode_mirror h v
  case setHeaterPower v => exact (h.controlEM .heater v).upd fun _ => rfl
  case setCoolerPower v => exact (h.controlEM .cooler v).upd fun _ => rfl
  case turnOff =>
    have h₁ : MirrorAt r (w.upd fun i => { i with state := .regOff })
        (w'.upd fun i => { i with state := .regOff }) := h.upd fun _ => rfl
    exact h₁.both_rev 0 0
  all_goals exact h.upd fun _ => rfl

end

/-- What the mirror asks of the arithmetic. A value that compares with no other one, as the NaN of
`float` does, may be among them. -/
class Mirrorable (R : Type*) [Neg R] [Add R] [Sub R] [LT R] : Prop where
  neg_lt_neg (a b : R) : -a < -b ↔ b < a
  neg_add (a b : R) : -a + b = -(a - b)
  neg_sub (a b : R) : -a - b = -(a + b)
  asymm {a b : R} : a < b → ¬b < a

instance {R : Type*} [AddCommGroup R] [LinearOrder R] [IsOrderedAddMonoid R] : Mirrorable R where
  neg_lt_neg _ _ := neg_lt_neg_iff
  neg_add a b := by rw [← neg_add_eq_sub, neg_add_rev, neg_neg, add_comm]
  neg_sub a b := (neg_add' a b).symm
  asymm h := h.not_gt

variable [Neg R] [Add R] [Sub R] [LT R] [DecidableLT R] [Mirrorable R]

/-- The thresholds of a mechanism are those of the other one in the mirror. -/
theorem thresholds_mirror (item : RegOnfHC R) (r : StateReg) (n : EMName) :
    valIsOut { item.mirror with state_r := r } n.other = valIsOut item n ∧
      valIsLow { item.mirror with state_r := r } n.other = valIsLow item n := by
  cases n <;>
    simp only [valIsOut, valIsLow, RegOnfHC.mirror, SensorFTS.neg, FTS.neg, EMName.other,
      gt_iff_lt, Mirrorable.neg_sub, Mirrorable.neg_add, Mirrorable.neg_lt_neg, and_self]

/-- The value is above the goal or below it: it is not the goal, and compares with it. -/
def RegOnfHC.OffGoal (item : RegOnfHC R) (v : R) : Prop := v < item.goal ∨ item.goal < v

/-- With two mechanisms in use, a reading that is neither above the goal nor below it chooses the
heater on either side. -/
theorem initChoice_mirror {item : RegOnfHC R} (r : StateReg)
    (ht : item.heater.use = true → item.cooler.use = true →
      item.OffGoal item.sensor.value.value) :
    initChoice { item.mirror with state_r := r } = (initChoice item).map EMName.other := by
  unfold initChoice
  simp only [RegOnfHC.mirror, SensorFTS.neg, FTS.neg, gt_iff_lt, Mirrorable.neg_lt_neg]
  by_cases hb : item.heater.use = true ∧ item.cooler.use = true
  · obtain ⟨hh, hc⟩ := hb
    -- one of the two strict comparisons holds, and then the other one in the mirror
    rcases ht hh hc with hlt | hgt
    · simp [hh, hc, hlt, Mirrorable.asymm hlt, EMName.other]
    · simp [hh, hc, hgt, Mirrorable.asymm hgt, EMName.other]
  · by_cases hh : item.heater.use = true <;> by_cases hc : item.cooler.use = true <;>
      simp_all [EMName.other]

variable [Zero R]

theorem busyOnf_mirror (item : RegOnfHC R) (r : StateReg) (m : EMName) :
    busyOnf { item.mirror with state_r := r } m.other =
      { (busyOnf item m).mirror with state_r := r } := by
  obtain ⟨ho, hl⟩ := thresholds_mirror item r m
  unfold busyOnf
  rw [ho, hl]
  have hs : ({ item.mirror with state_r := r } : RegOnfHC R).state_onf = item.state_onf := rfl
  rw [hs]
  split <;> cases m <;> rfl

namespace MirrorAt

variable {r : StateReg} {w w' : Wire R}

theorem drive (h : MirrorAt r w w') (m : EMName) :
    MirrorAt r (busyDrive w m) (busyDrive w' m.other) := by
  have h₁ : MirrorAt r (w.upd fun i => busyOnf i m) (w'.upd fun i => busyOnf i m.other) :=
    h.upd fun i => busyOnf_mirror i r m
  have ho : (w'.upd fun i => busyOnf i m.other).item.output =
      (w.upd fun i => busyOnf i m).item.output := by rw [h₁.item]; rfl
  unfold busyDrive
  dsimp only
  rw [ho]
  exact (h₁.controlEM m _).controlEM m.other 0

/-- A handover happens on both sides or on neither; `m` is the mechanism named after it. -/
theorem change {n : EMName} (h : MirrorAt n.other.state w w')
    (hn : w.item.state_r = n.state) (inp : ControlInput R) :
    ∃ m : EMName, (busyChange w n inp).item.state_r = m.state ∧
      MirrorAt m.other.state (busyChange w n inp) (busyChange w' n.other inp.mirror) := by
  have ho : valIsOut w'.item n.other = valIsOut w.item n := by
    rw [h.item]
    exact (thresholds_mirror w.item _ n).1
  have hu : (w'.item.em n.other.other).use = (w.item.em n.other).use := by
    rw [← h.em n.other]
  have ht : w'.item.tmr = w.item.tmr := by rw [h.item]; rfl
  have hg : w'.item.change_gap = w.item.change_gap := by rw [h.item]; rfl
  simp only [busyChange, ControlInput.mirror, ho, hu, ht, hg]
  split_ifs
  · refine ⟨n.other, by simp, controlEM ?_ n 0⟩
    exact (h.timer _).upd fun _ => rfl
  · exact ⟨n, hn, h.timer _⟩
  · exact ⟨n, hn, h.upd fun _ => rfl⟩

theorem initDone (h : MirrorAt r w w')
    (ht : w.item.heater.use = true → w.item.cooler.use = true →
      w.item.OffGoal w.item.sensor.value.value) :
    ∃ s, MirrorAt s (controlInitDone w) (controlInitDone w') ∧
      ((controlInitDone w).item.state.ignoresR = false →
        s = (controlInitDone w).item.state_r.mirror) := by
  have h₁ := h.reset
  have hc : initChoice (initReset w').item =
      (initChoice (initReset w).item).map EMName.other := by
    rw [h₁.item]
    refine initChoice_mirror _ ?_
    simpa [initReset, RegOnfHC.OffGoal] using ht
  unfold controlInitDone
  dsimp only
  rw [hc]
  cases initChoice (initReset w).item with
  | none => exact ⟨.regHeater, h₁.upd fun _ => rfl, fun hs => by simp [StateReg.ignoresR] at hs⟩
  | some n => exact ⟨n.other.state, h₁.upd fun _ => rfl, fun _ => by simp⟩

theorem regulate {n : EMName} (h : MirrorAt n.other.state w w')
    (hn : w.item.state_r = n.state) (inp : ControlInput R) :
    ∃ v v', ∃ m : EMName, busyRegulate w inp = some v ∧ busyRegulate w' inp.mirror = some v' ∧
      v.item.state_r = m.state ∧ MirrorAt m.other.state v v' := by
  obtain ⟨m, hm, h₁⟩ := h.change hn inp
  refine ⟨_, _, m, busyRegulate_of_state_r hn hm,
    busyRegulate_of_state_r h.state_r h₁.state_r, ?_, (h₁.drive m).secure inp⟩
  simp [hm]

/-- `REG_BUSY` with `state_r` naming a mechanism. -/
theorem busy {n : EMName} (h : MirrorAt n.other.state w w') (hn : w.item.state_r = n.state)
    (inp : ControlInput R) :
    ∃ v v', ∃ m : EMName, controlBusy w inp = some v ∧ controlBusy w' inp.mirror = some v' ∧
      v.item.state_r = m.state ∧ MirrorAt m.other.state v v' := by
  have h₁ : MirrorAt n.other.state (Regonf.readSensor w inp.snsr)
      (Regonf.readSensor w' inp.mirror.snsr) := h.readSensor inp.snsr
  have hf : inp.mirror.snsr.fts?.isSome = inp.snsr.fts?.isSome := Reply.neg_isSome _
  unfold controlBusy
  dsimp only
  rw [hf]
  cases inp.snsr.fts?.isSome with
  | false =>
    have hr := (busyFailed_frame (Regonf.readSensor w inp.snsr)).2.1
    exact ⟨_, _, n, rfl, rfl, by simp [hr, hn], h₁.failed⟩
  | true =>
    have h₂ : MirrorAt n.other.state
        ((Regonf.readSensor w inp.snsr).upd fun i => { i with snsrf_count := 0 })
        ((Regonf.readSensor w' inp.mirror.snsr).upd fun i => { i with snsrf_count := 0 }) :=
      h₁.upd fun _ => rfl
    exact h₂.regulate (by simpa using hn) inp

end MirrorAt

/-- A `REG_INIT` step with both mechanisms in use reads a value above the goal or below it. -/
def ReadsOffGoal [BEq R] (item : RegOnfHC R) : Input R → Prop
  | .control inp => item.state = .regInit → item.heater.use = true → item.cooler.use = true →
      (greenLightIsGreen ⟨item, []⟩ inp.green).1 = true →
      ∀ f, inp.snsr.fts? = some f → item.OffGoal f.value
  | .op _ => True

theorem init_mirror [BEq R] {w w' : Wire R} {r : StateReg} {inp : ControlInput R}
    (h : MirrorAt r w w') (hs : w.item.state = .regInit)
    (ht : w.item.heater.use = true → w.item.cooler.use = true →
      (greenLightIsGreen w inp.green).1 = true →
      ∀ f, inp.snsr.fts? = some f → w.item.OffGoal f.value) :
    ∃ s, MirrorAt s (controlInit w inp) (controlInit w' inp.mirror) ∧
      ((controlInit w inp).item.state.ignoresR = false →
        s = (controlInit w inp).item.state_r.mirror) := by
  obtain ⟨hg, h₁⟩ := h.greenLight inp.green
  have hi := greenLightIsGreen_item w inp.green
  have hn : inp.mirror.snsr.fts?.isNone = inp.snsr.fts?.isNone := by
    cases hf : inp.snsr <;> simp [ControlInput.mirror, hf, Reply.neg, Reply.fts?]
  have hd : (greenLightIsGreen w' inp.mirror.green) = greenLightIsGreen w' inp.green := rfl
  unfold controlInit
  dsimp only
  rw [hd, hg, hn]
  split_ifs with hgreen hnone
  · exact ⟨r, h₁, fun hr => by rw [hi] at hr; simp [StateReg.ignoresR, hs] at hr⟩
  · refine ⟨r, h₁.readSensor inp.snsr, fun hr => ?_⟩
    rw [(readSensor_frame _ _).2.2.2.2.1, hi] at hr
    simp [StateReg.ignoresR, hs] at hr
  · refine (h₁.readSensor inp.snsr).initDone ?_
    obtain ⟨f, hf⟩ : ∃ f, inp.snsr.fts? = some f := by
      cases hf : inp.snsr.fts? with
      | none => simp [hf] at hnone
      | some f => exact ⟨f, rfl⟩
    have hno := fun hh hc => ht hh hc (by simpa using hgreen) f hf
    simp only [readSensor]
    rw [hi]
    simpa [readSensorFTS, hf, RegOnfHC.OffGoal] using hno

/-- One call of the control function and its mirror. -/
theorem control_mirror [BEq R] {w w' : Wire R} {r : StateReg} {inp : ControlInput R}
    (h : MirrorAt r w w') (hr : w.item.state.ignoresR = false → r = w.item.state_r.mirror)
    (hi : NamesEM w.item)
    (ht : w.item.state = .regInit → w.item.heater.use = true → w.item.cooler.use = true →
      (greenLightIsGreen w inp.green).1 = true →
      ∀ f, inp.snsr.fts? = some f → w.item.OffGoal f.value) :
    ∃ v v' s, regonfhcControl w inp = some v ∧ regonfhcControl w' inp.mirror = some v' ∧
      MirrorAt s v v' ∧ (v.item.state.ignoresR = false → s = v.item.state_r.mirror) := by
  have hst : w'.item.state = w.item.state := by rw [h.item]; rfl
  unfold regonfhcControl
  rw [hst]
  split
  · rename_i hs
    obtain ⟨s, hm, hs'⟩ := init_mirror h hs (ht hs)
    exact ⟨_, _, s, rfl, rfl, hm, hs'⟩
  · rename_i hs
    obtain ⟨⟨n, hn⟩, -⟩ := hi (Or.inl hs)
    have hrn : r = n.other.state := by
      rw [hr (by simp [StateReg.ignoresR, hs]), hn, EMName.state_mirror]
    rw [hrn] at h
    obtain ⟨v, v', m, hv, hv', hm, h'⟩ := h.busy hn inp
    exact ⟨v, v', _, hv, hv', h', fun _ => by rw [hm, EMName.state_mirror]⟩
  · rename_i hs
    refine ⟨_, _, r, rfl, rfl, h.inSecure inp, fun _ => ?_⟩
    rw [hr (by simp [StateReg.ignoresR, hs])]
    simp [controlSecure]
  · exact ⟨_, _, .regOff, rfl, rfl, h.inDisable, fun hs => by
      simp [controlDisable, StateReg.ignoresR] at hs⟩
  · exact ⟨_, _, r, rfl, rfl, h, hr⟩
  · exact ⟨_, _, r, rfl, rfl, h.upd fun _ => rfl, fun hs => by simp [StateReg.ignoresR] at hs⟩

variable [BEq R]

/-- One step and its mirror, from any state that names a mechanism while it regulates. -/
theorem step_mirror {a b : RegOnfHC R} {i : Input R} (hm : Mirrors a b) (hi : NamesEM a)
    (ht : ReadsOffGoal a i) :
    ∃ a' o b' o', step a i = some (a', o) ∧ step b i.mirror = some (b', o') ∧
      Mirrors a' b' ∧ o'.Perm (o.map Request.mirror) := by
  have h : MirrorAt b.state_r ⟨a, []⟩ ⟨b, []⟩ := ⟨hm.item, List.Perm.nil⟩
  cases i with
  | control inp =>
    obtain ⟨v, v', s, hv, hv', hs, hr⟩ := control_mirror h hm.state_r hi ht
    refine ⟨v.item, v.sent, v'.item, v'.sent, by simp [step, hv], by simp [step, Input.mirror, hv'],
      ⟨by rw [hs.item], fun hu => by rw [hs.state_r, hr hu]⟩, hs.sent⟩
  | op o =>
    have h' := op_mirror h hm.state_r o
    refine ⟨_, _, _, _, rfl, rfl, ⟨by rw [h'.item], fun hu => ?_⟩, h'.sent⟩
    obtain ⟨hu', hr⟩ := op_state_r ⟨a, []⟩ hu
    rw [h'.state_r, hr]
    exact hm.state_r hu'

theorem batched_mirror {a b a' : RegOnfHC R} {i : Input R} {out : List (List (Request R))}
    (hm : Mirrors a b) (hi : NamesEM a) (ht : ReadsOffGoal a i)
    (hs : Controller.batched step a i = some (a', out)) :
    ∃ b' out', Controller.batched step b i.mirror = some (b', out') ∧
      (Mirrors a' b' ∧ NamesEM a') ∧
      List.Forall₂ (fun o o' => o'.Perm (o.map Request.mirror)) out out' := by
  obtain ⟨o, ho, rfl⟩ := Controller.batched_some.mp hs
  obtain ⟨_, _, b', o', h₁, h₂, hm', hp⟩ := step_mirror hm hi ht
  rw [ho] at h₁
  cases h₁
  exact ⟨b', [o'], Controller.batched_some.mpr ⟨o', h₂, rfl⟩, ⟨hm', step_names hi ho⟩,
    List.Forall₂.cons hp List.Forall₂.nil⟩

/-- The mirrored program takes the mirror of every step of a loaded program, and of every run
in which every reading of a `REG_INIT` step with both mechanisms in use compares with the goal and
is not the goal. -/
theorem regonfhc_symmetric {item t : RegOnfHC R} {is : List (Input R)}
    {out : List (List (Request R))} (hl : Loaded item)
    (hr : Controller.run (Controller.batched step) item is = some (t, out)) :
    (∀ i, ReadsOffGoal t i → ∃ t' o b o', step t i = some (t', o) ∧
      step t.mirror i.mirror = some (b, o') ∧ Mirrors t' b ∧
      o'.Perm (o.map Request.mirror)) ∧
    (Controller.Along (Controller.batched step) (fun s _ i => ReadsOffGoal s i) item [] is →
      ∃ b out', Controller.run (Controller.batched step) item.mirror (is.map Input.mirror) =
          some (b, out') ∧ Mirrors t b ∧
        List.Forall₂ (fun o o' => o'.Perm (o.map Request.mirror)) out out') := by
  have hnames : NamesEM item := NamesEM.of_not hl.not_regulating
  refine ⟨fun i ht => ?_, fun hc => ?_⟩
  · have hi : NamesEM t := by
      refine Controller.run_invariant (P := fun _ => True) (I := fun s _ => NamesEM s) (h := [])
        ?_ hnames (fun _ _ => trivial) hr
      intro s h i s' o hs _ hstep
      obtain ⟨o', ho, -⟩ := Controller.batched_some.mp hstep
      exact step_names hs ho
    exact step_mirror (mirrors_mirror t) hi ht
  · obtain ⟨b, out', h₁, ⟨hm, -⟩, h₂⟩ := Controller.run_simulates
      (E := fun i i' => i' = Input.mirror i) (S := fun a b => Mirrors a b ∧ NamesEM a)
      (O := List.Forall₂ fun (o o' : List (Request R)) => o'.Perm (o.map Request.mirror))
      List.Forall₂.nil (fun _ _ _ _ h h' => List.rel_append h h')
      (fun a b _ i _ a' o hm ht he hs => he ▸ batched_mirror hm.1 hm.2 ht hs)
      ⟨mirrors_mirror item, hnames⟩
      (List.forall₂_map_right_iff.mpr (List.forall₂_same.mpr fun _ _ => rfl)) hc hr
    exact ⟨b, out', h₁, hm, h₂⟩

/-- The last theorem on a run that powers the heater: its mirror powers the cooler. -/
theorem regonfhc_symmetric_example :
    let is := [exampleControl 0 (some 240), exampleControl 1 (some 240),
      exampleControl 2 (some 240)]
    ∃ t out b out', Controller.run (Controller.batched step) exampleProg is = some (t, out) ∧
      Controller.run (Controller.batched step) exampleProg.mirror (is.map Input.mirror) =
        some (b, out') ∧
      List.Forall₂ (fun o o' => o'.Perm (o.map Request.mirror)) out out' ∧
      t.heater.output = 1000 ∧ b.cooler.output = 1000 := by
  intro is
  have hr : Controller.run (Controller.batched step) exampleProg is = some (_, _) := rfl
  have hc : Controller.Along (Controller.batched step) (fun s _ i => ReadsOffGoal s i)
      exampleProg [] is := by
    refine Controller.along_cons rfl ?_ (Controller.along_cons rfl ?_
      (Controller.along_cons rfl ?_ trivial))
    · rintro - - - - f ⟨⟩
      exact Or.inl (by decide)
    · exact fun hs => absurd hs (by decide)
    · exact fun hs => absurd hs (by decide)
  obtain ⟨b, out', h₁, h₂, h₃⟩ := (regonfhc_symmetric exampleProg_loaded hr).2 hc
  refine ⟨_, _, b, out', hr, h₁, h₃, rfl, ?_⟩
  rw [h₂.item]
  rfl

/-- Whole numbers with a NaN, which compares with nothing and is not equal to itself. -/
inductive NumOrNaN where
  | nan
  | num (v : ℤ)
deriving DecidableEq, Repr

namespace NumOrNaN

def lift (f : ℤ → ℤ → ℤ) : NumOrNaN → NumOrNaN → NumOrNaN
  | num a, num b => num (f a b)
  | _, _ => nan

instance : Zero NumOrNaN := ⟨num 0⟩
instance : Add NumOrNaN := ⟨lift (· + ·)⟩
instance : Sub NumOrNaN := ⟨lift (· - ·)⟩

instance : Neg NumOrNaN where
  neg
    | num a => num (-a)
    | nan => nan

instance : BEq NumOrNaN where
  beq
    | num a, num b => a == b
    | _, _ => false

instance : LT NumOrNaN where
  lt
    | num a, num b => a < b
    | _, _ => False

instance : DecidableLT NumOrNaN
  | num a, num b => inferInstanceAs (Decidable (a < b))
  | num _, nan | nan, _ => inferInstanceAs (Decidable False)

theorem num_lt_num (a b : ℤ) : num a < num b ↔ a < b := Iff.rfl

instance : Mirrorable NumOrNaN where
  neg_lt_neg
    | num a, num b => neg_lt_neg_iff (a := a) (b := b)
    | num _, nan | nan, num _ | nan, nan => Iff.rfl
  neg_add
    | num a, num b => congrArg num (show -a + b = -(a - b) by omega)
    | num _, nan | nan, num _ | nan, nan => rfl
  neg_sub
    | num a, num b => congrArg num (show -a - b = -(a + b) by omega)
    | num _, nan | nan, num _ | nan, nan => rfl
  asymm {a b} h := by
    cases a with
    | nan => exact h.elim
    | num a =>
      cases b with
      | nan => exact h.elim
      | num b => exact (num_lt_num b a).not.mpr (lt_asymm ((num_lt_num a b).mp h))

end NumOrNaN

/-- The example program with these values, and a goal of 250. -/
def nanProg : RegOnfHC NumOrNaN :=
  let peer : Peer := ⟨⟨0x7f000001, 49178⟩⟩
  let never : Timespec := ⟨0, 0⟩
  let em (id : ℤ) : RegOnfHCEM NumOrNaN :=
    { em := ⟨id, id, peer, 0, .num 1000⟩, delta := .num 5, output := 0, use := true }
  let sensor (id : ℤ) : SensorFTS NumOrNaN := ⟨id, id, peer, ⟨0, 0, never, 0⟩⟩
  { sensor := sensor 1, heater := em 1, cooler := em 2, goal := .num 250, change_gap := ⟨1800, 0⟩
    secure_out := ⟨0, false, never, 0, 0, ⟨never, false⟩, false, 0⟩
    green_light := ⟨sensor 0, .num 1, false⟩
    state := .regInit, state_r := .regOff, state_onf := .regOff
    output := 0, snsrf_count := 0, tmr := ⟨never, false⟩ }

/-- A control step whose sensor answers `nan`. -/
def nanReading : ControlInput NumOrNaN where
  green := .timeout
  snsr := .value ⟨0x7f000001, 49178⟩ ⟨1, .nan, ⟨0, 0⟩, 1⟩
  gapFirst := ⟨0, 0⟩
  gapNow := ⟨0, 0⟩
  secFirst := ⟨0, 0⟩
  secNow := ⟨0, 0⟩

/-- A reading that is not a number is not equal to the goal, and makes `REG_INIT` choose the heater
in the program and in its mirror. -/
theorem nan_reading_not_mirrored :
    Loaded nanProg ∧ (NumOrNaN.nan == nanProg.goal) = false ∧
      ∃ t o b o', step nanProg (.control nanReading) = some (t, o) ∧
        step nanProg.mirror (Input.mirror (.control nanReading)) = some (b, o') ∧
        t.state_r = .regHeater ∧ b.state_r = .regHeater ∧ ¬Mirrors t b := by
  refine ⟨⟨Or.inl rfl, rfl, rfl, rfl, rfl, rfl, rfl, rfl, rfl, rfl, rfl⟩, rfl, _, _, _, _, rfl, rfl,
    rfl, rfl, fun h => ?_⟩
  have hr := h.state_r rfl
  cases hr

end Regonf
