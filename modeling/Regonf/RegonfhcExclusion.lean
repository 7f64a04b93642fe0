import Regonf.RegonfhcOutputs
import Regonf.RegonfhcUnsecured

/-! With the watchdog off and no manual power, the heater and the cooler are never powered
together, at any point between two messages. -/
namespace Regonf

variable {R : Type*} [Zero R]

/-- At every point of the history one of the mechanisms was last commanded 0. -/
def NeverBoth (h : List (Request R)) : Prop :=
  ∀ p, p <+: h → commanded .heater p = 0 ∨ commanded .cooler p = 0

namespace NeverBoth

variable {h : List (Request R)} {w : Wire R}

theorem nil : NeverBoth ([] : List (Request R)) := by
  intro p hp
  rw [List.prefix_nil.mp hp]
  exact Or.inl rfl

theorem concat {r : Request R} (hb : NeverBoth h)
    (hr : commanded .heater (h ++ [r]) = 0 ∨ commanded .cooler (h ++ [r]) = 0) :
    NeverBoth (h ++ [r]) := by
  intro p hp
  rcases List.prefix_concat_iff.mp hp with rfl | hp
  · exact hr
  · exact hb p hp

theorem controlEM {n : EMName} {v : R} (hb : NeverBoth (h ++ w.sent))
    (hv : v = 0 ∨ commanded n.other (h ++ w.sent) = 0) :
    NeverBoth (h ++ (controlEM w n v).sent) := by
  cases hu : (w.item.em n).use with
  | false => rwa [controlEM_of_not_use hu]
  | true =>
    -- the new point is the whole history; every earlier one is a point of the old history
    have hnow := hb _ List.prefix_rfl
    rw [controlEM_of_use hu, ← List.append_assoc]
    apply hb.concat
    simp only [commanded_append_setFloat]
    rcases hv with rfl | hv
    · cases n <;> simp
    · cases n <;> simp_all [EMName.other]

theorem controlEM_zero (n : EMName) (hb : NeverBoth (h ++ w.sent)) :
    NeverBoth (h ++ (Regonf.controlEM w n 0).sent) := hb.controlEM (Or.inl rfl)

theorem concat_getFTS (s : SensorName) (dst : SockAddr) (hb : NeverBoth h) :
    NeverBoth (h ++ [.getFTS s dst]) := by
  apply hb.concat
  simpa using hb _ List.prefix_rfl

theorem readSensor (r : Reply R) (hb : NeverBoth (h ++ w.sent)) :
    NeverBoth (h ++ (readSensor w r).sent) := by
  rw [Regonf.readSensor, ← List.append_assoc]
  exact hb.concat_getFTS _ _

theorem greenLight [BEq R] (r : Reply R) (hb : NeverBoth (h ++ w.sent)) :
    NeverBoth (h ++ (greenLightIsGreen w r).2.sent) := by
  unfold greenLightIsGreen
  dsimp only
  split
  · rw [← List.append_assoc]
    exact hb.concat_getFTS _ _
  · exact hb

theorem failed (hb : NeverBoth (h ++ w.sent)) : NeverBoth (h ++ (busyFailed w).sent) := by
  unfold busyFailed
  dsimp only
  split_ifs
  · exact (hb.controlEM_zero .heater).controlEM_zero .cooler
  · exact hb

section control
variable [LT R] [DecidableLT R]

theorem initDone (hb : NeverBoth (h ++ w.sent)) :
    NeverBoth (h ++ (controlInitDone w).sent) := by
  have hr : NeverBoth (h ++ (initReset w).sent) :=
    controlEM_zero .cooler (controlEM_zero .heater hb)
  unfold controlInitDone
  dsimp only
  split
  · exact hr
  · exact hr

theorem init [BEq R] (inp : ControlInput R) (hb : NeverBoth (h ++ w.sent)) :
    NeverBoth (h ++ (controlInit w inp).sent) := by
  unfold controlInit
  dsimp only
  split_ifs
  · exact hb.greenLight _
  · exact (hb.greenLight _).readSensor _
  · exact ((hb.greenLight _).readSensor _).initDone

variable [Add R] [Sub R]

theorem change (n : EMName) (inp : ControlInput R) (hb : NeverBoth (h ++ w.sent)) :
    NeverBoth (h ++ (busyChange w n inp).sent) := by
  rcases busyChange_cases w n inp with ⟨-, -, -, he⟩ | ⟨-, -, -, he⟩ | ⟨-, he⟩ <;> rw [he]
  · exact controlEM_zero n hb
  · exact hb
  · exact hb

theorem drive {m : EMName} (hb : NeverBoth (h ++ w.sent))
    (ho : commanded m.other (h ++ w.sent) = 0) :
    NeverBoth (h ++ (busyDrive w m).sent) :=
  controlEM_zero m.other (controlEM (w := w.upd fun i => busyOnf i m) hb (Or.inr ho))

end control

theorem op {o : Op R} (ho : (Input.op o).automatic = true)
    (hb : NeverBoth (h ++ w.sent)) : NeverBoth (h ++ (applyOp w o).sent) := by
  cases o with
  | setEMMode v =>
    simp only [applyOp, regonfhcSetEMMode]
    split_ifs
    · exact hb.controlEM_zero .heater
    · exact hb.controlEM_zero .cooler
    · exact hb
    · exact (hb.controlEM_zero .heater).controlEM_zero .cooler
  | setHeaterPower v => exact absurd ho Bool.false_ne_true
  | setCoolerPower v => exact absurd ho Bool.false_ne_true
  | turnOff =>
    have hc := controlEM_zero (w := w.upd fun i => { i with state := .regOff }) .cooler hb
    exact hc.controlEM_zero .heater
  | _ => exact hb

end NeverBoth

/-- After a command of 0 to `n`, in use or not, the last command to `n` is 0. -/
theorem commanded_controlEM_zero {h : List (Request R)} {w : Wire R} {n : EMName}
    (ht : EMTracked w.item (h ++ w.sent)) :
    commanded n (h ++ (controlEM w n 0).sent) = 0 := by
  rw [← (ht.controlEM n 0 n).1]
  exact ht.output_controlEM_zero n

/-- The mechanism that `state_r` does not name is off in `REG_BUSY`. -/
def OtherOff (item : RegOnfHC R) (h : List (Request R)) : Prop :=
  item.state = .regBusy → ∀ n : EMName, item.state_r = n.state → commanded n.other h = 0

theorem OtherOff.of_not {item : RegOnfHC R} {h : List (Request R)}
    (hs : item.state ≠ .regBusy) : OtherOff item h := fun hb => absurd hb hs

theorem OtherOff.op {h : List (Request R)} {w : Wire R} {o : Op R}
    (ho : (Input.op o).automatic = true) (hi : OtherOff w.item (h ++ w.sent)) :
    OtherOff (applyOp w o).item (h ++ (applyOp w o).sent) := by
  cases o with
  | enable => exact OtherOff.of_not (by simp [applyOp, regonfhcEnable])
  | disable => exact OtherOff.of_not (by simp [applyOp, regonfhcDisable])
  | setCoolerDelta v =>
    simp only [applyOp, regonfhcSetCoolerDelta, Wire.upd_item, Wire.upd_sent]
    split_ifs
    · exact OtherOff.of_not (by simp)
    · exact hi
  | setHeaterDelta v =>
    simp only [applyOp, regonfhcSetHeaterDelta, Wire.upd_item, Wire.upd_sent]
    split_ifs
    · exact OtherOff.of_not (by simp)
    · exact hi
  | setEMMode v =>
    -- from `REG_BUSY` the mode restarts the program
    apply OtherOff.of_not
    rw [applyOp, (setEMMode_state w v).1]
    split_ifs with hb
    · decide
    · exact hb
  | setHeaterPower v => exact absurd ho Bool.false_ne_true
  | setCoolerPower v => exact absurd ho Bool.false_ne_true
  | turnOff => exact OtherOff.of_not (by simp [applyOp, regonfhcTurnOff])
  | _ => exact hi

/-- What a run without manual power and with the watchdog off maintains. -/
structure Exclusive (item : RegOnfHC R) (h : List (Request R)) : Prop where
  unsecured : Unsecured item
  tracked : EMTracked item h
  otherOff : OtherOff item h
  never : NeverBoth h

theorem Loaded.exclusive {item : RegOnfHC R} (hl : Loaded item)
    (ha : item.secure_out.active = false) : Exclusive item [] where
  unsecured := hl.unsecured ha
  tracked := hl.tracked
  otherOff := fun _ _ _ => rfl
  never := NeverBoth.nil

section control
variable [LT R] [DecidableLT R]

/-- After the reset of `REG_INIT` both mechanisms are off. -/
theorem commanded_initDone {h : List (Request R)} {w : Wire R}
    (ht : EMTracked w.item (h ++ w.sent)) (n : EMName) :
    commanded n (h ++ (controlInitDone w).sent) = 0 := by
  have hr : (controlInitDone w).sent = (initReset w).sent := by
    unfold controlInitDone
    dsimp only
    split <;> rfl
  have h₁ := ht.upd (f := fun i =>
    { i with tmr := { i.tmr with ready := false }, state_r := .regHeater })
    ⟨rfl, rfl⟩ ⟨rfl, rfl⟩
  rw [hr, ← h₁.outputs_zero n]
  exact (((h₁.controlEM .heater 0).controlEM .cooler 0) n).1.symm

variable [Add R] [Sub R]

/-- Before the drive of `REG_BUSY`, the mechanism that will not be driven is off. -/
theorem commanded_busyChange {h : List (Request R)} {w : Wire R} {n m : EMName}
    (ht : EMTracked w.item (h ++ w.sent)) (ho : commanded n.other (h ++ w.sent) = 0)
    (hn : w.item.state_r = n.state) (inp : ControlInput R)
    (hm : (busyChange w n inp).item.state_r = m.state) :
    commanded m.other (h ++ (busyChange w n inp).sent) = 0 := by
  rcases busyChange_cases w n inp with ⟨-, -, -, he⟩ | ⟨-, -, -, he⟩ | ⟨-, he⟩
  · have hmn : m = n.other := EMName.state_inj.mp (by rw [← hm, he]; simp)
    rw [he, hmn, EMName.other_other]
    exact commanded_controlEM_zero (ht.upd ⟨rfl, rfl⟩ ⟨rfl, rfl⟩)
  · have hmn : m = n := EMName.state_inj.mp (by rw [← hm, he]; simp [hn])
    rw [he, hmn]
    exact ho
  · have hmn : m = n := EMName.state_inj.mp (by rw [← hm, he]; simp [hn])
    rw [he, hmn]
    exact ho

theorem commanded_busyDrive {h : List (Request R)} {w : Wire R} {m : EMName}
    (ht : EMTracked w.item (h ++ w.sent)) :
    commanded m.other (h ++ (busyDrive w m).sent) = 0 :=
  commanded_controlEM_zero
    ((ht.upd_em (f := fun i => busyOnf i m)
      fun n => by simp only [busyOnf_em, and_self]).controlEM m _)

variable [BEq R]

theorem control_exclusive {h : List (Request R)} {w w' : Wire R} {inp : ControlInput R}
    (hu : Unsecured w.item) (ht : EMTracked w.item (h ++ w.sent))
    (ho : OtherOff w.item (h ++ w.sent)) (hb : NeverBoth (h ++ w.sent))
    (hw : regonfhcControl w inp = some w') :
    OtherOff w'.item (h ++ w'.sent) ∧ NeverBoth (h ++ w'.sent) := by
  cases control_cases hw with
  | init hst =>
    refine ⟨?_, hb.init inp⟩
    rcases controlInit_cases w inp with ⟨g, s, he⟩ | ⟨-, -, he⟩
    · exact OtherOff.of_not (by simp [he, hst])
    · intro _ n _
      rw [he]
      exact commanded_initDone ((ht.greenLight _).readSensor _) n.other
  | @busy n m w₁ hst _ hn hw₁ hr _ =>
    have ha : (busyDrive (busyChange w₁ n inp) m).item.secure_out.active = false := by
      simpa [hw₁] using hu.1
    rw [busySecure_inactive ha]
    -- the reading leaves what is known of the two mechanisms
    have hn₁ : w₁.item.state_r = n.state := by simpa [hw₁] using hn
    have ht₁ : EMTracked w₁.item (h ++ w₁.sent) := by
      rw [hw₁]
      exact (ht.readSensor inp.snsr).upd ⟨rfl, rfl⟩ ⟨rfl, rfl⟩
    have hc₁ : commanded n.other (h ++ w₁.sent) = 0 := by
      have hc := ho hst n hn
      rw [hw₁]
      simpa [readSensor, ← List.append_assoc] using hc
    have hb₁ : NeverBoth (h ++ w₁.sent) := by
      rw [hw₁]
      exact hb.readSensor inp.snsr
    -- the other mechanism is off before the drive, so the drive may power `m`
    refine ⟨fun _ k hk => ?_, ?_⟩
    · obtain rfl : m = k := EMName.state_inj.mp (by simpa [hr] using hk)
      exact commanded_busyDrive (ht₁.change n inp)
    · exact (hb₁.change n inp).drive (commanded_busyChange ht₁ hc₁ hn₁ inp hr)
  | failed hst =>
    refine ⟨?_, (hb.readSensor inp.snsr).failed⟩
    intro hs' k hk
    obtain ⟨-, hr, -⟩ := busyFailed_frame (readSensor w inp.snsr)
    have hc := ho hst k (by simpa [hr] using hk)
    unfold busyFailed at hs' ⊢
    dsimp only at hs' ⊢
    -- only a step that leaves the counter within its limit stays in `REG_BUSY`; it commands nothing
    split_ifs at hs' ⊢
    · simp at hs'
    · simpa [readSensor, ← List.append_assoc] using hc
  | secure hst => exact absurd hst hu.2
  | disable =>
    exact ⟨OtherOff.of_not (by simp [controlDisable]),
      (hb.controlEM_zero .heater).controlEM_zero .cooler⟩
  | off => exact ⟨ho, hb⟩
  | other => exact ⟨OtherOff.of_not (by simp), hb⟩

theorem step_exclusive {item item' : RegOnfHC R} {h out : List (Request R)} {i : Input R}
    (he : Exclusive item h) (ha : i.automatic = true) (hs : step item i = some (item', out)) :
    Exclusive item' (h ++ out) := by
  have hpair : OtherOff item' (h ++ out) ∧ NeverBoth (h ++ out) := by
    obtain ⟨hu, ht, ho, hb⟩ := he
    cases i with
    | control inp =>
      rw [step, Option.map_eq_some_iff] at hs
      obtain ⟨w, hw, hwe⟩ := hs
      cases hwe
      exact control_exclusive (w := ⟨item, []⟩) hu (by simpa using ht) (by simpa using ho)
        (by simpa using hb) hw
    | op o =>
      cases hs
      exact ⟨OtherOff.op (w := ⟨item, []⟩) ha (by simpa using ho),
        NeverBoth.op (w := ⟨item, []⟩) ha (by simpa using hb)⟩
  exact ⟨step_unsecured he.unsecured hs, step_tracked he.tracked hs, hpair.1, hpair.2⟩

theorem run_exclusive {item t : RegOnfHC R} {out : List (Request R)} {is : List (Input R)}
    (hl : Loaded item) (ha : item.secure_out.active = false)
    (hi : ∀ i ∈ is, i.automatic = true) (hr : Controller.run step item is = some (t, out)) :
    Exclusive t out :=
  Controller.run_invariant (P := fun i => i.automatic = true) (I := Exclusive)
    (fun _ _ _ _ _ he hi hs => step_exclusive he hi hs) (hl.exclusive ha) hi hr

/-- In every run of a loaded program with the watchdog off and no manual power, one of the
two mechanisms was last commanded 0 at every point between two messages. -/
theorem never_both_powered {item t : RegOnfHC R} {out p : List (Request R)}
    {is : List (Input R)} (hl : Loaded item) (ha : item.secure_out.active = false)
    (hi : ∀ i ∈ is, i.automatic = true) (hr : Controller.run step item is = some (t, out))
    (hp : p <+: out) : commanded .heater p = 0 ∨ commanded .cooler p = 0 :=
  (run_exclusive hl ha hi hr).never p hp

/-- The last theorem on a run in which the heater is on, the EM mode is set to both again,
and the program then turns to the cooler. -/
theorem never_both_powered_example :
    let is := [exampleControl 0 (some 240), exampleControl 1 (some 240),
      exampleControl 2 (some 240), .op (.setEMMode "both"), exampleControl 3 (some 260),
      exampleControl 4 (some 260), exampleControl 5 (some 260)]
    ∃ t out, Controller.run step exampleProg is = some (t, out) ∧
      (∃ p, p <+: out ∧ commanded .heater p = 1000) ∧ commanded .cooler out = 1000 ∧
      ∀ p, p <+: out → commanded .heater p = 0 ∨ commanded .cooler p = 0 := by
  intro is
  have hr : Controller.run step exampleProg is = some (_, _) := rfl
  exact ⟨_, _, hr, ⟨_, List.take_prefix 9 _, rfl⟩, rfl, fun p hp =>
    never_both_powered exampleProg_loaded rfl (by decide) hr hp⟩

end control

end Regonf
