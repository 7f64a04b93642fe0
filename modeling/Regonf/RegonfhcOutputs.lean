import Regonf.Lib.Controller
import Regonf.RegonfhcFrame

/-! The last output commanded to a mechanism, and the invariant that ties it to the record
of the mechanism: the two agree, and a mechanism that is not in use was last sent 0. -/
namespace Regonf

variable {R : Type*} [Zero R]

/-- The output carried by the last command to `n`, 0 if there was none. -/
def commanded (n : EMName) (h : List (Request R)) : R :=
  h.foldl (fun v r => match r with
    | .setFloat m x _ => if m = n then x else v
    | .getFTS _ _ => v) 0

/-- The commands among the requests. -/
def commands (l : List (Request R)) : List (Request R) :=
  l.filter fun r => match r with
    | .setFloat _ _ _ => true
    | .getFTS _ _ => false

@[simp] theorem commanded_append_getFTS (n : EMName) (h : List (Request R)) (s : SensorName)
    (dst : SockAddr) : commanded n (h ++ [.getFTS s dst]) = commanded n h := by
  simp [commanded]

@[simp] theorem commanded_append_setFloat (n m : EMName) (h : List (Request R)) (v : R)
    (dst : SockAddr) :
    commanded n (h ++ [.setFloat m v dst]) = if m = n then v else commanded n h := by
  simp [commanded]

theorem commanded_controlEM (h : List (Request R)) (w : Wire R) (n m : EMName) (v : R) :
    commanded m (h ++ (controlEM w n v).sent) =
      if m = n ∧ (w.item.em n).use = true then v else commanded m (h ++ w.sent) := by
  cases hu : (w.item.em n).use with
  | true =>
    rw [controlEM_of_use hu, ← List.append_assoc, commanded_append_setFloat]
    simp [eq_comm]
  | false => simp [controlEM_of_not_use hu]

/-- Every mechanism record shows the last commanded output, and a mechanism out of use was
last commanded 0. `h` is the whole history of requests. -/
def EMTracked (item : RegOnfHC R) (h : List (Request R)) : Prop :=
  ∀ n, (item.em n).output = commanded n h ∧ ((item.em n).use = false → commanded n h = 0)

namespace EMTracked

variable {h : List (Request R)} {w : Wire R}

/-- A part that sends nothing to a mechanism and keeps outputs and use flags. -/
theorem frame {item item' : RegOnfHC R} {h' : List (Request R)} (ht : EMTracked item h)
    (ho : ∀ n, (item'.em n).output = (item.em n).output)
    (hu : ∀ n, (item'.em n).use = (item.em n).use)
    (hc : ∀ n, commanded n h' = commanded n h) : EMTracked item' h' := by
  intro n
  rw [ho, hu, hc]
  exact ht n

theorem upd_em (ht : EMTracked w.item (h ++ w.sent)) {f : RegOnfHC R → RegOnfHC R}
    (hf : ∀ n, ((f w.item).em n).output = (w.item.em n).output ∧
      ((f w.item).em n).use = (w.item.em n).use) :
    EMTracked (w.upd f).item (h ++ (w.upd f).sent) :=
  ht.frame (fun n => (hf n).1) (fun n => (hf n).2) fun _ => rfl

theorem upd (ht : EMTracked w.item (h ++ w.sent)) {f : RegOnfHC R → RegOnfHC R}
    (hh : (f w.item).heater.output = w.item.heater.output ∧
      (f w.item).heater.use = w.item.heater.use)
    (hc : (f w.item).cooler.output = w.item.cooler.output ∧
      (f w.item).cooler.use = w.item.cooler.use) :
    EMTracked (w.upd f).item (h ++ (w.upd f).sent) := by
  apply ht.upd_em
  intro n
  cases n with
  | heater => exact hh
  | cooler => exact hc

theorem controlEM (ht : EMTracked w.item (h ++ w.sent)) (n : EMName) (v : R) :
    EMTracked (controlEM w n v).item (h ++ (controlEM w n v).sent) := by
  intro m
  rw [controlEM_em_output, commanded_controlEM, (controlEM_em_frame w n m v).1]
  by_cases hm : m = n ∧ (w.item.em n).use = true
  · obtain ⟨rfl, hu⟩ := hm
    simp [hu]
  · simp only [hm, ↓reduceIte]
    exact ht m

/-- After a command of 0 the mechanism is off, in use or not. -/
theorem output_controlEM_zero (ht : EMTracked w.item (h ++ w.sent)) (n : EMName) :
    ((Regonf.controlEM w n 0).item.em n).output = 0 := by
  rw [controlEM_em_output]
  cases hu : (w.item.em n).use with
  | true => simp
  | false =>
    simp only [Bool.false_eq_true, and_false, ↓reduceIte]
    rw [(ht n).1, (ht n).2 hu]

theorem readSensor (ht : EMTracked w.item (h ++ w.sent)) (r : Reply R) :
    EMTracked (readSensor w r).item (h ++ (readSensor w r).sent) := by
  apply ht.frame (by simp) (by simp)
  intro n
  rw [Regonf.readSensor, ← List.append_assoc, commanded_append_getFTS]

theorem greenLight [BEq R] (ht : EMTracked w.item (h ++ w.sent)) (r : Reply R) :
    EMTracked (greenLightIsGreen w r).2.item (h ++ (greenLightIsGreen w r).2.sent) := by
  refine ht.frame ?_ ?_ fun n => ?_
  · intro n; rw [greenLightIsGreen_item]; cases n <;> rfl
  · intro n; rw [greenLightIsGreen_item]; cases n <;> rfl
  · unfold greenLightIsGreen
    dsimp only
    split
    · rw [← List.append_assoc, commanded_append_getFTS]
    · rfl

theorem reset (ht : EMTracked w.item (h ++ w.sent)) :
    EMTracked (initReset w).item (h ++ (initReset w).sent) :=
  (((ht.upd ⟨rfl, rfl⟩ ⟨rfl, rfl⟩).controlEM .heater 0).controlEM .cooler 0).upd
    ⟨rfl, rfl⟩ ⟨rfl, rfl⟩

theorem secure (ht : EMTracked w.item (h ++ w.sent)) (inp : ControlInput R) :
    EMTracked (busySecure w inp).item (h ++ (busySecure w inp).sent) :=
  ht.upd ⟨rfl, rfl⟩ ⟨rfl, rfl⟩

theorem failed (ht : EMTracked w.item (h ++ w.sent)) :
    EMTracked (busyFailed w).item (h ++ (busyFailed w).sent) := by
  unfold busyFailed
  dsimp only
  split_ifs
  · exact ((ht.controlEM .heater 0).controlEM .cooler 0).upd ⟨rfl, rfl⟩ ⟨rfl, rfl⟩
  · exact ht.upd ⟨rfl, rfl⟩ ⟨rfl, rfl⟩

theorem inSecure (ht : EMTracked w.item (h ++ w.sent)) (inp : ControlInput R) :
    EMTracked (controlSecure w inp).item (h ++ (controlSecure w inp).sent) :=
  ((ht.controlEM .heater _).controlEM .cooler _).upd ⟨rfl, rfl⟩ ⟨rfl, rfl⟩

theorem outputs_zero (ht : EMTracked w.item (h ++ w.sent)) (n : EMName) :
    ((Regonf.controlEM (Regonf.controlEM w .heater 0) .cooler 0).item.em n).output = 0 := by
  cases n with
  | heater =>
    rw [controlEM_em_output, if_neg (by simp)]
    exact ht.output_controlEM_zero .heater
  | cooler => exact (ht.controlEM .heater 0).output_controlEM_zero .cooler

theorem inDisable (ht : EMTracked w.item (h ++ w.sent)) :
    EMTracked (controlDisable w).item (h ++ (controlDisable w).sent) := by
  -- the two direct writes of 0 store what the commands before them have stored
  refine ((ht.controlEM .heater 0).controlEM .cooler 0).frame ?_ ?_ fun _ => rfl
  · intro n
    rw [ht.outputs_zero n]
    cases n <;> rfl
  · intro n
    cases n <;> rfl

section control
variable [LT R] [DecidableLT R]

theorem initDone (ht : EMTracked w.item (h ++ w.sent)) :
    EMTracked (controlInitDone w).item (h ++ (controlInitDone w).sent) := by
  unfold controlInitDone
  dsimp only
  split
  · exact ht.reset.upd ⟨rfl, rfl⟩ ⟨rfl, rfl⟩
  · exact ht.reset.upd ⟨rfl, rfl⟩ ⟨rfl, rfl⟩

theorem init [BEq R] (ht : EMTracked w.item (h ++ w.sent)) (inp : ControlInput R) :
    EMTracked (controlInit w inp).item (h ++ (controlInit w inp).sent) := by
  unfold controlInit
  dsimp only
  split_ifs
  · exact ht.greenLight _
  · exact (ht.greenLight _).readSensor _
  · exact ((ht.greenLight _).readSensor _).initDone

variable [Add R] [Sub R]

theorem change (ht : EMTracked w.item (h ++ w.sent)) (n : EMName) (inp : ControlInput R) :
    EMTracked (busyChange w n inp).item (h ++ (busyChange w n inp).sent) := by
  rcases busyChange_cases w n inp with ⟨-, -, -, he⟩ | ⟨-, -, -, he⟩ | ⟨-, he⟩ <;> rw [he]
  · exact (ht.upd ⟨rfl, rfl⟩ ⟨rfl, rfl⟩).controlEM _ _
  · exact ht.upd ⟨rfl, rfl⟩ ⟨rfl, rfl⟩
  · exact ht.upd ⟨rfl, rfl⟩ ⟨rfl, rfl⟩

theorem drive (ht : EMTracked w.item (h ++ w.sent)) (m : EMName) :
    EMTracked (busyDrive w m).item (h ++ (busyDrive w m).sent) := by
  have h₁ := ht.upd_em (f := fun i => busyOnf i m) fun n => by simp only [busyOnf_em, and_self]
  exact (h₁.controlEM m _).controlEM m.other 0

/-- After a drive the driven mechanism shows the decision, if it is in use, and nothing else is
on. -/
theorem drive_output (ht : EMTracked w.item (h ++ w.sent)) (m n : EMName) :
    ((busyDrive w m).item.em n).output =
      if n = m ∧ (w.item.em m).use = true then (busyOnf w.item m).output else 0 := by
  have h₁ := ht.upd_em (f := fun i => busyOnf i m) fun n => by simp only [busyOnf_em, and_self]
  have h₂ := h₁.controlEM m (w.upd fun i => busyOnf i m).item.output
  rcases EMName.eq_or_eq_other n m with rfl | rfl
  · rw [busyDrive, controlEM_em_output, if_neg (by simp), controlEM_em_output, Wire.upd_item,
      busyOnf_em]
    cases hu : (w.item.em n).use with
    | true => simp
    | false =>
      have hn := ht n
      simp [hn.1, hn.2 hu]
  · rw [if_neg (by simp)]
    exact h₂.output_controlEM_zero m.other

theorem busy (ht : EMTracked w.item (h ++ w.sent)) {inp : ControlInput R} {w' : Wire R}
    (hw : controlBusy w inp = some w') : EMTracked w'.item (h ++ w'.sent) := by
  unfold controlBusy at hw
  dsimp only at hw
  split_ifs at hw
  · unfold busyRegulate at hw
    split at hw
    -- no mechanism in `state_r`: the step is undefined
    · contradiction
    · cases hw
      exact ((((ht.readSensor inp.snsr).upd ⟨rfl, rfl⟩ ⟨rfl, rfl⟩).change _ inp).drive _).secure inp
  · cases hw
    exact (ht.readSensor _).failed

theorem control [BEq R] (ht : EMTracked w.item (h ++ w.sent)) {inp : ControlInput R}
    {w' : Wire R} (hw : regonfhcControl w inp = some w') :
    EMTracked w'.item (h ++ w'.sent) := by
  unfold regonfhcControl at hw
  split at hw
  · cases hw; exact ht.init inp
  · exact ht.busy hw
  · cases hw; exact ht.inSecure inp
  · cases hw; exact ht.inDisable
  · cases hw; exact ht
  · cases hw; exact ht.upd ⟨rfl, rfl⟩ ⟨rfl, rfl⟩

end control

/-- `use` may be cleared once 0 has been commanded. -/
theorem setUse (ht : EMTracked w.item (h ++ w.sent)) (uh uc : Bool)
    (hh : uh = false → w.item.heater.output = 0)
    (hc : uc = false → w.item.cooler.output = 0) :
    EMTracked (w.upd fun i => i.setUse uh uc).item
      (h ++ (w.upd fun i => i.setUse uh uc).sent) := by
  intro n
  have hn := (ht n).1
  cases n with
  | heater => exact ⟨hn, fun hu => hn.symm.trans (hh hu)⟩
  | cooler => exact ⟨hn, fun hu => hn.symm.trans (hc hu)⟩

theorem setEMMode (ht : EMTracked w.item (h ++ w.sent)) (value : String) :
    EMTracked (regonfhcSetEMMode w value).item (h ++ (regonfhcSetEMMode w value).sent) := by
  unfold regonfhcSetEMMode
  dsimp only
  refine upd ?_ ⟨rfl, rfl⟩ ⟨rfl, rfl⟩
  split_ifs
  -- each mode commands 0 to what it takes out of use, before it clears the flag
  · exact (ht.controlEM .heater 0).setUse _ _ (fun _ => ht.output_controlEM_zero .heater)
      (by simp)
  · exact (ht.controlEM .cooler 0).setUse _ _ (by simp)
      (fun _ => ht.output_controlEM_zero .cooler)
  · exact ht.setUse _ _ (by simp) (by simp)
  · exact ((ht.controlEM .heater 0).controlEM .cooler 0).setUse _ _
      (fun _ => ht.outputs_zero .heater) (fun _ => ht.outputs_zero .cooler)

theorem op (ht : EMTracked w.item (h ++ w.sent)) (o : Op R) :
    EMTracked (applyOp w o).item (h ++ (applyOp w o).sent) := by
  cases o with
  | setEMMode v => exact ht.setEMMode v
  | setHeaterPower v => exact (ht.controlEM .heater v).upd ⟨rfl, rfl⟩ ⟨rfl, rfl⟩
  | setCoolerPower v => exact (ht.controlEM .cooler v).upd ⟨rfl, rfl⟩ ⟨rfl, rfl⟩
  | turnOff => exact ((ht.upd ⟨rfl, rfl⟩ ⟨rfl, rfl⟩).controlEM .cooler 0).controlEM .heater 0
  | _ => exact ht.upd ⟨rfl, rfl⟩ ⟨rfl, rfl⟩

end EMTracked

theorem Loaded.tracked {item : RegOnfHC R} (hl : Loaded item) : EMTracked item [] := by
  intro n
  cases n with
  | heater => exact ⟨hl.heater_output, fun _ => rfl⟩
  | cooler => exact ⟨hl.cooler_output, fun _ => rfl⟩

variable [Add R] [Sub R] [LT R] [DecidableLT R] [BEq R]

theorem step_tracked {item item' : RegOnfHC R} {h out : List (Request R)} {i : Input R}
    (ht : EMTracked item h) (hs : step item i = some (item', out)) :
    EMTracked item' (h ++ out) := by
  have h₀ : EMTracked (⟨item, []⟩ : Wire R).item (h ++ (⟨item, []⟩ : Wire R).sent) := by
    simpa using ht
  cases i with
  | control inp =>
    rw [step, Option.map_eq_some_iff] at hs
    obtain ⟨w, hw, he⟩ := hs
    cases he
    exact h₀.control hw
  | op o =>
    cases hs
    exact h₀.op o

theorem run_tracked {item t : RegOnfHC R} {out : List (Request R)} {is : List (Input R)}
    (hl : Loaded item) (hr : Controller.run step item is = some (t, out)) : EMTracked t out :=
  Controller.run_invariant (P := fun _ => True) (I := EMTracked)
    (fun _ _ _ _ _ ht _ hs => step_tracked ht hs) hl.tracked (fun _ _ => trivial) hr

/-- In every state that a loaded program reaches, a mechanism out of use is off and the last
command to it, if any, was 0. -/
theorem unused_mechanism_off {item t : RegOnfHC R} {out : List (Request R)}
    {is : List (Input R)} (hl : Loaded item)
    (hr : Controller.run step item is = some (t, out)) (n : EMName)
    (hu : (t.em n).use = false) : (t.em n).output = 0 ∧ commanded n out = 0 := by
  have ht := run_tracked hl hr n
  exact ⟨ht.1.trans (ht.2 hu), ht.2 hu⟩

/-- The last theorem on a run that takes the heater out of use while it is powered. -/
theorem unused_mechanism_off_example :
    let is := [exampleControl 0 (some 240), exampleControl 1 (some 240),
      exampleControl 2 (some 240), .op (.setEMMode "cooler")]
    ∃ t out, Controller.run step exampleProg is = some (t, out) ∧
      (∃ p, p <+: out ∧ commanded .heater p = 1000) ∧
      (t.em .heater).output = 0 ∧ commanded .heater out = 0 := by
  intro is
  have hr : Controller.run step exampleProg is = some (_, _) := rfl
  exact ⟨_, _, hr, ⟨_, List.take_prefix 9 _, rfl⟩,
    unused_mechanism_off exampleProg_loaded hr .heater rfl⟩

end Regonf
