import Regonf.RegonfhcOutputs
import Regonf.RegonfhcUnsecured

/-! Loss of the sensor. The failure counter lives in `REG_BUSY` only, so the mechanisms are
switched off in time as long as no command enters `REG_INIT` with one of them powered. -/
namespace Regonf

variable {R : Type*}

/-- The step takes a value from the main sensor. -/
def readsSensor [BEq R] (item : RegOnfHC R) : Input R → Bool
  | .op _ => false
  | .control inp =>
    match item.state with
    | .regInit => (greenLightIsGreen ⟨item, []⟩ inp.green).1 && inp.snsr.fts?.isSome
    | .regBusy => inp.snsr.fts?.isSome
    | _ => false

/-- The number of control steps in a row without a value from the sensor. -/
def failedSteps [BEq R] (k : ℕ) (item : RegOnfHC R) (i : Input R) : ℕ :=
  match i with
  | .op _ => k
  | .control _ => if readsSensor item i then 0 else k + 1

variable [Zero R]

def AllOff (item : RegOnfHC R) : Prop := ∀ n, (item.em n).output = 0

/-- The command does not enter `REG_INIT` with a mechanism powered that it does not itself
switch off. -/
def LeavesOff (item : RegOnfHC R) : Input R → Prop
  | .op .enable => AllOff item
  | .op (.setCoolerDelta _) => item.state = .regBusy ∧ item.state_r = .regCooler → AllOff item
  | .op (.setHeaterDelta _) => item.state = .regBusy ∧ item.state_r = .regHeater → AllOff item
  | .op (.setEMMode v) =>
    item.state = .regBusy → ∀ n, modeUses v n = true → (item.em n).output = 0
  | _ => True

/-- All is off, or the counter bounds the failed steps, or the next step switches off. -/
def Failsafe (item : RegOnfHC R) (k : ℕ) : Prop :=
  AllOff item ∨
  (item.state = .regBusy ∧ k ≤ item.snsrf_count ∧ item.snsrf_count ≤ SNSRF_COUNT_MAX + 1) ∨
  (item.state = .regDisable ∧ k ≤ SNSRF_COUNT_MAX + 1)

theorem Failsafe.allOff {item : RegOnfHC R} {k : ℕ} (hf : Failsafe item k)
    (hk : SNSRF_COUNT_MAX + 2 ≤ k) : AllOff item := by
  rcases hf with h | ⟨-, h₁, h₂⟩ | ⟨-, h⟩
  · exact h
  · omega
  · omega

theorem AllOff.em_congr {item item' : RegOnfHC R} (ha : AllOff item)
    (he : ∀ n, (item'.em n).output = (item.em n).output) : AllOff item' := fun n => by
  rw [he]
  exact ha n

/-- A mechanism that the mode keeps in use keeps its output. -/
theorem setEMMode_output (w : Wire R) {v : String} {n : EMName} (hn : modeUses v n = true) :
    ((regonfhcSetEMMode w v).item.em n).output = (w.item.em n).output := by
  unfold modeUses at hn
  simp only [regonfhcSetEMMode]
  split_ifs at hn ⊢
  · have hc : n = .cooler := by simpa using hn
    subst hc
    exact (controlEM_em_output w .heater .cooler 0).trans (by simp)
  · have hh : n = .heater := by simpa using hn
    subst hh
    exact (controlEM_em_output w .cooler .heater 0).trans (by simp)
  · cases n <;> rfl
  · simp_all

theorem AllOff.setEMMode {w : Wire R} {h : List (Request R)}
    (ht : EMTracked w.item (h ++ w.sent)) {v : String}
    (hv : ∀ n, modeUses v n = true → (w.item.em n).output = 0) :
    AllOff (regonfhcSetEMMode w v).item := by
  intro n
  cases hn : modeUses v n with
  | true => rw [setEMMode_output w hn, hv n hn]
  | false =>
    have htn := ht.setEMMode v n
    rw [htn.1, htn.2 ((setEMMode_use w v n).trans hn)]

theorem op_failsafe {w : Wire R} {h : List (Request R)} {k : ℕ}
    (ht : EMTracked w.item (h ++ w.sent)) (hf : Failsafe w.item k) {o : Op R}
    (ha : (Input.op o).automatic = true) (hl : LeavesOff w.item (.op o)) :
    Failsafe (applyOp w o).item k := by
  cases o with
  | enable => exact Or.inl (AllOff.em_congr hl fun n => by cases n <;> rfl)
  | disable =>
    -- `REG_DISABLE` switches off in its next step, however many have failed before
    rcases hf with hf | ⟨-, h₁, h₂⟩ | ⟨-, hk⟩
    · exact Or.inl (hf.em_congr fun n => by cases n <;> rfl)
    · exact Or.inr (Or.inr ⟨rfl, h₁.trans h₂⟩)
    · exact Or.inr (Or.inr ⟨rfl, hk⟩)
  | setCoolerDelta v =>
    have he : ∀ n, ((regonfhcSetCoolerDelta w.item v).em n).output = (w.item.em n).output := by
      intro n; cases n <;> rfl
    by_cases hb : w.item.state = .regBusy ∧ w.item.state_r = .regCooler
    · exact Or.inl ((hl hb).em_congr he)
    · have hs : (regonfhcSetCoolerDelta w.item v).state = w.item.state := if_neg hb
      exact hf.imp (fun h => h.em_congr he) fun h => by simpa only [applyOp, Wire.upd_item, hs]
  | setHeaterDelta v =>
    have he : ∀ n, ((regonfhcSetHeaterDelta w.item v).em n).output = (w.item.em n).output := by
      intro n; cases n <;> rfl
    by_cases hb : w.item.state = .regBusy ∧ w.item.state_r = .regHeater
    · exact Or.inl ((hl hb).em_congr he)
    · have hs : (regonfhcSetHeaterDelta w.item v).state = w.item.state := if_neg hb
      exact hf.imp (fun h => h.em_congr he) fun h => by simpa only [applyOp, Wire.upd_item, hs]
  | setEMMode v =>
    by_cases hb : w.item.state = .regBusy
    · exact Or.inl (AllOff.setEMMode ht (hl hb))
    -- outside `REG_BUSY` the mode leaves the state alone
    · rcases hf with hf | ⟨hb', -⟩ | ⟨hd, hk⟩
      · exact Or.inl (AllOff.setEMMode ht fun n _ => hf n)
      · exact absurd hb' hb
      · refine Or.inr (Or.inr ⟨?_, hk⟩)
        rw [applyOp, (setEMMode_state w v).1, if_neg hb, hd]
  | setHeaterPower v => exact absurd ha Bool.false_ne_true
  | setCoolerPower v => exact absurd ha Bool.false_ne_true
  | turnOff =>
    have h₁ := ht.upd (f := fun i => { i with state := .regOff }) ⟨rfl, rfl⟩ ⟨rfl, rfl⟩
    apply Or.inl
    intro n
    cases n with
    | heater => exact (h₁.controlEM .cooler 0).output_controlEM_zero .heater
    | cooler =>
      rw [applyOp, regonfhcTurnOff, controlEM_em_output, if_neg (by simp)]
      exact h₁.output_controlEM_zero .cooler
  | setGoal v => exact hf.imp (fun h => h.em_congr fun n => by cases n <;> rfl) id
  | setChangeGap v => exact hf.imp (fun h => h.em_congr fun n => by cases n <;> rfl) id
  | secureOutTouch => exact hf.imp (fun h => h.em_congr fun n => by cases n <;> rfl) id

/-- A command that does not meet `LeavesOff` enters `REG_INIT` with a mechanism powered. -/
theorem op_powers_init {w : Wire R} {o : Op R} (hl : ¬LeavesOff w.item (.op o)) :
    (applyOp w o).item.state = .regInit ∧ ∃ n, ((applyOp w o).item.em n).output ≠ 0 := by
  cases o with
  | enable =>
    obtain ⟨n, hn⟩ := not_forall.mp hl
    exact ⟨rfl, n, by cases n <;> exact hn⟩
  | setCoolerDelta v =>
    obtain ⟨hb, ha⟩ := Classical.not_imp.mp hl
    obtain ⟨n, hn⟩ := not_forall.mp ha
    exact ⟨if_pos hb, n, by cases n <;> exact hn⟩
  | setHeaterDelta v =>
    obtain ⟨hb, ha⟩ := Classical.not_imp.mp hl
    obtain ⟨n, hn⟩ := not_forall.mp ha
    exact ⟨if_pos hb, n, by cases n <;> exact hn⟩
  | setEMMode v =>
    obtain ⟨hb, ha⟩ := Classical.not_imp.mp hl
    obtain ⟨n, hn⟩ := not_forall.mp ha
    obtain ⟨hu, ho⟩ := Classical.not_imp.mp hn
    exact ⟨(setEMMode_state w v).1.trans (if_pos hb), n, by rwa [applyOp, setEMMode_output w hu]⟩
  | _ => exact absurd trivial hl

variable [LT R] [DecidableLT R]

theorem AllOff.initDone {w : Wire R} {h : List (Request R)}
    (ht : EMTracked w.item (h ++ w.sent)) : AllOff (controlInitDone w).item := by
  have hu := ht.upd (f := fun i =>
    { i with tmr := { i.tmr with ready := false }, state_r := .regHeater })
    ⟨rfl, rfl⟩ ⟨rfl, rfl⟩
  intro n
  refine Eq.trans ?_ (hu.outputs_zero n)
  unfold controlInitDone
  dsimp only
  split <;> cases n <;> rfl

/-- A step of `REG_INIT` without a value from the sensor commands nothing. -/
theorem controlInit_failed [BEq R] (w : Wire R) {inp : ControlInput R} (hf : inp.snsr.fts? = none)
    (h : List (Request R)) (n : EMName) :
    (controlInit w inp).item.state = w.item.state ∧
      commanded n (h ++ (controlInit w inp).sent) = commanded n (h ++ w.sent) := by
  have hg : (greenLightIsGreen w inp.green).2.item.state = w.item.state ∧
      commanded n (h ++ (greenLightIsGreen w inp.green).2.sent) =
        commanded n (h ++ w.sent) := by
    refine ⟨by rw [greenLightIsGreen_item], ?_⟩
    unfold greenLightIsGreen
    dsimp only
    split
    · rw [← List.append_assoc, commanded_append_getFTS]
    · rfl
  unfold controlInit
  simp only [hf, Option.isNone_none, ↓reduceIte]
  split_ifs
  · exact hg
  · refine ⟨hg.1, Eq.trans ?_ hg.2⟩
    rw [readSensor, ← List.append_assoc, commanded_append_getFTS]

variable [Add R] [Sub R] [BEq R]

theorem control_failsafe {item : RegOnfHC R} {w' : Wire R} {h : List (Request R)} {k : ℕ}
    {inp : ControlInput R} (hu : Unsecured item) (ht : EMTracked item h)
    (hf : Failsafe item k) (hw : regonfhcControl ⟨item, []⟩ inp = some w') :
    Failsafe w'.item (failedSteps k item (.control inp)) := by
  have h₀ : EMTracked (⟨item, []⟩ : Wire R).item (h ++ (⟨item, []⟩ : Wire R).sent) := by
    simpa using ht
  cases control_cases hw with
  | init hst =>
    rcases controlInit_cases ⟨item, []⟩ inp with ⟨g, s, he⟩ | ⟨-, -, he⟩
    · -- it waits with all mechanisms off
      have ha : AllOff item := by
        rcases hf with hf | ⟨hb, -⟩ | ⟨hd, -⟩
        · exact hf
        · exact absurd (hst.symm.trans hb) (by decide)
        · exact absurd (hst.symm.trans hd) (by decide)
      rw [he]
      exact Or.inl (ha.em_congr fun n => by cases n <;> rfl)
    · rw [he]
      exact Or.inl (AllOff.initDone ((h₀.greenLight _).readSensor _))
  | @busy n m w₁ hst hok _ hw₁ _ _ =>
    have hst : item.state = .regBusy := hst
    have hk : failedSteps k item (.control inp) = 0 := by
      simp only [failedSteps, readsSensor, hst, hok, ↓reduceIte]
    have ha : (busyDrive (busyChange w₁ n inp) m).item.secure_out.active = false := by
      simpa [hw₁] using hu.1
    rw [hk, busySecure_inactive ha]
    exact Or.inr (Or.inl ⟨by simp [hw₁, hst], Nat.zero_le _, by simp [hw₁]⟩)
  | failed hst hno =>
    have hst : item.state = .regBusy := hst
    have hk : failedSteps k item (.control inp) = k + 1 := by
      simp only [failedSteps, readsSensor, hst, hno, Bool.false_eq_true, ↓reduceIte]
    have h₁ := h₀.readSensor inp.snsr
    rw [hk]
    unfold busyFailed
    dsimp only
    split_ifs with hc
    · exact Or.inl fun n => Eq.trans (by cases n <;> rfl) (h₁.outputs_zero n)
    · -- the counter of the regulator keeps up with the failed steps
      rcases hf with hf | ⟨-, hk₁, hk₂⟩ | ⟨hd, -⟩
      · exact Or.inl (hf.em_congr fun n => by cases n <;> rfl)
      · simp only [readSensor, not_lt] at hc
        exact Or.inr (Or.inl ⟨hst, Nat.succ_le_succ hk₁, Nat.succ_le_succ hc⟩)
      · exact absurd (hst.symm.trans hd) (by decide)
  | secure hst => exact absurd hst hu.2
  | disable => exact Or.inl fun n => by cases n <;> rfl
  | off hst =>
    have hst : item.state = .regOff := hst
    rcases hf with hf | ⟨hb, -⟩ | ⟨hd, -⟩
    · exact Or.inl hf
    · exact absurd (hst.symm.trans hb) (by decide)
    · exact absurd (hst.symm.trans hd) (by decide)
  | other hst =>
    rcases hf with hf | ⟨hb, -⟩ | ⟨hd, -⟩
    · exact Or.inl (hf.em_congr fun n => by cases n <;> rfl)
    · exact absurd (by simp [hb]) hst
    · exact absurd (by simp [hd]) hst

/-- The invariant of a run whose steps all meet the condition. -/
structure FailsafeInv (s : RegOnfHC R × ℕ) (h : List (Request R)) : Prop where
  unsecured : Unsecured s.1
  tracked : EMTracked s.1 h
  failsafe : Failsafe s.1 s.2

theorem step_failsafe {s s' : RegOnfHC R × ℕ} {h out : List (Request R)} {i : Input R}
    (hi : FailsafeInv s h) (hl : i.automatic = true ∧ LeavesOff s.1 i)
    (hs : Controller.observe step failedSteps s i = some (s', out)) :
    FailsafeInv s' (h ++ out) := by
  obtain ⟨item, k⟩ := s
  obtain ⟨item', k'⟩ := s'
  obtain ⟨hs, rfl⟩ := Controller.observe_some.mp hs
  refine ⟨step_unsecured hi.unsecured hs, step_tracked hi.tracked hs, ?_⟩
  cases i with
  | control inp =>
    rw [step, Option.map_eq_some_iff] at hs
    obtain ⟨w, hw, hwe⟩ := hs
    cases hwe
    exact control_failsafe hi.unsecured hi.tracked hi.failsafe hw
  | op o =>
    cases hs
    exact op_failsafe (w := ⟨item, []⟩) (by simpa using hi.tracked) hi.failsafe hl.1 hl.2

/-- In a run without manual power and with the watchdog off whose commands enter `REG_INIT`
only with the mechanisms off, `SNSRF_COUNT_MAX + 2` control steps in a row without a value
from the sensor leave both mechanisms commanded off. -/
theorem sensor_loss_failsafe {item : RegOnfHC R} {t : RegOnfHC R × ℕ}
    {out : List (Request R)} {is : List (Input R)} (hl : Loaded item)
    (ha : item.secure_out.active = false)
    (hi : ∀ i ∈ is, i.automatic = true)
    (hc : Controller.Along (Controller.observe step failedSteps)
      (fun s _ i => LeavesOff s.1 i) (item, 0) [] is)
    (hr : Controller.run (Controller.observe step failedSteps) (item, 0) is = some (t, out))
    (hk : SNSRF_COUNT_MAX + 2 ≤ t.2) (n : EMName) : commanded n out = 0 := by
  have h₀ : FailsafeInv (item, 0) ([] : List (Request R)) :=
    ⟨hl.unsecured ha, hl.tracked,
      Or.inl fun n => by cases n <;> [exact hl.heater_output; exact hl.cooler_output]⟩
  have hc' := Controller.along_and (Controller.along_of_forall_mem
    (C := fun _ _ i => i.automatic = true) (fun i him _ _ => hi i him) _ _) hc
  have hi : FailsafeInv t ([] ++ out) := by
    refine Controller.run_invariant_along ?_ h₀ hc' hr
    intro s h i s' o hi hl hs
    exact step_failsafe hi hl hs
  exact (hi.tracked n).1.symm.trans (hi.failsafe.allOff hk n)

/-- The last theorem on a run in which the heater is on when the sensor is lost. -/
theorem sensor_loss_failsafe_example :
    let is := [exampleControl 0 (some 240), exampleControl 1 (some 240),
      exampleControl 2 (some 240)] ++ List.replicate 9 (exampleControl 3 none)
    ∃ t out, Controller.run (Controller.observe step failedSteps) (exampleProg, 0) is =
        some (t, out) ∧
      (∃ p, p <+: out ∧ commanded .heater p = 1000) ∧ SNSRF_COUNT_MAX + 2 ≤ t.2 ∧
      commanded .heater out = 0 := by
  intro is
  have hr : Controller.run (Controller.observe step failedSteps) (exampleProg, 0) is =
    some (_, _) := rfl
  have hc : Controller.Along (Controller.observe step failedSteps)
      (fun s _ i => LeavesOff s.1 i) (exampleProg, 0) [] is :=
    Controller.along_of_forall_mem (fun i hi s _ => by
      simp only [is, List.mem_append, List.mem_cons, List.not_mem_nil, or_false,
        List.mem_replicate] at hi
      rcases hi with (rfl | rfl | rfl) | ⟨-, rfl⟩ <;> exact trivial) _ _
  exact ⟨_, _, hr, ⟨_, List.take_prefix 9 _, rfl⟩, by decide,
    sensor_loss_failsafe exampleProg_loaded rfl (by decide) hc hr (by decide) .heater⟩

/-- In `REG_INIT` steps without a value switch nothing off, however many there are. -/
theorem init_keeps_power {item t : RegOnfHC R} {h out : List (Request R)} {n : EMName}
    {is : List (ControlInput R)} (hs : item.state = .regInit) (hn : commanded n h ≠ 0)
    (hf : ∀ inp ∈ is, inp.snsr.fts? = none)
    (hr : Controller.run step item (is.map .control) = some (t, out)) :
    commanded n (h ++ out) ≠ 0 := by
  have hi : t.state = .regInit ∧ commanded n (h ++ out) ≠ 0 := by
    -- `REG_INIT` counts no failures, so it is its own invariant
    refine Controller.run_invariant (P := fun i => ∃ inp, i = .control inp ∧
      inp.snsr.fts? = none) (I := fun s l => s.state = .regInit ∧ commanded n l ≠ 0)
      ?_ ⟨hs, hn⟩ ?_ hr
    · rintro s l i s' o ⟨hs, hn⟩ ⟨inp, rfl, hf⟩ hst
      simp only [step, regonfhcControl, hs, Option.map_some, Option.some.injEq,
        Prod.mk.injEq] at hst
      obtain ⟨rfl, rfl⟩ := hst
      obtain ⟨h₁, h₂⟩ := controlInit_failed ⟨s, []⟩ hf l n
      exact ⟨h₁.trans hs, by rw [h₂]; simpa using hn⟩
    · intro i hi
      obtain ⟨inp, hmem, rfl⟩ := List.mem_map.mp hi
      exact ⟨inp, rfl, hf inp hmem⟩
  exact hi.2

/-- The condition is exact: after a command that does not meet it, a mechanism stays powered
through any number of steps without a value from the sensor. -/
theorem leavesOff_needed {item t : RegOnfHC R} {h out : List (Request R)} {o : Op R}
    {is : List (ControlInput R)} (ht : EMTracked item h) (hl : ¬LeavesOff item (.op o))
    (hf : ∀ inp ∈ is, inp.snsr.fts? = none)
    (hr : Controller.run step item (.op o :: is.map .control) = some (t, out)) :
    ∃ n, commanded n (h ++ out) ≠ 0 := by
  obtain ⟨s, o₁, o₂, hs, hr₂, rfl⟩ := Controller.run_cons_some.mp hr
  cases hs
  obtain ⟨hst, n, hn⟩ := op_powers_init (w := ⟨item, []⟩) hl
  have ht₁ := EMTracked.op (w := ⟨item, []⟩) (by simpa using ht) o
  rw [(ht₁ n).1] at hn
  refine ⟨n, ?_⟩
  rw [← List.append_assoc]
  exact init_keeps_power hst hn hf hr₂

/-- The heater is on when its delta is set, and stays on without a value from the sensor. -/
theorem sensor_loss_heater_on :
    let is := [exampleControl 0 (some 240), exampleControl 1 (some 240),
      exampleControl 2 (some 240), .op (.setHeaterDelta 5)] ++
      List.replicate 9 (exampleControl 3 none)
    Loaded exampleProg ∧ exampleProg.secure_out.active = false ∧
      (∀ i ∈ is, i.automatic = true) ∧
      ∃ t out, Controller.run (Controller.observe step failedSteps) (exampleProg, 0) is =
        some (t, out) ∧ SNSRF_COUNT_MAX + 2 ≤ t.2 ∧ commanded .heater out = 1000 :=
  ⟨exampleProg_loaded, rfl, by decide, _, _, rfl, by decide, rfl⟩

end Regonf
