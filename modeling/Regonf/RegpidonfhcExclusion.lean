import Regonf.RegonfhcExclusion
import Regonf.RegpidonfhcStep

/-! The heater and the cooler of the regulator with PID, each in either mode: a mechanism out of use
is off, and with the watchdog off and no manual power the two are never powered together. The
invariants are those of the on-off regulator, held of the on-off part. -/
namespace Regonf.Regpidonfhc

variable {R : Type*} [Zero R]

/-- What a step may send between two commands. -/
def Reads (l : List (Request R)) : Prop := l = [] ∨ ∃ s dst, l = [.getFTS s dst]

theorem Reads.commanded {l : List (Request R)} (hl : Reads l) (h : List (Request R))
    (n : EMName) : commanded n (h ++ l) = commanded n h := by
  rcases hl with rfl | ⟨s, dst, rfl⟩
  · rw [List.append_nil]
  · exact commanded_append_getFTS n h s dst

theorem Reads.never {l h : List (Request R)} (hl : Reads l) (hb : NeverBoth h) :
    NeverBoth (h ++ l) := by
  rcases hl with rfl | ⟨s, dst, rfl⟩
  · rwa [List.append_nil]
  · exact hb.concat_getFTS s dst

section
variable {h : List (Request R)} {w : Wire R}

theorem Loaded.tracked {item : RegPIDOnfHC R} (hl : Loaded item) : EMTracked item.onf [] := by
  intro n
  cases n with
  | heater => exact ⟨hl.heater_output, fun _ => rfl⟩
  | cooler => exact ⟨hl.cooler_output, fun _ => rfl⟩

theorem Loaded.exclusive {item : RegPIDOnfHC R} (hl : Loaded item)
    (ha : item.secure_out.active = false) : Exclusive item.onf [] where
  unsecured := ⟨ha, by rcases hl.state with h | h | h <;> simp [RegPIDOnfHC.onf, h]⟩
  tracked := hl.tracked
  otherOff := fun _ _ _ => rfl
  never := NeverBoth.nil

theorem op_tracked (ht : EMTracked w.onf.item (h ++ w.sent)) (o : Op R) :
    EMTracked (applyOp w o).onf.item (h ++ (applyOp w o).sent) := by
  -- a command of the on-off regulator as well, or a setter that commands nothing
  cases ho : o.onf? with
  | some o' =>
    have ht' := EMTracked.op (w := w.onf) ht o'
    rwa [← op_onf ho] at ht'
  | none =>
    obtain ⟨dh, dc, s, -, he⟩ := op_sets ho
    have ht' := EMTracked.upd (w := w.onf) ht (f := fun i =>
      { i with
        heater := { i.heater with delta := dh }
        cooler := { i.cooler with delta := dc }
        state := s }) ⟨rfl, rfl⟩ ⟨rfl, rfl⟩
    rwa [← he] at ht'

theorem controlEM_tracked (ht : EMTracked w.onf.item (h ++ w.sent)) (n : EMName) (v : R) :
    EMTracked (controlEM w n v).onf.item (h ++ (controlEM w n v).sent) := by
  have ht' := EMTracked.controlEM (w := w.onf) ht n v
  rwa [← controlEM_onf] at ht'

theorem readSensor_tracked (ht : EMTracked w.onf.item (h ++ w.sent)) (r : Reply R) :
    EMTracked (readSensor w r).onf.item (h ++ (readSensor w r).sent) :=
  EMTracked.readSensor (w := w.onf) ht r

theorem op_exclusive (he : Exclusive w.onf.item (h ++ w.sent)) {o : Op R}
    (ho : (Input.op o).automatic = true) :
    Exclusive (applyOp w o).onf.item (h ++ (applyOp w o).sent) := by
  have ht' := op_tracked he.tracked o
  -- the same two kinds of commands
  cases hf : o.onf? with
  | some o' =>
    have ha := (Op.onf?_automatic hf).trans ho
    have hop := op_onf (w := w) hf
    have hsent : (applyOp w o).sent = (Regonf.applyOp w.onf o').sent :=
      congrArg Regonf.Wire.sent hop
    rw [hsent, hop] at ht' ⊢
    exact ⟨op_unsecured he.unsecured o', ht', he.otherOff.op ha, he.never.op ha⟩
  | none =>
    obtain ⟨dh, dc, s, hs, hop⟩ := op_sets (w := w) hf
    have hsent : (applyOp w o).sent = w.sent := congrArg Regonf.Wire.sent hop
    rw [hsent, hop] at ht' ⊢
    refine ⟨⟨he.unsecured.1, ?_⟩, ht', fun hb n hn => ?_, he.never⟩
    · rcases hs with rfl | ⟨-, rfl⟩
      · exact he.unsecured.2
      · simp
    -- a program that regulates after the command has done so before it
    · rcases hs with rfl | ⟨-, rfl⟩
      · exact he.otherOff hb n hn
      · simp at hb

/-- The regulator after the reading of `REG_BUSY`. -/
theorem counted_tracked (ht : EMTracked w.onf.item (h ++ w.sent)) (inp : ControlInput R) :
    EMTracked ((readSensor w inp.snsr).upd fun i => { i with snsrf_count := 0 }).onf.item
      (h ++ ((readSensor w inp.snsr).upd fun i => { i with snsrf_count := 0 }).sent) :=
  EMTracked.upd (w := (readSensor w inp.snsr).onf) (readSensor_tracked ht inp.snsr)
    (f := fun i => { i with snsrf_count := 0 }) ⟨rfl, rfl⟩ ⟨rfl, rfl⟩

theorem greenLight_tracked [BEq R] (ht : EMTracked w.onf.item (h ++ w.sent)) (r : Reply R) :
    EMTracked (greenLightIsGreen w r).2.onf.item (h ++ (greenLightIsGreen w r).2.sent) := by
  have ht' := EMTracked.greenLight (w := w.onf) ht r
  rwa [← (greenLight_onf w r).2.1] at ht'

/-- The reset leaves all mechanisms off. -/
theorem reset_tracked (ht : EMTracked w.onf.item (h ++ w.sent)) :
    EMTracked (initReset w).onf.item (h ++ (initReset w).sent) ∧
      ∀ n, commanded n (h ++ (initReset w).sent) = 0 := by
  have ht' := (EMTracked.reset (w := w.onf) ht).upd
    (f := fun i => { i with state_r := w.item.state_r }) ⟨rfl, rfl⟩ ⟨rfl, rfl⟩
  rw [← initReset_onf] at ht'
  refine ⟨ht', fun n => ?_⟩
  have hu := EMTracked.upd (w := w.onf) ht (f := fun i =>
    { i with tmr := { i.tmr with ready := false }, state_r := .regHeater })
    ⟨rfl, rfl⟩ ⟨rfl, rfl⟩
  -- the record is zero, and it shows the last command
  refine (ht' n).1.symm.trans (Eq.trans ?_ (hu.outputs_zero n))
  rw [initReset_onf]
  cases n <;> rfl

variable [LT R] [DecidableLT R]

theorem initDone_tracked (ht : EMTracked w.onf.item (h ++ w.sent)) (inp : ControlInput R) :
    EMTracked (controlInitDone w inp).onf.item (h ++ (controlInitDone w inp).sent) ∧
      ∀ n, commanded n (h ++ (controlInitDone w inp).sent) = 0 := by
  obtain ⟨sensor, r, s, l, -, hl, he⟩ := controlInitDone_cases w inp
  obtain ⟨hr, hz⟩ := reset_tracked ht
  have hl : Reads l := hl.imp id fun ⟨dst, hd⟩ => ⟨.sensor, dst, hd⟩
  -- what follows the reset are readings, which command nothing
  have hc (n : EMName) : commanded n (h ++ ((initReset w).sent ++ l)) =
      commanded n (h ++ (initReset w).sent) := by
    rw [← List.append_assoc, hl.commanded]
  rw [he]
  refine ⟨hr.frame ?_ ?_ hc, fun n => (hc n).trans (hz n)⟩
  · exact fun n => by cases n <;> rfl
  · exact fun n => by cases n <;> rfl

theorem initDone_unsecured (ha : w.onf.item.secure_out.active = false) (inp : ControlInput R) :
    Unsecured (controlInitDone w inp).onf.item := by
  obtain ⟨sensor, r, s, l, hs, -, he⟩ := controlInitDone_cases w inp
  have hi := congrArg (fun v : Regonf.Wire R => v.item.secure_out.active) (initReset_onf w)
  rw [he]
  refine ⟨hi.trans ?_, ?_⟩
  · simpa [Regonf.initReset] using ha
  · rcases hs with rfl | rfl <;> simp [Wire.onf, RegPIDOnfHC.onf]

theorem initDone_never (hb : NeverBoth (h ++ w.sent)) (inp : ControlInput R) :
    NeverBoth (h ++ (controlInitDone w inp).sent) := by
  obtain ⟨sensor, r, s, l, -, hl, he⟩ := controlInitDone_cases w inp
  have hl : Reads l := hl.imp id fun ⟨dst, hd⟩ => ⟨.sensor, dst, hd⟩
  have hsent : (initReset w).sent = (Regonf.initReset w.onf).sent :=
    congrArg Regonf.Wire.sent (initReset_onf w)
  have hr : NeverBoth (h ++ (Regonf.initReset w.onf).sent) :=
    NeverBoth.controlEM_zero .cooler (NeverBoth.controlEM_zero .heater hb)
  rw [he]
  dsimp only
  rw [hsent, ← List.append_assoc]
  exact hl.never hr

variable [Add R] [Sub R]

theorem change_tracked (ht : EMTracked w.onf.item (h ++ w.sent)) (n : EMName)
    (inp : ControlInput R) :
    EMTracked (busyChange w n inp).onf.item (h ++ (busyChange w n inp).sent) := by
  rcases busyChange_cases w n inp with ⟨-, -, -, he⟩ | ⟨-, -, -, he⟩ | ⟨-, he⟩ <;> rw [he]
  · refine controlEM_tracked ?_ n 0
    exact EMTracked.upd (w := w.onf) ht (f := fun i =>
      { i with tmr := _, state_r := n.other.state }) ⟨rfl, rfl⟩ ⟨rfl, rfl⟩
  · exact EMTracked.upd (w := w.onf) ht (f := fun i => { i with tmr := _ }) ⟨rfl, rfl⟩ ⟨rfl, rfl⟩
  · exact EMTracked.upd (w := w.onf) ht (f := fun i => { i with tmr := _ }) ⟨rfl, rfl⟩ ⟨rfl, rfl⟩

/-- Before the drive of `REG_BUSY`, the mechanism that will not be driven is off. -/
theorem commanded_busyChange {n m : EMName} (ht : EMTracked w.onf.item (h ++ w.sent))
    (ho : commanded n.other (h ++ w.sent) = 0) (hb : NeverBoth (h ++ w.sent))
    (hn : w.item.state_r = n.state) (inp : ControlInput R)
    (hm : (busyChange w n inp).item.state_r = m.state) :
    commanded m.other (h ++ (busyChange w n inp).sent) = 0 ∧
      NeverBoth (h ++ (busyChange w n inp).sent) := by
  -- handed over: `n` has just been switched off; else it is driven on, the other being off
  rcases busyChange_cases w n inp with ⟨-, -, -, he⟩ | ⟨-, -, -, he⟩ | ⟨-, he⟩
  · have hmn : m = n.other := EMName.state_inj.mp (by rw [← hm, he]; simp)
    rw [he, hmn, EMName.other_other]
    set v := w.upd fun i =>
      { i with
        tmr := (tonTs w.item.change_gap w.item.tmr inp.gapFirst inp.gapNow).2
        state_r := n.other.state } with hv
    have htv : EMTracked v.onf.item (h ++ v.sent) :=
      EMTracked.upd (w := w.onf) ht (f := fun i => { i with tmr := _, state_r := n.other.state })
        ⟨rfl, rfl⟩ ⟨rfl, rfl⟩
    have hs : (controlEM v n 0).sent = (Regonf.controlEM v.onf n 0).sent :=
      congrArg Regonf.Wire.sent (controlEM_onf v n 0)
    rw [hs]
    exact ⟨commanded_controlEM_zero htv, NeverBoth.controlEM_zero (w := v.onf) n hb⟩
  · have hmn : m = n := EMName.state_inj.mp (by rw [← hm, he]; simp [hn])
    rw [he, hmn]
    exact ⟨ho, hb⟩
  · have hmn : m = n := EMName.state_inj.mp (by rw [← hm, he]; simp [hn])
    rw [he, hmn]
    exact ⟨ho, hb⟩

variable [Mul R] [Div R] [IntCast R]

theorem drive_tracked (ht : EMTracked w.onf.item (h ++ w.sent)) (m : EMName) (now : Timespec) :
    EMTracked (busyDrive w m now).onf.item (h ++ (busyDrive w m now).sent) := by
  have ht' := ((EMTracked.upd (w := w.onf) ht (f := fun i =>
    { i with
      output := (busyOutput w.item m now).output
      state_onf := (busyOutput w.item m now).state_onf })
    ⟨rfl, rfl⟩ ⟨rfl, rfl⟩).controlEM m (busyOutput w.item m now).output).controlEM m.other 0
  rwa [← busyDrive_onf_any] at ht'

/-- A drive of `m` while the other mechanism is off. -/
theorem drive_never {m : EMName} (ht : EMTracked w.onf.item (h ++ w.sent))
    (ho : commanded m.other (h ++ w.sent) = 0) (hb : NeverBoth (h ++ w.sent)) (now : Timespec) :
    commanded m.other (h ++ (busyDrive w m now).sent) = 0 ∧
      NeverBoth (h ++ (busyDrive w m now).sent) := by
  have hd := busyDrive_onf_any w m now
  have hsent := congrArg Regonf.Wire.sent hd
  have hsent' : (busyDrive w m now).sent = (busyDrive w m now).onf.sent := rfl
  rw [hsent', hsent]
  have htu := EMTracked.upd (w := w.onf) ht (f := fun i =>
    { i with
      output := (busyOutput w.item m now).output
      state_onf := (busyOutput w.item m now).state_onf }) ⟨rfl, rfl⟩ ⟨rfl, rfl⟩
  -- first the output to `m`, then 0 to the other mechanism
  refine ⟨commanded_controlEM_zero (htu.controlEM m _), NeverBoth.controlEM_zero m.other ?_⟩
  exact NeverBoth.controlEM (w := w.onf.upd _) hb (Or.inr ho)

variable [BEq R]

theorem control_tracked {w' : Wire R} {inp : ControlInput R}
    (ht : EMTracked w.onf.item (h ++ w.sent)) (hw : regpidonfhcControl w inp = some w') :
    EMTracked w'.onf.item (h ++ w'.sent) := by
  -- one case for each kind of control step
  cases control_cases hw with
  | onf hw' => exact EMTracked.control (w := w.onf) ht hw'
  | init =>
    exact (initDone_tracked (readSensor_tracked (greenLight_tracked ht _) inp.snsr) inp).1
  | @busy n m w₁ _ _ _ hw₁ _ =>
    have ht₁ : EMTracked w₁.onf.item (h ++ w₁.sent) := hw₁ ▸ counted_tracked ht inp
    exact EMTracked.secure (w := (busyDrive (busyChange w₁ n inp) m inp.pidNow).onf)
      (drive_tracked (change_tracked ht₁ n inp) m inp.pidNow) inp.toControlInput

theorem step_tracked {item item' : RegPIDOnfHC R} {out : List (Request R)} {i : Input R}
    (ht : EMTracked item.onf h) (hs : step item i = some (item', out)) :
    EMTracked item'.onf (h ++ out) := by
  have h₀ : EMTracked (⟨item, []⟩ : Wire R).onf.item (h ++ (⟨item, []⟩ : Wire R).sent) := by
    simpa [Wire.onf] using ht
  cases i with
  | control inp =>
    rw [step, Option.map_eq_some_iff] at hs
    obtain ⟨w, hw, he⟩ := hs
    cases he
    exact control_tracked h₀ hw
  | op o =>
    cases hs
    exact op_tracked h₀ o

/-- In every state that a zeroed program reaches, with each mechanism in either mode, the record of
a mechanism shows the last command to it, and a mechanism out of use is off. -/
theorem unused_off_in_any_mode {item t : RegPIDOnfHC R} {out : List (Request R)}
    {is : List (Input R)} (hl : Loaded item)
    (hr : Controller.run step item is = some (t, out)) (n : EMName) :
    (t.em n).output = commanded n out ∧
      ((t.em n).use = false → (t.em n).output = 0 ∧ commanded n out = 0) := by
  have ht : EMTracked t.onf out := Controller.run_invariant (P := fun _ => True)
    (I := fun s l => EMTracked s.onf l) (fun _ _ _ _ _ ht _ hs => step_tracked ht hs)
    hl.tracked (fun _ _ => trivial) hr
  obtain ⟨h₁, h₂⟩ := ht n
  cases n with
  | heater => exact ⟨h₁, fun hu => ⟨h₁.trans (h₂ hu), h₂ hu⟩⟩
  | cooler => exact ⟨h₁, fun hu => ⟨h₁.trans (h₂ hu), h₂ hu⟩⟩

end

/-- The last theorem on a run that takes a heater with PID out of use while it is powered. -/
theorem unused_off_in_any_mode_example :
    let is := [Input.control (exampleReading 0 (some 240) (some 240)),
      .control (exampleReading 1 (some 240) (some 240)),
      .control (exampleReading 2 (some 240) (some 240)), .op (.setEMMode "cooler")]
    ∃ t out, Controller.run step (exampleProg .regModePid .regModeOnf) is = some (t, out) ∧
      (∃ p, p <+: out ∧ commanded .heater p = 10) ∧
      (t.em .heater).output = 0 ∧ commanded .heater out = 0 := by
  intro is
  have hr : Controller.run step (exampleProg .regModePid .regModeOnf) is = some (_, _) := rfl
  exact ⟨_, _, hr, ⟨_, List.take_prefix 10 _, rfl⟩,
    (unused_off_in_any_mode (exampleProg_loaded _ _) hr .heater).2 rfl⟩

section
variable {h : List (Request R)} {w : Wire R}
variable [LT R] [DecidableLT R] [Add R] [Sub R] [Mul R] [Div R] [IntCast R] [BEq R]

theorem control_exclusive {w' : Wire R} {inp : ControlInput R}
    (he : Exclusive w.onf.item (h ++ w.sent)) (hw : regpidonfhcControl w inp = some w') :
    Exclusive w'.onf.item (h ++ w'.sent) := by
  have ht' := control_tracked he.tracked hw
  obtain ⟨hu, ht, ho, hb⟩ := he
  -- a step of the on-off regulator keeps its own invariant
  cases control_cases hw with
  | onf hw' =>
    obtain ⟨ho', hb'⟩ := Regonf.control_exclusive (w := w.onf) hu ht ho hb hw'
    exact ⟨Regonf.control_unsecured hu hw', ht', ho', hb'⟩
  | init hst =>
    set v := readSensor (greenLightIsGreen w inp.green).2 inp.snsr with hv
    have hg := (greenLight_onf w inp.green).2.1
    have htv : EMTracked v.onf.item (h ++ v.sent) :=
      readSensor_tracked (greenLight_tracked ht _) inp.snsr
    have hbv : NeverBoth (h ++ v.sent) := by
      have hbg := (NeverBoth.greenLight (w := w.onf) inp.green hb).readSensor inp.snsr
      rwa [← hg, ← readSensor_onf] at hbg
    have hav : v.onf.item.secure_out.active = false := by
      have hi := greenLightIsGreen_item w.onf inp.green
      rw [← hg] at hi
      exact (congrArg (fun i : RegOnfHC R => i.secure_out.active) hi).trans hu.1
    exact ⟨initDone_unsecured hav inp, ht', fun _ n _ => (initDone_tracked htv inp).2 n.other,
      initDone_never hbv inp⟩
  | @busy n m w₁ hst _ hn hw₁ hr =>
    -- the reading leaves what is known of the two mechanisms
    have ht₁ : EMTracked w₁.onf.item (h ++ w₁.sent) := hw₁ ▸ counted_tracked ht inp
    have hn₁ : w₁.item.state_r = n.state := by rw [hw₁]; exact hn
    have hs₁ : w₁.sent = w.sent ++ [.getFTS .sensor w.item.sensor.peer.addr] := by
      rw [hw₁]
      rfl
    have hc₁ : commanded n.other (h ++ w₁.sent) = 0 := by
      rw [hs₁, ← List.append_assoc, commanded_append_getFTS]
      exact ho hst n hn
    have hb₁ : NeverBoth (h ++ w₁.sent) := by
      rw [hs₁, ← List.append_assoc]
      exact hb.concat_getFTS _ _
    obtain ⟨hoff, hb₂⟩ := commanded_busyChange ht₁ hc₁ hb₁ hn₁ inp hr
    -- the other mechanism is off before the drive, so the drive may power `m`
    obtain ⟨hoff', hb₃⟩ := drive_never (change_tracked ht₁ n inp) hoff hb₂ inp.pidNow
    set v := busyDrive (busyChange w₁ n inp) m inp.pidNow with hv
    have hframe := busyDrive_onf_frame (busyChange w₁ n inp) m inp.pidNow
    have hchange := busyChange_onf_frame w₁ n inp
    have hav : v.onf.item.secure_out.active = false := by
      rw [hframe.2.2.1, hchange.2.1, hw₁]
      exact hu.1
    have hsv : v.onf.item.state = .regBusy := by
      rw [hframe.1, hchange.1, hw₁]
      exact hst
    have hrv : v.onf.item.state_r = m.state := hframe.2.1.trans hr
    have he : (busySecure v inp).onf = v.onf := busySecure_inactive hav inp.toControlInput
    refine ⟨?_, ht', ?_, hb₃⟩
    · rw [he]
      exact ⟨hav, by rw [hsv]; decide⟩
    · rw [he]
      intro _ k hk
      obtain rfl : m = k := EMName.state_inj.mp (hrv.symm.trans hk)
      exact hoff'

theorem step_exclusive {item item' : RegPIDOnfHC R} {out : List (Request R)} {i : Input R}
    (he : Exclusive item.onf h) (ha : i.automatic = true)
    (hs : step item i = some (item', out)) : Exclusive item'.onf (h ++ out) := by
  have h₀ : Exclusive (⟨item, []⟩ : Wire R).onf.item (h ++ (⟨item, []⟩ : Wire R).sent) := by
    simpa [Wire.onf] using he
  cases i with
  | control inp =>
    rw [step, Option.map_eq_some_iff] at hs
    obtain ⟨w, hw, he⟩ := hs
    cases he
    exact control_exclusive h₀ hw
  | op o =>
    cases hs
    exact op_exclusive h₀ ha

/-- In every run of a zeroed program with the watchdog off and no manual power, with each mechanism
in either mode and the modes changed at any time, one of the two mechanisms was last commanded 0 at
every point between two messages. -/
theorem never_both_in_any_mode {item t : RegPIDOnfHC R} {out p : List (Request R)}
    {is : List (Input R)} (hl : Loaded item) (ha : item.secure_out.active = false)
    (hi : ∀ i ∈ is, i.automatic = true) (hr : Controller.run step item is = some (t, out))
    (hp : p <+: out) : commanded .heater p = 0 ∨ commanded .cooler p = 0 := by
  have he : Exclusive t.onf out := Controller.run_invariant (P := fun i => i.automatic = true)
    (I := fun s l => Exclusive s.onf l) (fun _ _ _ _ _ he hi hs => step_exclusive he hi hs)
    (hl.exclusive ha) hi hr
  exact he.never p hp

end

/-- The last theorem on a run from a heater with PID to a cooler that works on-off. -/
theorem never_both_in_any_mode_example :
    let is := [Input.control (exampleReading 0 (some 240) (some 240)),
      .control (exampleReading 1 (some 240) (some 240)),
      .control (exampleReading 2 (some 240) (some 240)), .op (.setEMMode "cooler"),
      .control (exampleReading 3 (some 260) (some 260)),
      .control (exampleReading 4 (some 260) (some 260)),
      .control (exampleReading 5 (some 260) (some 260))]
    ∃ t out, Controller.run step (exampleProg .regModePid .regModeOnf) is = some (t, out) ∧
      (∃ p, p <+: out ∧ commanded .heater p = 10) ∧ commanded .cooler out = 1000 ∧
      ∀ p, p <+: out → commanded .heater p = 0 ∨ commanded .cooler p = 0 := by
  intro is
  have hr : Controller.run step (exampleProg .regModePid .regModeOnf) is = some (_, _) := rfl
  exact ⟨_, _, hr, ⟨_, List.take_prefix 10 _, rfl⟩, rfl, fun p hp =>
    never_both_in_any_mode (exampleProg_loaded _ _) rfl (by decide) hr hp⟩

end Regonf.Regpidonfhc
