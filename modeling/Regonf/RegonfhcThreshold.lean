import Regonf.RegonfhcFailsafe

/-! Readings against commands in `REG_BUSY`: what a reading beyond a threshold switches off, and
what the switching on of a mechanism goes back to. -/
namespace Regonf

variable {R : Type*} [Zero R] [Add R] [Sub R] [LT R] [DecidableLT R] [BEq R]

theorem run_names {item t : RegOnfHC R} {out : List (Request R)} {is : List (Input R)}
    (hl : Loaded item) (hr : Controller.run step item is = some (t, out)) : NamesEM t := by
  refine Controller.run_invariant (P := fun _ => True) (I := fun s _ => NamesEM s) (h := []) ?_
    (NamesEM.of_not hl.not_regulating) (fun _ _ => trivial) hr
  intro s h i s' o hi _ hs
  exact step_names hi hs

/-- The reading `v` is beyond the threshold at which the mechanism has done its work. -/
def Beyond (item : RegOnfHC R) (v : R) : EMName → Prop
  | .heater => v > item.goal + item.heater.delta
  | .cooler => v < item.goal - item.cooler.delta

instance (item : RegOnfHC R) (v : R) (n : EMName) : Decidable (Beyond item v n) :=
  match n with
  | .heater => inferInstanceAs (Decidable (_ > _))
  | .cooler => inferInstanceAs (Decidable (_ < _))

omit [Zero R] [BEq R] in
theorem beyond_iff {item : RegOnfHC R} {inp : ControlInput R} {f : FTS R}
    (hf : inp.snsr.fts? = some f) (n : EMName) :
    valIsOut (readSensor ⟨item, []⟩ inp.snsr).item n = true ↔ Beyond item f.value n := by
  cases n <;> simp [valIsOut, readSensor, readSensorFTS, hf, Beyond]

/-- The step, taken with `n` active, hands over to the other mechanism. -/
def handsOver (item : RegOnfHC R) (n : EMName) (inp : ControlInput R) : Bool :=
  valIsOut (readSensor ⟨item, []⟩ inp.snsr).item n && (item.em n.other).use &&
    (tonTs item.change_gap item.tmr inp.gapFirst inp.gapNow).1

/-- The mechanism that the step drives. -/
def driven (item : RegOnfHC R) (n : EMName) (inp : ControlInput R) : EMName :=
  if handsOver item n inp then n.other else n

omit [BEq R] in
theorem controlBusy_driven {item : RegOnfHC R} {n : EMName} (hn : item.state_r = n.state)
    {inp : ControlInput R} (hf : inp.snsr.fts?.isSome = true) :
    ∃ w₁ : Wire R,
      w₁ = (readSensor ⟨item, []⟩ inp.snsr).upd (fun i => { i with snsrf_count := 0 }) ∧
      (busyChange w₁ n inp).item.state_r = (driven item n inp).state ∧
      controlBusy ⟨item, []⟩ inp =
        some (busySecure (busyDrive (busyChange w₁ n inp) (driven item n inp)) inp) := by
  let w₁ := (readSensor ⟨item, []⟩ inp.snsr).upd fun i => { i with snsrf_count := 0 }
  have hv : valIsOut w₁.item n = valIsOut (readSensor ⟨item, []⟩ inp.snsr).item n :=
    (thresholds_congr rfl rfl (fun k => by cases k <;> rfl) n).1
  have hu : (w₁.item.em n.other).use = (item.em n.other).use := by cases n <;> rfl
  have hr : (busyChange w₁ n inp).item.state_r = (driven item n inp).state := by
    rcases busyChange_cases w₁ n inp with ⟨h₁, h₂, h₃, he⟩ | ⟨-, -, h₃, he⟩ | ⟨h₁, he⟩
    · have hd : handsOver item n inp = true := by
        simp only [handsOver, ← hv, ← hu, h₁, h₂, Bool.and_self, Bool.true_and]
        exact h₃
      simp [he, driven, hd]
    · have hd : handsOver item n inp = false := by
        simp only [handsOver, Bool.and_eq_false_iff]
        exact Or.inr h₃
      simp [he, driven, hd, w₁, hn]
    · have hd : handsOver item n inp = false := by
        simp only [handsOver, ← hv, ← hu, Bool.and_eq_false_iff]
        rw [← Bool.and_eq_true, Bool.not_eq_true, Bool.and_eq_false_iff] at h₁
        exact Or.inl h₁
      simp [he, driven, hd, w₁, hn]
  refine ⟨w₁, rfl, hr, ?_⟩
  unfold controlBusy
  dsimp only
  rw [if_pos hf]
  exact busyRegulate_of_state_r (by simpa using hn) hr

/-- The outputs after a `REG_BUSY` step with a reading: the mechanism driven shows the decision
of the step before, and the other one is off. -/
theorem busy_outputs {t : RegOnfHC R} {out : List (Request R)} {inp : ControlInput R}
    {n : EMName} (ht : EMTracked t out) (hb : t.state = .regBusy) (hn : t.state_r = n.state)
    (ho : t.state_onf = .regDo ∨ t.state_onf = .regWait)
    (hf : inp.snsr.fts?.isSome = true) :
    ∃ t' o, step t (.control inp) = some (t', o) ∧ t'.state_r = (driven t n inp).state ∧
      (∀ k, commanded k (out ++ o) =
        if k = driven t n inp ∧ (t.em k).use = true ∧ t.state_onf = .regDo
        then (t.em k).em.pwm_rsl else 0) ∧
      t'.state_onf = if t.state_onf = .regDo
        then if valIsOut (readSensor ⟨t, []⟩ inp.snsr).item (driven t n inp) then .regWait
          else .regDo
        else if valIsLow (readSensor ⟨t, []⟩ inp.snsr).item (driven t n inp) then .regDo
          else .regWait := by
  obtain ⟨w₁, hw₁, hr, hw⟩ := controlBusy_driven hn hf
  have hs : step t (.control inp) = some
      ((busySecure (busyDrive (busyChange w₁ n inp) (driven t n inp)) inp).item,
        (busySecure (busyDrive (busyChange w₁ n inp) (driven t n inp)) inp).sent) := by
    simp only [step, regonfhcControl, hb, hw, Option.map_some]
  have ht₁ : EMTracked (busyChange w₁ n inp).item (out ++ (busyChange w₁ n inp).sent) := by
    rw [hw₁]
    have ht₀ : EMTracked (⟨t, []⟩ : Wire R).item (out ++ (⟨t, []⟩ : Wire R).sent) := by
      simpa using ht
    exact ((ht₀.readSensor _).upd ⟨rfl, rfl⟩ ⟨rfl, rfl⟩).change n inp
  have hem (k : EMName) : w₁.item.em k = t.em k := by rw [hw₁]; cases k <;> rfl
  have ho₁ : (busyChange w₁ n inp).item.state_onf = t.state_onf := by simp [hw₁]
  have hthr (k : EMName) :
      valIsOut (busyChange w₁ n inp).item k = valIsOut (readSensor ⟨t, []⟩ inp.snsr).item k ∧
      valIsLow (busyChange w₁ n inp).item k = valIsLow (readSensor ⟨t, []⟩ inp.snsr).item k :=
    thresholds_congr (by simp [hw₁]) (by simp [hw₁]) (fun k => by simp [hem]) k
  refine ⟨_, _, hs, by simpa using hr, fun k => ?_, ?_⟩
  · rw [← (step_tracked ht hs k).1, busySecure_em, ht₁.drive_output]
    by_cases hk : k = driven t n inp ∧ (t.em k).use = true
    · obtain ⟨rfl, hu⟩ := hk
      rcases ho with ho | ho
      · simp [busyOnf_do _ (ho₁.trans ho), hem, hu, ho]
      · simp [busyOnf_wait _ (ho₁.trans ho), ho]
    · rw [if_neg (by rintro ⟨rfl, hu⟩; exact hk ⟨rfl, by simpa [hem] using hu⟩),
        if_neg fun hc => hk ⟨hc.1, hc.2.1⟩]
  · rw [← (hthr _).1, ← (hthr _).2]
    rcases ho with ho | ho
    · simp [busyOnf_do _ (ho₁.trans ho), ho]
    · simp [busyOnf_wait _ (ho₁.trans ho), ho]

/-- A reading beyond the threshold of a mechanism leaves it commanded off, unless the step
drives it from `REG_DO`: then it is commanded on once more and goes to `REG_WAIT`. -/
theorem beyond_threshold_off {item t : RegOnfHC R} {out : List (Request R)}
    {is : List (Input R)} {inp : ControlInput R} {f : FTS R} (hl : Loaded item)
    (hr : Controller.run step item is = some (t, out)) (hb : t.state = .regBusy)
    (hf : inp.snsr.fts? = some f) :
    ∃ t' o, step t (.control inp) = some (t', o) ∧ ∀ n : EMName, Beyond t f.value n →
      if t'.state_r = n.state ∧ t.state_onf = .regDo ∧ (t.em n).use = true
      then commanded n (out ++ o) = (t.em n).em.pwm_rsl ∧ t'.state_onf = .regWait
      else commanded n (out ++ o) = 0 := by
  obtain ⟨⟨n, hn⟩, ho⟩ := run_names hl hr (Or.inl hb)
  obtain ⟨t', o, hs, hr', hc, ho'⟩ := busy_outputs (run_tracked hl hr) hb hn ho
    (show inp.snsr.fts?.isSome = true by simp [hf])
  refine ⟨t', o, hs, fun k hv => ?_⟩
  split_ifs with h
  · obtain ⟨hk, hdo, hu⟩ := h
    obtain rfl : driven t n inp = k := EMName.state_inj.mp (hr'.symm.trans hk)
    exact ⟨by simp [hc, hdo, hu], by simp [ho', hdo, (beyond_iff hf _).mpr hv]⟩
  · rw [hc, if_neg]
    rintro ⟨rfl, hu, hdo⟩
    exact h ⟨hr', hdo, hu⟩

/-- The last theorem on a cold program that reads 260: the cooler stays off. -/
theorem beyond_threshold_off_example :
    ∃ t out t' o, Controller.run step exampleProg [exampleControl 0 (some 240)] =
        some (t, out) ∧
      step t (exampleControl 1 (some 260)) = some (t', o) ∧ commanded .heater (out ++ o) = 0 := by
  have hr : Controller.run step exampleProg [exampleControl 0 (some 240)] = some (_, _) := rfl
  obtain ⟨t', o, hs, h⟩ := beyond_threshold_off (f := ⟨1, 260, ⟨1, 0⟩, 1⟩) exampleProg_loaded hr
    rfl (rfl : (exampleReading 1 (some 260)).snsr.fts? = _)
  refine ⟨_, _, t', o, hr, hs, ?_⟩
  have hh := h .heater (by decide)
  rwa [if_neg fun hc => absurd hc.2.1 (by decide)] at hh

/-- The heater is on and the reading is beyond its threshold, but the step still commands the
output that it had decided on before. -/
theorem beyond_threshold_still_on :
    let is := [exampleControl 0 (some 240), exampleControl 1 (some 240),
      exampleControl 2 (some 240)]
    Loaded exampleProg ∧ ∃ t out t' o, Controller.run step exampleProg is = some (t, out) ∧
      t.state = .regBusy ∧ step t (exampleControl 3 (some 260)) = some (t', o) ∧
      (260 : ℤ) > t.goal + t.heater.delta ∧ commanded .heater (out ++ o) = 1000 ∧
      t'.heater.output = 1000 :=
  ⟨exampleProg_loaded, _, _, _, _, rfl, rfl, rfl, by decide, rfl, rfl⟩

/-- The readings taken since the active mechanism became active, each with the regulator as it
stood then. The reading of the step that hands over is the first of the new mechanism. -/
def readingsSince (l : List (RegOnfHC R)) (item : RegOnfHC R) (i : Input R) :
    List (RegOnfHC R) :=
  match i with
  | .op _ => l
  | .control inp =>
    if readsSensor item i then
      let r := (readSensor ⟨item, []⟩ inp.snsr).item
      if item.state = .regBusy then
        match EMName.ofState? item.state_r with
        | some n => if handsOver item n inp then [r] else r :: l
        | none => l
      -- `REG_INIT` completes
      else []
    else l

/-- The step does not hand over from `REG_DO`, unless its reading asks for the mechanism that it
hands over to. -/
def OwnReason (item : RegOnfHC R) : Input R → Prop
  | .op _ => True
  | .control inp =>
    item.state = .regBusy → item.state_onf = .regDo → inp.snsr.fts?.isSome = true →
      ∀ n : EMName, item.state_r = n.state → handsOver item n inp = true →
        valIsLow (readSensor ⟨item, []⟩ inp.snsr).item n.other = true

section
variable {t : RegOnfHC R} (l : List (RegOnfHC R)) {inp : ControlInput R} {n : EMName}

omit [Zero R] in
theorem readingsSince_handover (hb : t.state = .regBusy) (hn : t.state_r = n.state)
    (hf : inp.snsr.fts?.isSome = true) (hh : handsOver t n inp = true) :
    readingsSince l t (.control inp) = [(readSensor ⟨t, []⟩ inp.snsr).item] := by
  simp [readingsSince, readsSensor, hf, hb, hn, hh]

omit [Zero R] in
theorem readingsSince_stays (hb : t.state = .regBusy) (hn : t.state_r = n.state)
    (hf : inp.snsr.fts?.isSome = true) (hh : handsOver t n inp = false) :
    readingsSince l t (.control inp) = (readSensor ⟨t, []⟩ inp.snsr).item :: l := by
  simp [readingsSince, readsSensor, hf, hb, hn, hh]

omit [Zero R] in
theorem readingsSince_failed (hb : t.state = .regBusy) (hf : inp.snsr.fts?.isSome = false) :
    readingsSince l t (.control inp) = l := by
  simp [readingsSince, readsSensor, hb, hf]

end

/-- In `REG_DO` the active mechanism has been asked for since it became active. -/
def Reasoned (s : RegOnfHC R × List (RegOnfHC R)) : Prop :=
  s.1.state = .regBusy → s.1.state_onf = .regDo → ∀ n : EMName, s.1.state_r = n.state →
    ∃ r ∈ s.2, valIsLow r n = true

omit [Zero R] in
/-- The readings after a `REG_BUSY` step that drives in `REG_DO`. -/
theorem readingsSince_driven {t : RegOnfHC R} {l : List (RegOnfHC R)} {inp : ControlInput R}
    {n : EMName} (hi : Reasoned (t, l)) (hk : OwnReason t (.control inp))
    (hb : t.state = .regBusy) (hn : t.state_r = n.state) (hf : inp.snsr.fts?.isSome = true)
    (hdo : t.state_onf = .regDo) :
    ∃ r ∈ readingsSince l t (.control inp), valIsLow r (driven t n inp) = true := by
  cases hh : handsOver t n inp with
  | true =>
    rw [readingsSince_handover l hb hn hf hh]
    exact ⟨_, List.mem_singleton_self _, by simpa [driven, hh] using hk hb hdo hf n hn hh⟩
  | false =>
    obtain ⟨r, hm, hl⟩ := hi hb hdo n hn
    rw [readingsSince_stays l hb hn hf hh]
    exact ⟨r, List.mem_cons_of_mem _ hm, by simpa [driven, hh] using hl⟩

omit [Zero R] in
/-- The present reading is among the readings. -/
theorem reading_mem {t : RegOnfHC R} {l : List (RegOnfHC R)} {inp : ControlInput R}
    {n : EMName} (hb : t.state = .regBusy) (hn : t.state_r = n.state)
    (hf : inp.snsr.fts?.isSome = true) :
    (readSensor ⟨t, []⟩ inp.snsr).item ∈ readingsSince l t (.control inp) := by
  cases hh : handsOver t n inp with
  | true =>
    rw [readingsSince_handover l hb hn hf hh]
    exact List.mem_singleton_self _
  | false =>
    rw [readingsSince_stays l hb hn hf hh]
    exact List.mem_cons_self

/-- A control step that is not a `REG_BUSY` step with a reading switches nothing on. -/
theorem control_quiet {t : RegOnfHC R} {out : List (Request R)} {w : Wire R}
    {inp : ControlInput R} (ht : EMTracked t out) (hu : Unsecured t)
    (hw : regonfhcControl ⟨t, []⟩ inp = some w)
    (hno : ¬(t.state = .regBusy ∧ inp.snsr.fts?.isSome = true)) (n : EMName) :
    (w.item.em n).output = 0 ∨ (w.item.em n).output = (t.em n).output := by
  have ht' : EMTracked (⟨t, []⟩ : Wire R).item (out ++ (⟨t, []⟩ : Wire R).sent) := by
    simpa using ht
  cases control_cases hw with
  | init hst =>
    rcases controlInit_cases ⟨t, []⟩ inp with ⟨g, s, he⟩ | ⟨-, -, he⟩
    · exact Or.inr (by rw [he]; cases n <;> rfl)
    · exact Or.inl (by rw [he]; exact AllOff.initDone ((ht'.greenLight _).readSensor _) n)
  | busy hst hok => exact absurd ⟨hst, hok⟩ hno
  | failed hst hf =>
    unfold busyFailed
    dsimp only
    split_ifs
    · exact Or.inl (Eq.trans (by cases n <;> rfl) ((ht'.readSensor inp.snsr).outputs_zero n))
    · exact Or.inr (by cases n <;> rfl)
  | secure hst => exact absurd hst hu.2
  | disable => exact Or.inl (by cases n <;> rfl)
  | off => exact Or.inr rfl
  | other => exact Or.inr (by cases n <;> rfl)

/-- A control step that is not a `REG_BUSY` step with a reading. -/
theorem control_reasoned {t : RegOnfHC R} {l : List (RegOnfHC R)} {w : Wire R}
    {inp : ControlInput R} (hu : Unsecured t) (hi : Reasoned (t, l))
    (hw : regonfhcControl ⟨t, []⟩ inp = some w)
    (hno : ¬(t.state = .regBusy ∧ inp.snsr.fts?.isSome = true)) :
    Reasoned (w.item, readingsSince l t (.control inp)) := by
  have hidle : w.item.state ≠ .regBusy ∨ w.item.state_onf ≠ .regDo →
      Reasoned (w.item, readingsSince l t (.control inp)) := by
    rintro (h | h) hb hdo
    · exact absurd hb h
    · exact absurd hdo h
  cases control_cases hw with
  | init hst =>
    have hst : t.state = .regInit := hst
    rcases controlInit_cases ⟨t, []⟩ inp with ⟨g, s, he⟩ | ⟨-, -, he⟩
    · exact hidle (Or.inl (by simp [he, hst]))
    · rw [he] at hidle ⊢
      rcases controlInitDone_spec (readSensor (greenLightIsGreen ⟨t, []⟩ inp.green).2 inp.snsr) with
        ⟨n, -, -, -, ho, -⟩ | hd
      · exact hidle (Or.inr (by simp [ho]))
      · exact hidle (Or.inl (by simp [hd]))
  | busy hst hok => exact absurd ⟨hst, hok⟩ hno
  | failed hst hf =>
    rw [readingsSince_failed l hst hf]
    obtain ⟨-, hr, ho, -⟩ := busyFailed_frame (readSensor ⟨t, []⟩ inp.snsr)
    intro _ hdo k hk
    exact hi hst (ho.symm.trans hdo) k (hr.symm.trans hk)
  | secure hst => exact absurd hst hu.2
  | disable => exact hidle (Or.inl (by simp [controlDisable]))
  | off hst => exact hidle (Or.inl fun h => absurd (hst.symm.trans h) (by decide))
  | other => exact hidle (Or.inl (by simp))

theorem step_reasoned {s s' : RegOnfHC R × List (RegOnfHC R)} {h out : List (Request R)}
    {i : Input R} (ht : EMTracked s.1 h) (hn : NamesEM s.1) (hu : Unsecured s.1)
    (hi : Reasoned s) (hk : OwnReason s.1 i)
    (hs : Controller.observe step readingsSince s i = some (s', out)) : Reasoned s' := by
  obtain ⟨t, l⟩ := s
  obtain ⟨t', l'⟩ := s'
  obtain ⟨hs, rfl⟩ := Controller.observe_some.mp hs
  intro hb' hdo' k hk'
  cases i with
  | op o =>
    cases hs
    obtain ⟨hb, hr, ho, -⟩ := op_busy (w := ⟨t, []⟩) hb'
    exact hi hb (ho.symm.trans hdo') k (hr.symm.trans hk')
  | control inp =>
    by_cases hbf : t.state = .regBusy ∧ inp.snsr.fts?.isSome = true
    · obtain ⟨hb, hf⟩ := hbf
      obtain ⟨⟨n, hn⟩, ho⟩ := hn (Or.inl hb)
      obtain ⟨_, _, hs₁, hr', -, ho'⟩ := busy_outputs ht hb hn ho hf
      rw [hs] at hs₁
      cases hs₁
      obtain rfl : driven t n inp = k := EMName.state_inj.mp (hr'.symm.trans hk')
      rcases ho with hdo | hwait
      · exact readingsSince_driven hi hk hb hn hf hdo
      -- from `REG_WAIT` the present reading asks for the mechanism
      · refine ⟨_, reading_mem hb hn hf, ?_⟩
        have hdo : t'.state_onf = .regDo := hdo'
        rw [ho', hwait] at hdo
        simpa using hdo
    · rw [step, Option.map_eq_some_iff] at hs
      obtain ⟨w, hw, hwe⟩ := hs
      cases hwe
      exact control_reasoned hu hi hw hbf hb' hdo' k hk'

/-- The invariant of a run with the watchdog off whose steps all meet `OwnReason`. -/
structure ReasonedInv (s : RegOnfHC R × List (RegOnfHC R)) (h : List (Request R)) : Prop where
  tracked : EMTracked s.1 h
  names : NamesEM s.1
  unsecured : Unsecured s.1
  reasoned : Reasoned s

theorem run_reasoned {item : RegOnfHC R} {s : RegOnfHC R × List (RegOnfHC R)}
    {h : List (Request R)} {is : List (Input R)} (hl : Loaded item)
    (ha : item.secure_out.active = false)
    (hc : Controller.Along (Controller.observe step readingsSince)
      (fun s _ i => OwnReason s.1 i) (item, []) [] is)
    (hr : Controller.run (Controller.observe step readingsSince) (item, []) is = some (s, h)) :
    ReasonedInv s h := by
  have h₀ : ReasonedInv (item, []) ([] : List (Request R)) :=
    ⟨hl.tracked, NamesEM.of_not hl.not_regulating, hl.unsecured ha,
      fun hb => absurd (Or.inl hb) hl.not_regulating⟩
  refine Controller.run_invariant_along (h := []) ?_ h₀ hc hr
  intro s h i s' o hi hk hs
  have hstep := (Controller.observe_some.mp hs).1
  exact ⟨step_tracked hi.tracked hstep, step_names hi.names hstep,
    step_unsecured hi.unsecured hstep,
    step_reasoned hi.tracked hi.names hi.unsecured hi.reasoned hk hs⟩

/-- In a run with the watchdog off whose steps all meet `OwnReason`, a control step that takes
the command of a mechanism from 0 to another value has a reading that asked for the
mechanism since it became active. -/
theorem switched_on_for_own_reason {item t t' : RegOnfHC R} {l l' : List (RegOnfHC R)}
    {h o : List (Request R)} {is : List (Input R)} {n : EMName} (hl : Loaded item)
    (ha : item.secure_out.active = false)
    (hc : Controller.Along (Controller.observe step readingsSince)
      (fun s _ i => OwnReason s.1 i) (item, []) [] is)
    (hr : Controller.run (Controller.observe step readingsSince) (item, []) is =
      some ((t, l), h))
    (inp : ControlInput R) (hk : OwnReason t (.control inp))
    (hs : Controller.observe step readingsSince (t, l) (.control inp) = some ((t', l'), o))
    (hoff : commanded n h = 0) (hon : commanded n (h ++ o) ≠ 0) :
    t'.state_r = n.state ∧ ∃ r ∈ l', valIsLow r n = true := by
  obtain ⟨ht, hn, hu, hi⟩ := run_reasoned hl ha hc hr
  obtain ⟨hs, rfl⟩ := Controller.observe_some.mp hs
  by_cases hbf : t.state = .regBusy ∧ inp.snsr.fts?.isSome = true
  · obtain ⟨hb, hf⟩ := hbf
    obtain ⟨⟨k, hk'⟩, ho⟩ := hn (Or.inl hb)
    obtain ⟨_, _, hs₁, hr', hcmd, -⟩ := busy_outputs ht hb hk' ho hf
    rw [hs] at hs₁
    cases hs₁
    rw [hcmd] at hon
    -- only the mechanism that is driven from `REG_DO` is on
    obtain ⟨⟨rfl, -, hdo⟩, -⟩ := ite_ne_right_iff.mp hon
    exact ⟨hr', readingsSince_driven hi hk hb hk' hf hdo⟩
  · have hout := (step_tracked ht hs n).1
    rw [step, Option.map_eq_some_iff] at hs
    obtain ⟨w, hw, hwe⟩ := hs
    cases hwe
    rw [← hout] at hon
    rcases control_quiet ht hu hw hbf n with h₀ | h₀
    · exact absurd h₀ hon
    · exact absurd (h₀.trans ((ht n).1.trans hoff)) hon

/-- The condition is needed: a step that does not meet it commands the mechanism it hands over
to on, and no reading since has asked for that mechanism. -/
theorem ownReason_needed {t : RegOnfHC R} {h : List (Request R)} {inp : ControlInput R}
    (ht : EMTracked t h) (l : List (RegOnfHC R)) (hk : ¬OwnReason t (.control inp)) :
    ∃ t' l' o, ∃ n : EMName,
      Controller.observe step readingsSince (t, l) (.control inp) = some ((t', l'), o) ∧
      t'.state_r = n.state ∧ commanded n (h ++ o) = (t.em n).em.pwm_rsl ∧
      ∀ r ∈ l', valIsLow r n = false := by
  unfold OwnReason at hk
  push Not at hk
  obtain ⟨hb, hdo, hf, n, hn, hh, hlow⟩ := hk
  have hd : driven t n inp = n.other := by simp [driven, hh]
  obtain ⟨t', o, hs, hr', hcmd, -⟩ := busy_outputs ht hb hn (Or.inl hdo) hf
  have hu : (t.em n.other).use = true := by
    simp only [handsOver, Bool.and_eq_true] at hh
    exact hh.1.2
  refine ⟨t', readingsSince l t (.control inp), o, n.other,
    Controller.observe_some.mpr ⟨hs, rfl⟩, hd ▸ hr', ?_, ?_⟩
  · rw [hcmd, hd, if_pos ⟨rfl, hu, hdo⟩]
  · rw [readingsSince_handover l hb hn hf hh]
    simpa using hlow

/-- The last theorem on the step that powers the heater of the example program. -/
theorem switched_on_for_own_reason_example :
    let is := [exampleControl 0 (some 240), exampleControl 1 (some 240)]
    ∃ t l h t' l' o,
      Controller.run (Controller.observe step readingsSince) (exampleProg, []) is =
        some ((t, l), h) ∧
      Controller.observe step readingsSince (t, l) (exampleControl 2 (some 240)) =
        some ((t', l'), o) ∧
      commanded .heater h = 0 ∧ commanded .heater (h ++ o) = 1000 ∧
      ∃ r ∈ l', valIsLow r .heater = true := by
  intro is
  have hr : Controller.run (Controller.observe step readingsSince) (exampleProg, []) is =
    some ((_, _), _) := rfl
  have hc : Controller.Along (Controller.observe step readingsSince)
      (fun s _ i => OwnReason s.1 i) (exampleProg, []) [] is :=
    Controller.along_cons rfl (fun hb => absurd hb (by decide))
      (Controller.along_cons rfl (fun _ hdo => absurd hdo (by decide)) trivial)
  refine ⟨_, _, _, _, _, _, hr, rfl, rfl, rfl, (switched_on_for_own_reason exampleProg_loaded rfl
    hc hr (exampleReading 2 (some 240)) ?_ rfl rfl (by decide)).2⟩
  rintro - - - (_ | _) hn hh
  · exact absurd hh (by decide)
  · exact absurd hn (by decide)

/-- With a negative gap the first reading beyond the heater's threshold hands over from
`REG_DO`, and the cooler is powered at 260 although it goes on above 300 only. -/
theorem switched_on_without_reason :
    let is := [.op (.setChangeGap (-1)), .op (.setCoolerDelta 50), exampleControl 0 (some 240),
      exampleControl 1 (some 240), exampleControl 2 (some 240)]
    Loaded exampleProg ∧ exampleProg.secure_out.active = false ∧ ∃ t l h t' l' o,
      Controller.run (Controller.observe step readingsSince) (exampleProg, []) is =
        some ((t, l), h) ∧
      Controller.observe step readingsSince (t, l) (exampleControl 3 (some 260)) =
        some ((t', l'), o) ∧
      t.heater.use = true ∧ t.cooler.use = true ∧
      commanded .cooler h = 0 ∧ commanded .cooler (h ++ o) = 1000 ∧
      t'.state_r = .regCooler ∧ ∀ r ∈ l', valIsLow r .cooler = false :=
  ⟨exampleProg_loaded, rfl, _, _, _, _, _, _, rfl, rfl, rfl, rfl, rfl, rfl, rfl, by decide⟩

end Regonf
