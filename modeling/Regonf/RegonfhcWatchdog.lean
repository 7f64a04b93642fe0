import Regonf.RegonfhcBusy

/-! The watchdog of a program whose secure output is active: the `done` flag, the error bit,
the timer, and what the regulator does while the flag is set. -/
namespace Regonf

variable {R : Type*}

/-- The clock readings that the watchdog of this step may take are normalised. -/
def Input.ClockNormalised : Input R → Prop
  | .control inp => inp.secFirst.Normalised ∧ inp.secNow.Normalised
  | .op _ => True

/-- Whether a control step taken in this state checks the watchdog. -/
def checksWatchdog (item : RegOnfHC R) (inp : ControlInput R) : Bool :=
  match item.state with
  | .regBusy => inp.snsr.fts?.isSome
  | .regSecure => true
  | _ => false

/-- The reading at the first check of the watchdog since the last goal command, or since the
program was loaded; `none` before that check. -/
def firstCheck (start : Option Timespec) (item : RegOnfHC R) : Input R → Option Timespec
  | .op .secureOutTouch => none
  | .op _ => start
  | .control inp => if checksWatchdog item inp then some (start.getD inp.secFirst) else start

/-- The request that `controlEM` sends: none to a mechanism that is not in use. -/
def emRequest (item : RegOnfHC R) (n : EMName) (output : R) : List (Request R) :=
  if (item.em n).use then [.setFloat n output (item.em n).em.peer.addr] else []

/-- The requests that give the mechanisms in use the duty cycles of `sec`. -/
def secureRequests (sec : RegSecure R) (item : RegOnfHC R) : List (Request R) :=
  emRequest item .heater sec.heater_duty_cycle ++ emRequest item .cooler sec.cooler_duty_cycle

/-- What one step does to the watchdog: a goal command resets it, a check asks it, and any
other step leaves it alone. -/
inductive WatchdogStep (item : RegOnfHC R) : Input R → RegOnfHC R → Prop where
  | touch {item' : RegOnfHC R}
      (hsec : item'.secure_out = regSecureTouch item.secure_out) :
      WatchdogStep item (.op .secureOutTouch) item'
  | check {item' : RegOnfHC R} {inp : ControlInput R} (hc : checksWatchdog item inp = true)
      (hsec : item'.secure_out =
        (regSecureNeed item.secure_out inp.secFirst inp.secNow).2)
      (hst : item'.state =
        if (regSecureNeed item.secure_out inp.secFirst inp.secNow).1 then .regSecure
        else .regBusy) :
      WatchdogStep item (.control inp) item'
  | idle {item' : RegOnfHC R} {i : Input R} (hi : i ≠ .op .secureOutTouch)
      (hc : ∀ inp, i = .control inp → checksWatchdog item inp = false)
      (hsec : item'.secure_out = item.secure_out) : WatchdogStep item i item'

theorem controlEM_sent (w : Wire R) (n : EMName) (v : R) :
    (controlEM w n v).sent = w.sent ++ emRequest w.item n v := by
  unfold emRequest
  cases hu : (w.item.em n).use with
  | true => simp [controlEM_of_use hu]
  | false => simp [controlEM_of_not_use hu]

theorem controlSecure_sent (w : Wire R) (inp : ControlInput R) :
    (controlSecure w inp).sent = w.sent ++ secureRequests w.item.secure_out w.item := by
  -- the first command leaves the second mechanism as it was
  have hc : emRequest (controlEM w .heater w.item.secure_out.heater_duty_cycle).item .cooler
      w.item.secure_out.cooler_duty_cycle =
      emRequest w.item .cooler w.item.secure_out.cooler_duty_cycle := by
    simp [emRequest]
  simp only [controlSecure, Wire.upd_sent, controlEM_sent, controlEM_frame, hc, secureRequests,
    List.append_assoc]

theorem or_and_self_ne_zero (e : UInt32) :
    (e ||| PROG_ERROR_NO_SIGNAL_FROM_CLIENT) &&& PROG_ERROR_NO_SIGNAL_FROM_CLIENT ≠ 0 := by
  have h : (e ||| PROG_ERROR_NO_SIGNAL_FROM_CLIENT) &&& PROG_ERROR_NO_SIGNAL_FROM_CLIENT =
      PROG_ERROR_NO_SIGNAL_FROM_CLIENT := by
    apply UInt32.toBitVec_inj.mp
    ext k hk
    simp only [UInt32.toBitVec_and, UInt32.toBitVec_or, BitVec.getElem_and, BitVec.getElem_or]
    cases (PROG_ERROR_NO_SIGNAL_FROM_CLIENT.toBitVec[k]) <;> simp
  rw [h]
  decide

/-- What every run keeps of an active watchdog that was loaded as `cfg`, whose first check
since the last goal command read `start`. -/
structure Watched (cfg sec : RegSecure R) (start : Option Timespec) : Prop where
  active : sec.active = true
  timeout : sec.timeout = cfg.timeout
  duty : sec.heater_duty_cycle = cfg.heater_duty_cycle ∧
    sec.cooler_duty_cycle = cfg.cooler_duty_cycle
  bit : sec.done = true ↔ sec.error_code &&& PROG_ERROR_NO_SIGNAL_FROM_CLIENT ≠ 0
  armed : sec.done = false → start = if sec.tmr.ready then some sec.tmr.start else none
  normalised : ∀ t, start = some t → t.Normalised

/-- A watchdog whose flag is set answers at once and is left alone. -/
theorem regSecureNeed_done {sec : RegSecure R} (ha : sec.active = true)
    (hd : sec.done = true) (first now : Timespec) : regSecureNeed sec first now = (true, sec) := by
  simp [regSecureNeed, ha, hd]

/-- The cases of a check with the flag not set: it is set when more than the timeout has
passed since the first check, and else the timer keeps the reading of the first check. -/
theorem regSecureNeed_cases {sec : RegSecure R} (ha : sec.active = true)
    (hd : sec.done = false) (first now : Timespec) :
    ((tonTs sec.timeout sec.tmr first now).1 = true ∧
      ∃ t, regSecureNeed sec first now = (true, { sec with
        tmr := t, done := true
        error_code := sec.error_code ||| PROG_ERROR_NO_SIGNAL_FROM_CLIENT })) ∨
    regSecureNeed sec first now =
      (false, { sec with tmr := ⟨if sec.tmr.ready then sec.tmr.start else first, true⟩ }) := by
  simp only [regSecureNeed, ha, hd, Bool.not_true, Bool.false_eq_true, ↓reduceIte]
  cases hr : (tonTs sec.timeout sec.tmr first now).1 with
  | true => exact Or.inl ⟨rfl, _, rfl⟩
  | false => exact Or.inr (by simp [tonTs_waiting hr])

namespace Watched

variable {cfg sec : RegSecure R} {start : Option Timespec}

theorem touch (hw : Watched cfg sec start) : Watched cfg (regSecureTouch sec) none where
  active := hw.active
  timeout := hw.timeout
  duty := hw.duty
  bit := by simp [regSecureTouch, UInt32.and_assoc, UInt32.not_and_self]
  armed _ := rfl
  normalised _ h := by cases h

/-- The reading a check counts from. -/
theorem getD_start (hw : Watched cfg sec start) (hd : sec.done = false) (first : Timespec) :
    (if sec.tmr.ready then sec.tmr.start else first) = start.getD first := by
  rw [hw.armed hd]
  cases sec.tmr.ready <;> rfl

theorem getD_normalised (hw : Watched cfg sec start) {first : Timespec}
    (hf : first.Normalised) : (start.getD first).Normalised := by
  cases hs : start with
  | none => exact hf
  | some t => exact hw.normalised t hs

theorem check (hw : Watched cfg sec start) {first : Timespec} (hf : first.Normalised)
    (now : Timespec) :
    Watched cfg (regSecureNeed sec first now).2 (some (start.getD first)) := by
  have hnorm : ∀ t, some (start.getD first) = some t → t.Normalised := by
    intro t h
    cases h
    exact hw.getD_normalised hf
  cases hd : sec.done with
  | true =>
    rw [regSecureNeed_done hw.active hd]
    exact ⟨hw.active, hw.timeout, hw.duty, hw.bit, by simp [hd], hnorm⟩
  | false =>
    rcases regSecureNeed_cases hw.active hd first now with ⟨-, t, he⟩ | he <;> rw [he]
    · exact ⟨hw.active, hw.timeout, hw.duty, by simpa using or_and_self_ne_zero sec.error_code,
        by simp, hnorm⟩
    · exact ⟨hw.active, hw.timeout, hw.duty, hw.bit, by simp [hw.getD_start hd], hnorm⟩

/-- The flag becomes set only when more than the timeout has passed since the first check. -/
theorem fired (hw : Watched cfg sec start) (ht : cfg.timeout.Normalised)
    (hd : sec.done = false) {first now : Timespec} (hf : first.Normalised)
    (hn : now.Normalised) (hd' : (regSecureNeed sec first now).2.done = true) :
    cfg.timeout.ns < now.ns - (start.getD first).ns := by
  have hs := hw.getD_normalised hf
  rw [← hw.getD_start hd] at hs ⊢
  rcases regSecureNeed_cases hw.active hd first now with ⟨hr, -⟩ | he
  · rw [hw.timeout] at hr
    exact (tonTs_fired ht hn hs).mp hr
  · rw [he] at hd'
    exact absurd (hd.symm.trans hd') (by decide)

end Watched

section
variable [Zero R]

theorem op_secure_out {w : Wire R} {o : Op R} (ho : o ≠ .secureOutTouch) :
    (applyOp w o).item.secure_out = w.item.secure_out := by
  cases o with
  | setEMMode v =>
    simp only [applyOp, regonfhcSetEMMode]
    split_ifs <;> simp [RegOnfHC.setUse]
  | setHeaterPower v => simp [applyOp, regonfhcSetHeaterPower]
  | setCoolerPower v => simp [applyOp, regonfhcSetCoolerPower]
  | turnOff => simp [applyOp, regonfhcTurnOff]
  | secureOutTouch => exact absurd rfl ho
  | _ => rfl

theorem busyFailed_secure_out (w : Wire R) :
    (busyFailed w).item.secure_out = w.item.secure_out := by
  unfold busyFailed
  dsimp only
  split_ifs <;> simp

variable [LT R] [DecidableLT R]

theorem controlInitDone_secure_out (w : Wire R) :
    (controlInitDone w).item.secure_out = w.item.secure_out := by
  unfold controlInitDone
  dsimp only
  split <;> simp [initReset]

variable [Add R] [Sub R] [BEq R]

theorem control_watchdog {w w' : Wire R} {inp : ControlInput R}
    (hw : regonfhcControl w inp = some w') :
    WatchdogStep w.item (.control inp) w'.item := by
  have hidle {item' : RegOnfHC R} (hc : checksWatchdog w.item inp = false)
      (hs : item'.secure_out = w.item.secure_out) :
      WatchdogStep w.item (.control inp) item' := by
    refine .idle (by simp) (fun _ h => ?_) hs
    cases h
    exact hc
  cases control_cases hw with
  | init hst =>
    have hg : (greenLightIsGreen w inp.green).2.item.secure_out = w.item.secure_out := by
      rw [greenLightIsGreen_item]
    apply hidle (by simp [checksWatchdog, hst])
    rcases controlInit_cases w inp with ⟨g, s, he⟩ | ⟨-, -, he⟩
    · rw [he]
    · rw [he, controlInitDone_secure_out]
      exact hg
  | @busy n m w₁ hst hok _ hw₁ _ _ =>
    have hsec : (busyDrive (busyChange w₁ n inp) m).item.secure_out = w.item.secure_out := by
      simp [hw₁]
    have hstate : (busyDrive (busyChange w₁ n inp) m).item.state = .regBusy := by
      simp [hw₁, hst]
    refine .check (by simp [checksWatchdog, hst, hok]) ?_ ?_
    · simp only [busySecure, Wire.upd_item, hsec]
    · simp only [busySecure, Wire.upd_item, hsec, hstate]
  | failed hst hno =>
    exact hidle (by simp [checksWatchdog, hst, hno]) (by simp [busyFailed_secure_out])
  | secure hst =>
    refine .check (by simp [checksWatchdog, hst]) ?_ ?_
    · simp [controlSecure]
    · simp [controlSecure, hst]
  | disable hst =>
    exact hidle (by simp [checksWatchdog, hst]) (by simp [controlDisable])
  | off hst => exact hidle (by simp [checksWatchdog, hst]) rfl
  | other hst =>
    refine hidle ?_ rfl
    unfold checksWatchdog
    split <;> simp_all

theorem watchdog_cases {item item' : RegOnfHC R} {i : Input R} {out : List (Request R)}
    (hs : step item i = some (item', out)) : WatchdogStep item i item' := by
  cases i with
  | control inp =>
    rw [step, Option.map_eq_some_iff] at hs
    obtain ⟨w, hw, he⟩ := hs
    cases he
    exact control_watchdog hw
  | op o =>
    cases hs
    by_cases ho : o = .secureOutTouch
    · subst ho
      exact .touch rfl
    · exact .idle (by simpa using ho) (by simp) (op_secure_out ho)

/-- One step keeps the invariant. -/
theorem step_watched {cfg : RegSecure R} {item item' : RegOnfHC R} {start : Option Timespec}
    {i : Input R} {out : List (Request R)} (hw : Watched cfg item.secure_out start)
    (hi : i.ClockNormalised) (hs : step item i = some (item', out)) :
    Watched cfg item'.secure_out (firstCheck start item i) := by
  cases watchdog_cases hs with
  | touch hsec =>
    rw [hsec]
    exact hw.touch
  | @check _ inp hc hsec =>
    have hstart : firstCheck start item (.control inp) = some (start.getD inp.secFirst) := by
      simp [firstCheck, hc]
    rw [hsec, hstart]
    exact hw.check hi.1 inp.secNow
  | idle hi' hc hsec =>
    have hstart : firstCheck start item i = start := by
      cases i with
      | op o => cases o <;> simp_all [firstCheck]
      | control inp => simp [firstCheck, hc inp rfl]
    rw [hsec, hstart]
    exact hw

theorem run_watched {item t : RegOnfHC R} {start : Option Timespec} {is : List (Input R)}
    {out : List (Request R)} (hl : Loaded item) (ha : item.secure_out.active = true)
    (hi : ∀ i ∈ is, i.ClockNormalised)
    (hr : Controller.run (Controller.observe step firstCheck) (item, none) is =
      some ((t, start), out)) :
    Watched item.secure_out t.secure_out start := by
  have h₀ : Watched item.secure_out item.secure_out none := by
    refine ⟨ha, rfl, ⟨rfl, rfl⟩, ?_, ?_, ?_⟩
    · rw [hl.secure_done, hl.error_code]
      decide
    · simp [hl.secure_tmr]
    · simp
  refine Controller.run_invariant (P := Input.ClockNormalised)
    (I := fun s _ => Watched item.secure_out s.1.secure_out s.2) (h := []) ?_ h₀ hi hr
  rintro ⟨s, o⟩ h i ⟨s', o'⟩ out hw hi hs
  obtain ⟨hs, ho⟩ := Controller.observe_some.mp hs
  simp only at hs ho
  rw [ho]
  exact step_watched hw hi hs

/-- The law of the watchdog over every run of a loaded program and the step after it. -/
theorem watchdog_law {item t : RegOnfHC R} {start : Option Timespec} {is : List (Input R)}
    {out : List (Request R)} (hl : Loaded item) (ha : item.secure_out.active = true)
    (ht : item.secure_out.timeout.Normalised) (hi : ∀ i ∈ is, i.ClockNormalised)
    (hr : Controller.run (Controller.observe step firstCheck) (item, none) is =
      some ((t, start), out)) :
    (t.secure_out.done = true ↔
      t.secure_out.error_code &&& PROG_ERROR_NO_SIGNAL_FROM_CLIENT ≠ 0) ∧
    ∀ i t' out', i.ClockNormalised → step t i = some (t', out') →
      (t.secure_out.done = false → t'.secure_out.done = true →
        ∃ inp s, i = .control inp ∧ firstCheck start t i = some s ∧
          item.secure_out.timeout.ns < inp.secNow.ns - s.ns) ∧
      (t.secure_out.done = true →
        (t'.secure_out.done = false → i = .op .secureOutTouch) ∧
        ∀ inp, i = .control inp →
          (t.state = .regSecure →
            out' = secureRequests item.secure_out t ∧ t'.state = .regSecure) ∧
          (t.state = .regBusy → inp.snsr.fts?.isSome = true → t'.state = .regSecure)) := by
  have hw := run_watched hl ha hi hr
  refine ⟨hw.bit, fun i t' out' hi' hs => ⟨fun hd hd' => ?_, fun hd => ⟨fun hd' => ?_, ?_⟩⟩⟩
  · cases watchdog_cases hs with
    | touch hsec =>
      rw [hsec] at hd'
      exact absurd hd' (by simp [regSecureTouch])
    | @check _ inp hc hsec =>
      rw [hsec] at hd'
      exact ⟨inp, _, rfl, by simp [firstCheck, hc], hw.fired ht hd hi'.1 hi'.2 hd'⟩
    | idle _ _ hsec =>
      rw [hsec, hd] at hd'
      cases hd'
  · cases watchdog_cases hs with
    | touch => rfl
    | check _ hsec =>
      rw [hsec, regSecureNeed_done hw.active hd, hd] at hd'
      cases hd'
    | idle _ _ hsec =>
      rw [hsec, hd] at hd'
      cases hd'
  · rintro inp rfl
    -- with the flag set, every check sends the program to `REG_SECURE`
    have hstate : checksWatchdog t inp = true → t'.state = .regSecure := by
      intro hc
      cases watchdog_cases hs with
      | check _ _ hst => rw [hst, regSecureNeed_done hw.active hd, if_pos rfl]
      | idle _ hno =>
        rw [hno inp rfl] at hc
        cases hc
    refine ⟨fun hst => ⟨?_, hstate (by simp [checksWatchdog, hst])⟩, fun hst hok => ?_⟩
    · rw [step, regonfhcControl, hst] at hs
      simp only [Option.map_some, Option.some.injEq, Prod.mk.injEq] at hs
      rw [← hs.2, controlSecure_sent, List.nil_append, secureRequests, secureRequests, hw.duty.1,
        hw.duty.2]
    · exact hstate (by simp [checksWatchdog, hst, hok])

end

/-- The example program with a watchdog of five seconds. -/
def exampleWatched : RegOnfHC ℤ :=
  { exampleProg with
    secure_out := { exampleProg.secure_out with
      active := true, timeout := ⟨5, 0⟩, heater_duty_cycle := 70, cooler_duty_cycle := 0 } }

/-- The law at a run that ends with the flag set, seven seconds after the first check. -/
theorem watchdog_law_example :
    ∃ t out, Controller.run (Controller.observe step firstCheck) (exampleWatched, none)
        [exampleControl 0 (some 240), exampleControl 1 (some 240), exampleControl 8 (some 240)] =
      some ((t, some ⟨1, 0⟩), out) ∧
      (t.secure_out.done = true ∧
        t.secure_out.error_code &&& PROG_ERROR_NO_SIGNAL_FROM_CLIENT ≠ 0) ∧
      ∀ t' out', step t (exampleControl 9 none) = some (t', out') →
        out' = [.setFloat .heater 70 ⟨0x7f000001, 49178⟩,
          .setFloat .cooler 0 ⟨0x7f000001, 49178⟩] ∧ t'.state = .regSecure := by
  refine ⟨_, _, rfl, ?_⟩
  have hl : Loaded exampleWatched :=
    ⟨Or.inl rfl, rfl, rfl, rfl, rfl, rfl, rfl, rfl, rfl, rfl, rfl⟩
  have hclock : ∀ i ∈ [exampleControl 0 (some 240), exampleControl 1 (some 240),
      exampleControl 8 (some 240)], i.ClockNormalised := by
    simp [exampleControl, exampleReading, Input.ClockNormalised, Timespec.Normalised]
  have hlaw := watchdog_law hl rfl (by decide) hclock rfl
  refine ⟨⟨rfl, hlaw.1.mp rfl⟩, fun t' out' hs => ?_⟩
  have hnext : (exampleControl 9 none).ClockNormalised := by
    simp [exampleControl, exampleReading, Input.ClockNormalised, Timespec.Normalised]
  exact (((hlaw.2 _ t' out' hnext hs).2 rfl).2 _ rfl).1 rfl

end Regonf
