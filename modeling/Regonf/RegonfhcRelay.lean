import Mathlib.Data.List.Infix
import Regonf.RegonfhcOutputs
import Regonf.RegonfhcUnsecured

/-! Regulation with one mechanism in use is a relay with two thresholds, delayed by one
reading. -/
namespace Regonf

variable {R : Type*}

/-- An ideal relay and the goal that its thresholds are taken from. -/
structure Relay (R : Type*) where
  goal : R
  on : Bool

/-- The relay of mechanism `n` after a reading of `v`. -/
def Relay.read [Add R] [Sub R] [LT R] [DecidableLT R] (n : EMName) (delta : R) (s : Relay R)
    (v : R) : Relay R :=
  match n with
  | .heater =>
    { s with on := if s.on then !decide (v > s.goal + delta) else v < s.goal - delta }
  | .cooler =>
    { s with on := if s.on then !decide (v < s.goal - delta) else v > s.goal + delta }

/-- What an input does to the relay: a failed reading leaves it alone. -/
def Relay.next [Add R] [Sub R] [LT R] [DecidableLT R] (n : EMName) (delta : R) (s : Relay R) :
    Input R → Relay R
  | .control inp =>
    match inp.snsr.fts? with
    | some f => s.read n delta f.value
    | none => s
  | .op (.setGoal v) => { s with goal := v }
  | .op _ => s

/-- The number of failed readings in a row after one more input. -/
def failedReadings (k : ℕ) : Input R → ℕ
  | .control inp => if inp.snsr.fts?.isSome then 0 else k + 1
  | .op _ => k

/-- A control step or a change of the goal. -/
def Input.regulates : Input R → Bool
  | .control _ => true
  | .op (.setGoal _) => true
  | .op _ => false

/-- The program regulates with `n` alone, as the relay `s` does; `p` gives the settings of the
mechanism. -/
structure Relays (n : EMName) (p : RegOnfHCEM R) (s : Relay R) (k : ℕ) (item : RegOnfHC R) :
    Prop where
  state : item.state = .regBusy
  state_r : item.state_r = n.state
  state_onf : item.state_onf = if s.on then .regDo else .regWait
  goal : item.goal = s.goal
  count : item.snsrf_count = k
  secure : item.secure_out.active = false
  use : (item.em n).use = true
  other : (item.em n.other).use = false
  delta : (item.em n).delta = p.delta
  pwm_rsl : (item.em n).em.pwm_rsl = p.em.pwm_rsl
  peer : (item.em n).em.peer = p.em.peer

variable [Zero R] [Add R] [Sub R] [LT R] [DecidableLT R]

/-- Without the other mechanism there is no handover. -/
theorem busyChange_alone {w : Wire R} {n : EMName} (hu : (w.item.em n.other).use = false)
    (inp : ControlInput R) :
    busyChange w n inp = w.upd fun i => { i with tmr := { i.tmr with ready := false } } := by
  simp [busyChange, hu]

omit [Zero R] in
theorem read_on {item : RegOnfHC R} {s : Relay R} (n : EMName) (hg : item.goal = s.goal) :
    (s.read n (item.em n).delta item.sensor.value.value).on =
      if s.on then !valIsOut item n else valIsLow item n := by
  cases n <;> simp only [Relay.read, valIsOut, valIsLow, RegOnfHC.em, hg] <;> rfl

/-- The decision of `REG_BUSY` is the relay's, and the output is that of the relay before
it. -/
theorem busyOnf_relay {item : RegOnfHC R} {n : EMName} {s : Relay R}
    (ho : item.state_onf = if s.on then .regDo else .regWait) (hg : item.goal = s.goal) :
    (busyOnf item n).state_onf =
        (if (s.read n (item.em n).delta item.sensor.value.value).on then .regDo else .regWait) ∧
      (busyOnf item n).output = if s.on then (item.em n).em.pwm_rsl else 0 := by
  rw [read_on n hg]
  cases hs : s.on <;> rw [hs] at ho
  · simp [busyOnf, ho]
  · cases hv : valIsOut item n <;> simp [busyOnf, ho, hv]

/-- The drive of the only mechanism in use sends one command. -/
theorem busyDrive_alone {w : Wire R} {n : EMName} (hu : (w.item.em n).use = true)
    (ho : (w.item.em n.other).use = false) :
    (busyDrive w n).sent =
      w.sent ++ [.setFloat n (busyOnf w.item n).output (w.item.em n).em.peer.addr] := by
  have hu' : ((w.upd fun i => busyOnf i n).item.em n).use = true := by
    rw [Wire.upd_item, busyOnf_em]
    exact hu
  unfold busyDrive
  dsimp only
  rw [controlEM_of_not_use, controlEM_of_use hu']
  · simp only [Wire.upd_sent, Wire.upd_item, busyOnf_em]
  · rw [(controlEM_em_frame _ _ _ _).1, Wire.upd_item, busyOnf_em]
    exact ho

variable [BEq R]

theorem relays_value {n : EMName} {p : RegOnfHCEM R} {s : Relay R} {k : ℕ} {item : RegOnfHC R}
    (h : Relays n p s k item) {inp : ControlInput R} {f : FTS R}
    (hf : inp.snsr.fts? = some f) :
    ∃ item', step item (.control inp) = some (item',
        [.getFTS .sensor item.sensor.peer.addr,
          .setFloat n (if s.on then p.em.pwm_rsl else 0) p.em.peer.addr]) ∧
      Relays n p (s.read n p.delta f.value) 0 item' := by
  -- the regulator that the decision is taken on
  let w : Wire R := ((readSensor ⟨item, []⟩ inp.snsr).upd fun i => { i with snsrf_count := 0 }).upd
    fun i => { i with tmr := { i.tmr with ready := false } }
  have hem (m : EMName) : w.item.em m = item.em m := by cases m <;> rfl
  have hv : w.item.sensor.value.value = f.value := by
    simp [w, readSensor, readSensorFTS, hf]
  have hu : (w.item.em n).use = true := hem n ▸ h.use
  have ho : (w.item.em n.other).use = false := hem n.other ▸ h.other
  have hchange : busyChange ((readSensor ⟨item, []⟩ inp.snsr).upd
      fun i => { i with snsrf_count := 0 }) n inp = w :=
    busyChange_alone (by cases n <;> exact h.other) inp
  have hw : controlBusy ⟨item, []⟩ inp = some (busySecure (busyDrive w n) inp) := by
    have hsome : inp.snsr.fts?.isSome = true := by rw [hf]; rfl
    unfold controlBusy
    dsimp only
    rw [if_pos hsome, ← hchange]
    apply busyRegulate_of_state_r
    · simpa using h.state_r
    · rw [hchange]
      simpa [w] using h.state_r
  have hsec : busySecure (busyDrive w n) inp = busyDrive w n :=
    busySecure_inactive (by simpa [w] using h.secure) inp
  obtain ⟨hon, hout⟩ : _ ∧ (busyOnf w.item n).output = _ := busyOnf_relay h.state_onf h.goal
  rw [hem, hv, h.delta] at hon
  refine ⟨(busyDrive w n).item, ?_, ?_⟩
  · simp only [step, regonfhcControl, h.state, hw, hsec, Option.map_some, busyDrive_alone hu ho,
      hout, hem, h.pwm_rsl, h.peer]
    rfl
  · exact
      { state := by simpa [w] using h.state
        state_r := by simpa [w] using h.state_r
        state_onf := by simpa using hon
        goal := by cases n <;> simpa [w, Relay.read] using h.goal
        count := by simp [w]
        secure := by simpa [w] using h.secure
        use := by simpa using hu
        other := by simpa using ho
        delta := by simpa [hem] using h.delta
        pwm_rsl := by simpa [hem] using h.pwm_rsl
        peer := by simpa [hem] using h.peer }

theorem relays_failed {n : EMName} {p : RegOnfHCEM R} {s : Relay R} {k : ℕ} {item : RegOnfHC R}
    (h : Relays n p s k item) {inp : ControlInput R} (hf : inp.snsr.fts? = none)
    (hk : k ≤ SNSRF_COUNT_MAX) :
    ∃ item', step item (.control inp) =
        some (item', [.getFTS .sensor item.sensor.peer.addr]) ∧
      Relays n p s (k + 1) item' := by
  have hc : controlBusy ⟨item, []⟩ inp = some (busyFailed (readSensor ⟨item, []⟩ inp.snsr)) := by
    simp [controlBusy, hf]
  have hn : ¬item.snsrf_count > SNSRF_COUNT_MAX := by rw [h.count]; omega
  have hb : busyFailed (readSensor ⟨item, []⟩ inp.snsr) =
      (readSensor ⟨item, []⟩ inp.snsr).upd
        fun i => { i with snsrf_count := i.snsrf_count + 1 } := by
    simp [busyFailed, readSensor, hn]
  refine ⟨_, by simp only [step, regonfhcControl, h.state, hc, hb]; rfl, ?_⟩
  exact
    { state := h.state, state_r := h.state_r, state_onf := h.state_onf, goal := h.goal
      count := congrArg (· + 1) h.count, secure := h.secure, use := by cases n <;> exact h.use
      other := by cases n <;> exact h.other, delta := by cases n <;> exact h.delta
      pwm_rsl := by cases n <;> exact h.pwm_rsl, peer := by cases n <;> exact h.peer }

theorem relays_setGoal {n : EMName} {p : RegOnfHCEM R} {s : Relay R} {k : ℕ}
    {item : RegOnfHC R} (h : Relays n p s k item) (v : R) :
    ∃ item', step item (.op (.setGoal v)) = some (item', []) ∧
      Relays n p { s with goal := v } k item' :=
  ⟨_, rfl,
    { state := h.state, state_r := h.state_r, state_onf := h.state_onf, goal := rfl
      count := h.count, secure := h.secure, use := by cases n <;> exact h.use
      other := by cases n <;> exact h.other, delta := by cases n <;> exact h.delta
      pwm_rsl := by cases n <;> exact h.pwm_rsl, peer := by cases n <;> exact h.peer }⟩

/-- One input, with at most `SNSRF_COUNT_MAX + 1` failed readings in a row. -/
theorem step_relays {n : EMName} {p : RegOnfHCEM R} {s : Relay R} {k : ℕ} {item : RegOnfHC R}
    (h : Relays n p s k item) {i : Input R} (hi : i.regulates = true)
    (hk : failedReadings k i ≤ SNSRF_COUNT_MAX + 1) :
    ∃ item' out, step item i = some (item', out) ∧
      Relays n p (s.next n p.delta i) (failedReadings k i) item' := by
  cases i with
  | control inp =>
    cases hf : inp.snsr.fts? with
    | some f =>
      obtain ⟨item', hs, hr⟩ := relays_value h hf
      exact ⟨item', _, hs, by simpa [Relay.next, failedReadings, hf] using hr⟩
    | none =>
      obtain ⟨item', hs, hr⟩ := relays_failed h hf (by simpa [failedReadings, hf] using hk)
      exact ⟨item', _, hs, by simpa [Relay.next, failedReadings, hf] using hr⟩
  | op o =>
    cases o with
    | setGoal v =>
      obtain ⟨item', hs, hr⟩ := relays_setGoal h v
      exact ⟨item', _, hs, hr⟩
    | _ => simp [Input.regulates] at hi

/-- The relay follows the program through every run. -/
theorem run_relays {n : EMName} {p : RegOnfHCEM R} {s : Relay R} {k : ℕ} {item : RegOnfHC R}
    (h : Relays n p s k item) {is : List (Input R)} (hi : ∀ i ∈ is, i.regulates = true)
    (hk : ∀ l, l <+: is → l.foldl failedReadings k ≤ SNSRF_COUNT_MAX + 1) :
    ∃ t out, Controller.run step item is = some (t, out) ∧
      Relays n p (is.foldl (Relay.next n p.delta) s) (is.foldl failedReadings k) t := by
  induction is generalizing item s k with
  | nil => exact ⟨item, [], rfl, h⟩
  | cons i is ih =>
    obtain ⟨item', out, hs, h'⟩ := step_relays h (hi i List.mem_cons_self)
      (hk [i] (by simp))
    obtain ⟨t, rest, hr, ht⟩ := ih h' (fun j hj => hi j (List.mem_cons_of_mem i hj))
      fun l hl => hk (i :: l) (by simpa using hl)
    exact ⟨t, out ++ rest, Controller.run_cons_some.mpr ⟨item', out, rest, hs, hr, rfl⟩, ht⟩

omit [Add R] [Sub R] [BEq R] in
/-- What a completed `REG_INIT` with one mechanism in use leaves. -/
theorem initDone_alone {w : Wire R} {n : EMName} (hu : (w.item.em n).use = true)
    (ho : (w.item.em n.other).use = false) (ha : w.item.secure_out.active = false) :
    Relays n ((controlInitDone w).item.em n) ⟨(controlInitDone w).item.goal, false⟩ 0
      (controlInitDone w).item := by
  have hu' := (initReset_use w n).trans hu
  have ho' := (initReset_use w n.other).trans ho
  have hc : initChoice (initReset w).item = some n := by
    cases n <;> simp only [RegOnfHC.em, EMName.other] at hu' ho' <;>
      simp [initChoice, hu', ho']
  have he : controlInitDone w = (initReset w).upd fun i => { i with state_r := n.state } := by
    simp only [controlInitDone, hc]
  rw [he]
  exact
    { state := rfl, state_r := rfl, state_onf := rfl, goal := rfl, count := rfl
      secure := by simpa [initReset] using ha
      use := by cases n <;> exact hu'
      other := by cases n <;> exact ho'
      delta := rfl, pwm_rsl := rfl, peer := rfl }

theorem init_relays {item item' : RegOnfHC R} {n : EMName} {inp : ControlInput R}
    {out : List (Request R)} (hs : item.state = .regInit) (hu : (item.em n).use = true)
    (ho : (item.em n.other).use = false) (ha : item.secure_out.active = false)
    (hstep : step item (.control inp) = some (item', out)) (hb : item'.state = .regBusy) :
    Relays n (item'.em n) ⟨item'.goal, false⟩ 0 item' := by
  have he : item' = (controlInit ⟨item, []⟩ inp).item := by
    simp only [step, regonfhcControl, hs, Option.map_some, Option.some.injEq,
      Prod.mk.injEq] at hstep
    exact hstep.1.symm
  have hg := greenLightIsGreen_item ⟨item, []⟩ inp.green
  rcases controlInit_cases ⟨item, []⟩ inp with ⟨g, s, hw⟩ | ⟨-, -, hw⟩
  · rw [he, hw] at hb
    exact absurd (hs.symm.trans hb) (by decide)
  · rw [he, hw]
    refine initDone_alone ?_ ?_ ?_
    · rw [readSensor_em, hg]
      cases n <;> exact hu
    · rw [readSensor_em, hg]
      cases n <;> exact ho
    · simp only [readSensor]
      rw [hg]
      exact ha

/-- With one mechanism in use and the watchdog off, a control step with a reading commands
to the mechanism what the relay fed with the earlier readings shows, and a step without one
commands nothing. -/
theorem single_mechanism_relay {item₀ item : RegOnfHC R} {n : EMName} {inp₀ : ControlInput R}
    {out₀ : List (Request R)} (hs : item₀.state = .regInit)
    (hu : (item₀.em n).use = true) (ho : (item₀.em n.other).use = false)
    (ha : item₀.secure_out.active = false)
    (hinit : step item₀ (.control inp₀) = some (item, out₀)) (hb : item.state = .regBusy)
    (is : List (Input R)) (inp : ControlInput R) (hi : ∀ i ∈ is, i.regulates = true)
    (hk : ∀ l, l <+: is ++ [.control inp] →
      l.foldl failedReadings 0 ≤ SNSRF_COUNT_MAX + 1) :
    ∃ t out t' o, Controller.run step item is = some (t, out) ∧
      step t (.control inp) = some (t', o) ∧
      commands o =
        if inp.snsr.fts?.isSome then
          [.setFloat n
            (if (is.foldl (Relay.next n (item.em n).delta) ⟨item.goal, false⟩).on
              then (item.em n).em.pwm_rsl else 0)
            (item.em n).em.peer.addr]
        else [] := by
  obtain ⟨t, out, hr, ht⟩ := run_relays (init_relays hs hu ho ha hinit hb) hi
    fun l hl => hk l (hl.trans (List.prefix_append _ _))
  cases hf : inp.snsr.fts? with
  | some f =>
    obtain ⟨t', hs', -⟩ := relays_value ht hf
    exact ⟨t, out, t', _, hr, hs', by simp [commands]⟩
  | none =>
    have hlast := hk _ (List.prefix_refl _)
    rw [List.foldl_append] at hlast
    obtain ⟨t', hs', -⟩ := relays_failed ht hf (by simpa [failedReadings, hf] using hlast)
    exact ⟨t, out, t', _, hr, hs', by simp [commands]⟩

/-- The last theorem on the heater of the example program alone: two cold readings, a lost
one, and the goal lowered; the relay is on, so the heater is powered once more. -/
theorem single_mechanism_relay_example :
    let prog := { exampleProg with cooler := { exampleProg.cooler with use := false } }
    let is := [exampleControl 1 (some 240), exampleControl 2 (some 240), exampleControl 3 none,
      .op (.setGoal 230)]
    ∃ item out₀ t out t' o, step prog (exampleControl 0 (some 240)) = some (item, out₀) ∧
      Controller.run step item is = some (t, out) ∧
      step t (exampleControl 4 (some 240)) = some (t', o) ∧
      commands o = [.setFloat .heater 1000 ⟨0x7f000001, 49178⟩] := by
  intro prog is
  have hinit : step prog (exampleControl 0 (some 240)) = some (_, _) := rfl
  have hk : ∀ l ∈ (is ++ [exampleControl 4 (some 240)]).inits,
      l.foldl failedReadings 0 ≤ SNSRF_COUNT_MAX + 1 := by decide
  obtain ⟨t, out, t', o, hr, hs, hc⟩ := single_mechanism_relay (n := .heater) rfl rfl rfl rfl hinit
    rfl is (exampleReading 4 (some 240)) (by decide) fun l hl => hk l ((List.mem_inits l _).mpr hl)
  exact ⟨_, _, t, out, t', o, hinit, hr, hs, hc⟩

end Regonf
