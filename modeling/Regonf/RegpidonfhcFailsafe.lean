import Regonf.RegonfhcFailsafe
import Regonf.RegpidonfhcExclusion

/-! Loss of the sensor under the regulator with PID, in any modes. -/
namespace Regonf.Regpidonfhc

variable {R : Type*} [Zero R]

/-- The number of control steps in a row without a value from the sensor. The second reading of
`REG_INIT` does not count. -/
def failedSteps [BEq R] (k : ℕ) (item : RegPIDOnfHC R) : Input R → ℕ
  | .op _ => k
  | .control inp => Regonf.failedSteps k item.onf (.control inp.toControlInput)

/-- A command that enters `REG_INIT` does so with the mechanisms off. -/
def LeavesOff (item : RegPIDOnfHC R) : Input R → Prop
  | .control _ => True
  | .op o => (applyOp ⟨item, []⟩ o).item.state = .regInit → AllOff (applyOp ⟨item, []⟩ o).onf.item

theorem op_failsafe {item : RegPIDOnfHC R} {h : List (Request R)} {k : ℕ} {o : Op R}
    (ht : EMTracked item.onf h) (hf : Failsafe item.onf k)
    (ha : (Input.op o).automatic = true) (hl : LeavesOff item (.op o)) :
    Failsafe (applyOp ⟨item, []⟩ o).onf.item k := by
  -- the condition of the on-off regulator follows from the one here
  cases ho : o.onf? with
  | some o' =>
    have hop := op_onf (w := ⟨item, []⟩) ho
    have hl' : Regonf.LeavesOff item.onf (.op o') := by
      by_contra hn
      obtain ⟨hs, n, hp⟩ := op_powers_init (w := ⟨item.onf, []⟩) hn
      refine hp ?_
      have hi : (applyOp ⟨item, []⟩ o).onf.item = (Regonf.applyOp ⟨item.onf, []⟩ o').item :=
        congrArg Regonf.Wire.item hop
      rw [← hi] at hs ⊢
      exact hl hs n
    rw [hop]
    exact Regonf.op_failsafe (w := ⟨item.onf, []⟩) (by simpa using ht) hf
      ((Op.onf?_automatic ho).trans ha) hl'
  | none =>
    obtain ⟨dh, dc, s, hs, hop⟩ := op_sets (w := ⟨item, []⟩) ho
    rcases hs with rfl | ⟨-, rfl⟩
    · rw [hop]
      exact hf.imp (fun h => h.em_congr fun n => by cases n <;> rfl) id
    -- a restart, and the condition says that the mechanisms are off
    · exact Or.inl (hl (congrArg (fun w : Regonf.Wire R => w.item.state) hop))

variable [Add R] [Sub R] [Mul R] [Div R] [IntCast R] [LT R] [DecidableLT R] [BEq R]

theorem control_failsafe {item : RegPIDOnfHC R} {w' : Wire R} {h : List (Request R)} {k : ℕ}
    {inp : ControlInput R} (hu : Unsecured item.onf) (ht : EMTracked item.onf h)
    (hf : Failsafe item.onf k) (hw : regpidonfhcControl ⟨item, []⟩ inp = some w') :
    Failsafe w'.onf.item (failedSteps k item (.control inp)) := by
  have h₀ : EMTracked (⟨item, []⟩ : Wire R).onf.item (h ++ (⟨item, []⟩ : Wire R).sent) := by
    simpa [Wire.onf] using ht
  cases control_cases hw with
  | onf hw' => exact Regonf.control_failsafe hu ht hf hw'
  -- the end of `REG_INIT` leaves both mechanisms off
  | init =>
    obtain ⟨ht', hz⟩ :=
      initDone_tracked (readSensor_tracked (greenLight_tracked h₀ inp.green) inp.snsr) inp
    exact Or.inl fun n => (ht' n).1.trans (hz n)
  | @busy n m w₁ hst hok _ hw₁ _ =>
    have hk : failedSteps k item (.control inp) = 0 := by
      have hst' : item.onf.state = .regBusy := hst
      simp only [failedSteps, Regonf.failedSteps, readsSensor, hst', hok, ↓reduceIte]
    have hframe := busyDrive_onf_frame (busyChange w₁ n inp) m inp.pidNow
    have hchange := busyChange_onf_frame w₁ n inp
    set v := busyDrive (busyChange w₁ n inp) m inp.pidNow with hv
    have hav : v.onf.item.secure_out.active = false := by
      rw [hframe.2.2.1, hchange.2.1, hw₁]
      exact hu.1
    have he : (busySecure v inp).onf = v.onf := busySecure_inactive hav inp.toControlInput
    -- a reading clears the counter of the regulator
    have hcount : v.onf.item.snsrf_count = 0 := by
      rw [hframe.2.2.2.2.1, hchange.2.2.2.1, hw₁]
      rfl
    rw [hk, he]
    refine Or.inr (Or.inl ⟨?_, Nat.zero_le _, by rw [hcount]; exact Nat.zero_le _⟩)
    rw [hframe.1, hchange.1, hw₁]
    exact hst

/-- The invariant of a run whose steps all meet the condition. -/
structure FailsafeInv (s : RegPIDOnfHC R × ℕ) (h : List (Request R)) : Prop where
  exclusive : Exclusive s.1.onf h
  failsafe : Failsafe s.1.onf s.2

theorem step_failsafe {s s' : RegPIDOnfHC R × ℕ} {h out : List (Request R)} {i : Input R}
    (hi : FailsafeInv s h) (hl : i.automatic = true ∧ LeavesOff s.1 i)
    (hs : Controller.observe step failedSteps s i = some (s', out)) :
    FailsafeInv s' (h ++ out) := by
  obtain ⟨item, k⟩ := s
  obtain ⟨item', k'⟩ := s'
  obtain ⟨hs, rfl⟩ := Controller.observe_some.mp hs
  refine ⟨step_exclusive hi.exclusive hl.1 hs, ?_⟩
  cases i with
  | control inp =>
    rw [step, Option.map_eq_some_iff] at hs
    obtain ⟨w, hw, hwe⟩ := hs
    cases hwe
    exact control_failsafe hi.exclusive.unsecured hi.exclusive.tracked hi.failsafe hw
  | op o =>
    cases hs
    exact op_failsafe hi.exclusive.tracked hi.failsafe hl.1 hl.2

/-- In a run without manual power and with the watchdog off, in any modes, whose commands enter
`REG_INIT` only with the mechanisms off, `SNSRF_COUNT_MAX + 2` control steps in a row without a
value from the sensor leave both mechanisms commanded off. -/
theorem sensor_loss_in_any_mode {item : RegPIDOnfHC R} {t : RegPIDOnfHC R × ℕ}
    {out : List (Request R)} {is : List (Input R)} (hl : Loaded item)
    (ha : item.secure_out.active = false) (hi : ∀ i ∈ is, i.automatic = true)
    (hc : Controller.Along (Controller.observe step failedSteps)
      (fun s _ i => LeavesOff s.1 i) (item, 0) [] is)
    (hr : Controller.run (Controller.observe step failedSteps) (item, 0) is = some (t, out))
    (hk : SNSRF_COUNT_MAX + 2 ≤ t.2) (n : EMName) : commanded n out = 0 := by
  have h₀ : FailsafeInv (item, 0) ([] : List (Request R)) :=
    ⟨hl.exclusive ha, Or.inl fun n => by
      cases n <;> [exact hl.heater_output; exact hl.cooler_output]⟩
  have hc' := Controller.along_and (Controller.along_of_forall_mem
    (C := fun _ _ i => i.automatic = true) (fun i him _ _ => hi i him) _ _) hc
  have hinv : FailsafeInv t ([] ++ out) := by
    refine Controller.run_invariant_along ?_ h₀ hc' hr
    intro s h i s' o hi hl hs
    exact step_failsafe hi hl hs
  exact (hinv.exclusive.tracked n).1.symm.trans (hinv.failsafe.allOff hk n)

/-- The last theorem on a run in which a heater with PID is on when the sensor is lost. -/
theorem sensor_loss_in_any_mode_example :
    let is := [Input.control (exampleReading 0 (some 240) (some 240)),
      .control (exampleReading 1 (some 240) (some 240)),
      .control (exampleReading 2 (some 240) (some 240))] ++
        List.replicate 9 (.control (exampleReading 3 none none))
    ∃ t out, Controller.run (Controller.observe step failedSteps)
        (exampleProg .regModePid .regModeOnf, 0) is = some (t, out) ∧
      (∃ p, p <+: out ∧ commanded .heater p = 10) ∧ SNSRF_COUNT_MAX + 2 ≤ t.2 ∧
      commanded .heater out = 0 := by
  intro is
  have hr : Controller.run (Controller.observe step failedSteps)
    (exampleProg .regModePid .regModeOnf, 0) is = some (_, _) := rfl
  have hc : Controller.Along (Controller.observe step failedSteps)
      (fun s _ i => LeavesOff s.1 i) (exampleProg .regModePid .regModeOnf, 0) [] is :=
    Controller.along_of_forall_mem (fun i hi s _ => by
      simp only [is, List.mem_append, List.mem_cons, List.not_mem_nil, or_false,
        List.mem_replicate] at hi
      rcases hi with (rfl | rfl | rfl) | ⟨-, rfl⟩ <;> exact trivial) _ _
  exact ⟨_, _, hr, ⟨_, List.take_prefix 10 _, rfl⟩, by decide,
    sensor_loss_in_any_mode (exampleProg_loaded _ _) rfl (by decide) hc hr (by decide) .heater⟩

end Regonf.Regpidonfhc
