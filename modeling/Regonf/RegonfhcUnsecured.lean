import Regonf.RegonfhcBusy

/-! A program whose watchdog is off never enters `REG_SECURE`; the commands other than manual
power. -/
namespace Regonf

variable {R : Type*}

/-- Neither of the two manual power commands. -/
def Input.automatic : Input R → Bool
  | .op (.setHeaterPower _) => false
  | .op (.setCoolerPower _) => false
  | _ => true

/-- The watchdog is off, so `REG_SECURE` is not entered. -/
def Unsecured (item : RegOnfHC R) : Prop :=
  item.secure_out.active = false ∧ item.state ≠ .regSecure

theorem Loaded.unsecured [Zero R] {item : RegOnfHC R} (hl : Loaded item)
    (ha : item.secure_out.active = false) : Unsecured item :=
  ⟨ha, by rcases hl.state with h | h <;> simp [h]⟩

theorem busySecure_inactive {w : Wire R} (ha : w.item.secure_out.active = false)
    (inp : ControlInput R) : busySecure w inp = w := by
  simp only [busySecure, regSecureNeed_inactive ha, Bool.false_eq_true, ↓reduceIte]
  rfl

variable [Zero R]

theorem op_unsecured {w : Wire R} (hi : Unsecured w.item) (o : Op R) :
    Unsecured (applyOp w o).item := by
  obtain ⟨ha, hs⟩ := hi
  cases o with
  | enable => exact ⟨ha, by simp [applyOp, regonfhcEnable]⟩
  | disable => exact ⟨ha, by simp [applyOp, regonfhcDisable]⟩
  | setCoolerDelta v =>
    refine ⟨ha, ?_⟩
    simp only [applyOp, regonfhcSetCoolerDelta, Wire.upd_item]
    split_ifs
    · decide
    · exact hs
  | setHeaterDelta v =>
    refine ⟨ha, ?_⟩
    simp only [applyOp, regonfhcSetHeaterDelta, Wire.upd_item]
    split_ifs
    · decide
    · exact hs
  | setEMMode v =>
    refine ⟨?_, ?_⟩
    · simp only [applyOp, regonfhcSetEMMode]
      split_ifs <;> simpa [RegOnfHC.setUse] using ha
    · rw [applyOp, (setEMMode_state w v).1]
      split_ifs
      · decide
      · exact hs
  | setHeaterPower v => simpa [applyOp, regonfhcSetHeaterPower, Unsecured] using ⟨ha, hs⟩
  | setCoolerPower v => simpa [applyOp, regonfhcSetCoolerPower, Unsecured] using ⟨ha, hs⟩
  | turnOff => simpa [applyOp, regonfhcTurnOff, Unsecured] using ha
  | secureOutTouch => exact ⟨ha, hs⟩
  | _ => exact ⟨ha, hs⟩

variable [Add R] [Sub R] [LT R] [DecidableLT R] [BEq R]

theorem control_unsecured {w w' : Wire R} {inp : ControlInput R}
    (hi : Unsecured w.item) (hw : regonfhcControl w inp = some w') : Unsecured w'.item := by
  obtain ⟨ha, hs⟩ := hi
  cases control_cases hw with
  | init hst =>
    rcases controlInit_cases w inp with ⟨g, s, he⟩ | ⟨-, -, he⟩
    · rw [he]
      exact ⟨ha, hs⟩
    · have hg : (greenLightIsGreen w inp.green).2.item.secure_out = w.item.secure_out := by
        rw [greenLightIsGreen_item]
      rw [he]
      refine ⟨?_, ?_⟩
      · rw [← ha, ← hg]
        unfold controlInitDone
        dsimp only
        split <;> simp [initReset]
      · rcases controlInitDone_spec (readSensor (greenLightIsGreen w inp.green).2 inp.snsr) with
          ⟨n, -, hs, -⟩ | hd
        · rw [hs]; decide
        · rw [hd]; decide
  | @busy n m w₁ hst _ _ hw₁ _ _ =>
    have ha₁ : (busyDrive (busyChange w₁ n inp) m).item.secure_out.active = false := by
      simpa [hw₁] using ha
    rw [busySecure_inactive ha₁]
    exact ⟨ha₁, by simp [hw₁, hst]⟩
  | failed hst =>
    refine ⟨?_, ?_⟩
    · unfold busyFailed
      dsimp only
      split_ifs <;> simpa using ha
    · rcases (busyFailed_frame (readSensor w inp.snsr)).1 with h | h <;> simp [h, hst]
  | secure hst => exact absurd hst hs
  | disable => exact ⟨by simpa [controlDisable] using ha, by simp [controlDisable]⟩
  | off => exact ⟨ha, hs⟩
  | other => exact ⟨ha, by simp⟩

theorem step_unsecured {item item' : RegOnfHC R} {i : Input R} {out : List (Request R)}
    (hi : Unsecured item) (hs : step item i = some (item', out)) :
    Unsecured item' := by
  cases i with
  | control inp =>
    rw [step, Option.map_eq_some_iff] at hs
    obtain ⟨w, hw, he⟩ := hs
    cases he
    exact control_unsecured hi hw
  | op o =>
    cases hs
    exact op_unsecured (w := ⟨item, []⟩) hi o

end Regonf
