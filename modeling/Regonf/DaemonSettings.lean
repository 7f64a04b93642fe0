import Regonf.DaemonView

/-! The settings of a program in memory and in its row, and the requests that write both. -/
namespace Regonf

variable {R : Type}

/-- What a client sets of a regulator. -/
structure Settings (R : Type) where
  goal : R
  heater_delta : R
  cooler_delta : R
  change_gap : Timespec
  heater_use : Bool
  cooler_use : Bool
deriving DecidableEq, Repr

def RegOnfHC.settings (item : RegOnfHC R) : Settings R :=
  ⟨item.goal, item.heater.delta, item.cooler.delta, item.change_gap, item.heater.use,
    item.cooler.use⟩

/-- What an operation makes of the settings. -/
def Settings.apply (s : Settings R) : Op R → Settings R
  | .setGoal v => { s with goal := v }
  | .setHeaterDelta v => { s with heater_delta := v }
  | .setCoolerDelta v => { s with cooler_delta := v }
  | .setChangeGap v => { s with change_gap := ⟨v, 0⟩ }
  | .setEMMode v => { s with heater_use := (emModeUse v).1, cooler_use := (emModeUse v).2 }
  | _ => s

theorem settings_congr {i j : RegOnfHC R} (hgoal : i.goal = j.goal)
    (hgap : i.change_gap = j.change_gap)
    (hem : ∀ n, (i.em n).delta = (j.em n).delta ∧ (i.em n).use = (j.em n).use) :
    i.settings = j.settings := by
  obtain ⟨hhd, hhu⟩ := hem .heater
  obtain ⟨hcd, hcu⟩ := hem .cooler
  simp only [RegOnfHC.em] at hhd hhu hcd hcu
  simp only [RegOnfHC.settings, hgoal, hgap, hhd, hhu, hcd, hcu]

@[simp] theorem controlEM_settings (w : Wire R) (n : EMName) (v : R) :
    (controlEM w n v).item.settings = w.item.settings :=
  settings_congr (by simp) (by simp) (by simp)

@[simp] theorem readSensor_settings (w : Wire R) (r : Reply R) :
    (readSensor w r).item.settings = w.item.settings :=
  settings_congr (by simp) (by simp) (by simp)

@[simp] theorem greenLightIsGreen_settings [BEq R] (w : Wire R) (r : Reply R) :
    (greenLightIsGreen w r).2.item.settings = w.item.settings := by
  rw [greenLightIsGreen_item]
  rfl

/-- The mechanisms are switched off before their flags are written. -/
theorem setUse_settings {w u : Wire R} (hu : u.item.settings = w.item.settings)
    (heater cooler : Bool) : (u.item.setUse heater cooler).settings =
      { w.item.settings with heater_use := heater, cooler_use := cooler } := by
  rw [← hu]
  rfl

theorem switchedOff_settings [Zero R] (w : Wire R) :
    (controlEM (controlEM w .heater 0) .cooler 0).item.settings = w.item.settings := by
  rw [controlEM_settings, controlEM_settings]

/-- An operation changes the settings as told, and nothing else does. -/
theorem applyOp_settings [Zero R] (w : Wire R) (o : Op R) :
    (applyOp w o).item.settings = w.item.settings.apply o := by
  cases o with
  -- each branch switches off the mechanisms it takes out of use, the last one both
  | setEMMode v =>
    simp only [applyOp, regonfhcSetEMMode, Settings.apply, emModeUse]
    split_ifs
    · exact setUse_settings (controlEM_settings w .heater 0) false true
    · exact setUse_settings (controlEM_settings w .cooler 0) true false
    · exact setUse_settings rfl true true
    · exact setUse_settings (u := controlEM (controlEM w .heater 0) .cooler 0)
        (switchedOff_settings w) false false
  | setHeaterPower v => exact controlEM_settings w .heater v
  | setCoolerPower v => exact controlEM_settings w .cooler v
  | turnOff =>
    refine (controlEM_settings _ .heater 0).trans ?_
    exact controlEM_settings _ .cooler 0
  | _ => rfl

section control
variable [Zero R] [LT R] [DecidableLT R]

theorem controlInitDone_settings (w : Wire R) :
    (controlInitDone w).item.settings = w.item.settings := by
  -- the mechanisms are reset, and only then the state is chosen
  have hreset : (initReset w).item.settings = w.item.settings :=
    switchedOff_settings (w.upd fun i =>
      { i with tmr := { i.tmr with ready := false }, state_r := .regHeater })
  rw [← hreset, controlInitDone]
  split <;> rfl

variable [Add R] [Sub R]

theorem busyRegulate_settings {w u : Wire R} {inp : ControlInput R}
    (h : busyRegulate w inp = some u) : u.item.settings = w.item.settings := by
  unfold busyRegulate at h
  split at h
  · cases h
  · cases h
    exact settings_congr (by simp) (by simp) (by simp)

theorem controlBusy_settings {w u : Wire R} {inp : ControlInput R}
    (h : controlBusy w inp = some u) : u.item.settings = w.item.settings := by
  rw [← readSensor_settings w inp.snsr]
  simp only [controlBusy] at h
  split_ifs at h with hs
  -- a reading sets the count of failures back; without one the mechanisms may be switched off
  · have hcount : u.item.settings =
        ((readSensor w inp.snsr).upd fun i => { i with snsrf_count := 0 }).item.settings :=
      busyRegulate_settings h
    exact hcount
  · cases h
    unfold busyFailed
    split_ifs
    · exact switchedOff_settings _
    · rfl

variable [BEq R]

/-- A control step leaves the settings alone. -/
theorem regonfhcControl_settings {w u : Wire R} {inp : ControlInput R}
    (h : regonfhcControl w inp = some u) : u.item.settings = w.item.settings := by
  unfold regonfhcControl at h
  split at h
  · cases h
    rw [← greenLightIsGreen_settings w inp.green]
    simp only [controlInit]
    split_ifs
    · rfl
    · exact readSensor_settings _ _
    · rw [controlInitDone_settings, readSensor_settings]
  · exact controlBusy_settings h
  · cases h
    refine (controlEM_settings _ .cooler _).trans ?_
    exact controlEM_settings w .heater _
  · cases h
    exact switchedOff_settings w
  · cases h
    rfl
  · cases h
    rfl

theorem step_settings {item t : RegOnfHC R} {i : Input R} {out : List (Request R)}
    (h : step item i = some (t, out)) :
    t.settings = i.op?.toList.foldl Settings.apply item.settings := by
  cases i with
  | control inp =>
    obtain ⟨w, hw, he⟩ := Option.map_eq_some_iff.mp h
    cases he
    exact regonfhcControl_settings hw
  | op o =>
    cases h
    exact applyOp_settings ⟨item, []⟩ o

/-- The settings after a run are those that the operations among its inputs make. -/
theorem run_settings {item t : RegOnfHC R} {is : List (Input R)} {out : List (Request R)}
    (h : Controller.run step item is = some (t, out)) :
    t.settings = (is.filterMap Input.op?).foldl Settings.apply item.settings := by
  induction is generalizing item out with
  | nil =>
    cases h
    rfl
  | cons i is ih =>
    obtain ⟨s, o, rest, hs, hr, -⟩ := Controller.run_cons_some.mp h
    have hcons : (i :: is).filterMap Input.op? = i.op?.toList ++ is.filterMap Input.op? := by
      rw [List.filterMap_cons]
      cases i.op? <;> rfl
    rw [ih hr, step_settings hs, hcons, List.foldl_append]

/-- What the main thread knows of the settings of a program. -/
def Block.settings (b : Block R) : Option (Settings R) :=
  b.loaded.map fun reg => b.ops.foldl Settings.apply reg.settings

theorem Knows.settings {c : Cell R} {b : Block R} {s : Settings R} (hk : Knows c b)
    (h : b.settings = some s) : c.prog.reg.settings = s := by
  obtain ⟨reg, hreg, rfl⟩ := Option.map_eq_some_iff.mp h
  obtain ⟨is, hops, hr⟩ := hk.loaded reg hreg
  rw [run_settings hr, hops]

end control

/-- What a row says of the settings. -/
def ProgRow.settings (row : ProgRow R) : Settings R :=
  ⟨row.goal, row.heater_delta, row.cooler_delta, ⟨row.change_gap, 0⟩, (emModeUse row.em_mode).1,
    (emModeUse row.em_mode).2⟩

/-- What of a program is in its row. -/
structure Saved (R : Type) where
  settings : Settings R
  save : ℤ
  enabled : Bool
deriving DecidableEq, Repr

def ProgRow.saved (row : ProgRow R) : Saved R :=
  ⟨row.settings, row.save, decide (row.enable ≠ 0)⟩

section fill
variable [Zero R] (row : ProgRow R) (sensor : SensorFTS R) (heater cooler : EM R)
  (secure_out : Option (RegSecure R)) (green : Option (SensorFTS R))

theorem regOfRow_settings :
    (regOfRow row sensor heater cooler secure_out green).settings = row.settings := by
  unfold regOfRow
  dsimp only
  split_ifs <;> rfl

theorem regOfRow_state : (regOfRow row sensor heater cooler secure_out green).state =
    if row.saved.enabled = true then .regInit else .regDisable := by
  unfold regOfRow
  simp only [ProgRow.saved, decide_eq_true_eq]
  split_ifs <;> rfl

end fill

variable [Sqlite R]

/-- What a setter makes of a row. -/
def Setter.onRow (t : Setter R) (row : ProgRow R) : ProgRow R :=
  match t.column with
  | none => row
  | some c => row.set c

/-- What a setter makes of what is saved. A program is enabled or disabled for good by `e`. -/
def Saved.set (x : Saved R) (t : Setter R) (e : Option Bool) : Saved R :=
  ⟨t.ops.foldl Settings.apply x.settings, t.newSave.getD x.save, e.getD x.enabled⟩

/-- The setter writes to the row what it does in memory, and keeps `save` on. -/
structure Setter.InStep (t : Setter R) (e : Option Bool) : Prop where
  saved : ∀ row : ProgRow R, (t.onRow row).saved = row.saved.set t e
  save : ∀ v ∈ t.newSave, v ≠ 0
  plain : ∀ m, t.column = some (.em_mode m) → Char.ofNat 39 ∉ m.toList

/-- The requests that write settings, with values that are `ok`; `save` stays on, and the mode is
one of the three that have a name. -/
def Command.Writes (ok : R → Prop) : Command R → Prop
  | .progEnable _ | .progDisable _ => True
  | .progSetSave rows => ∀ row ∈ rows, row.2 ≠ 0
  | .setHeaterPower _ | .setCoolerPower _ | .setChangeGap _ => True
  | .setGoal rows | .setHeaterDelta rows | .setCoolerDelta rows => ∀ row ∈ rows, ok row.2
  | .setEMMode rows => ∀ row ∈ rows,
    row.2 ∈ [REG_EM_MODE_COOLER_STR, REG_EM_MODE_HEATER_STR, REG_EM_MODE_BOTH_STR]
  | _ => False

/-- What the request enables or disables for good. -/
def Command.enabling : Command R → Option Bool
  | .progEnable _ => some true
  | .progDisable _ => some false
  | _ => none

/-- The programs that the request enables or disables. -/
def Command.enabledIds : Command R → List ℤ
  | .progEnable ids | .progDisable ids => ids
  | _ => []

/-- Whether the program is enabled after the requests, if it was as `e` says before. -/
def enabledAfter (id : ℤ) (e : Bool) (cs : List (Command R)) : Bool :=
  cs.foldl (fun e c => if id ∈ c.enabledIds then c.enabling.getD e else e) e

omit [Sqlite R] in
theorem enabledAfter_append (id : ℤ) (e : Bool) (cs : List (Command R)) (c : Command R) :
    enabledAfter id e (cs ++ [c]) =
      if id ∈ c.enabledIds then c.enabling.getD (enabledAfter id e cs) else
        enabledAfter id e cs := by
  rw [enabledAfter, List.foldl_append]
  rfl

/-- A setter that does not write to `save` or `em_mode`. -/
theorem inStep_of_saved {t : Setter R} {e : Option Bool} (hsave : t.newSave = none)
    (hplain : ∀ m, t.column ≠ some (.em_mode m))
    (h : ∀ row : ProgRow R, (t.onRow row).saved = row.saved.set t e) : t.InStep e where
  saved := h
  save := by
    rw [hsave]
    simp
  plain := fun m hm => absurd hm (hplain m)

/-- The script runs setters that are in step, with the effect of `c` on what is enabled. -/
def RunsSetters (c : Command R) (m : Main R Unit) : Prop :=
  ∃ (β : Type) (setter : β → Setter R) (rows : List (ℤ × β)), m = setProgs setter rows ∧
    (∀ row ∈ rows, (setter row.2).InStep c.enabling) ∧
    (rows.map Prod.fst = c.enabledIds ∨ c.enabling = none)

theorem runsSetters {c : Command R} {β : Type} {setter : β → Setter R} {rows : List (ℤ × β)}
    (h : ∀ row ∈ rows, (setter row.2).InStep c.enabling)
    (hids : rows.map Prod.fst = c.enabledIds ∨ c.enabling = none) :
    RunsSetters c (setProgs setter rows) := ⟨β, setter, rows, rfl, h, hids⟩

omit [Sqlite R] in
theorem Command.Writes.mono {ok ok' : R → Prop} (hok : ∀ v, ok v → ok' v) {c : Command R}
    (h : c.Writes ok) : c.Writes ok' := by
  cases c with
  | setGoal rows => exact fun row hrow => hok row.2 (h row hrow)
  | setHeaterDelta rows => exact fun row hrow => hok row.2 (h row hrow)
  | setCoolerDelta rows => exact fun row hrow => hok row.2 (h row hrow)
  | _ => exact h

theorem serverRunProg_writes [Zero R] {c : Command R}
    (h : c.Writes fun v => Sqlite.stored v = v) :
    RunsSetters c (serverRunProg c) := by
  cases c with
  | progEnable ids =>
    unfold serverRunProg progEnable
    refine runsSetters (fun row _ => ?_) (Or.inl ?_)
    · exact inStep_of_saved rfl (by simp) fun _ => rfl
    · rw [List.map_map]
      exact List.map_id ids
  | progDisable ids =>
    unfold serverRunProg progDisable
    refine runsSetters (fun row _ => ?_) (Or.inl ?_)
    · exact inStep_of_saved rfl (by simp) fun _ => rfl
    · rw [List.map_map]
      exact List.map_id ids
  -- the only setter that writes `save`
  | progSetSave rows =>
    unfold serverRunProg progSetSave
    refine runsSetters (fun row hrow => ⟨fun _ => rfl, ?_, by simp⟩) (Or.inr rfl)
    intro v hv
    cases hv
    exact h row hrow
  | setHeaterPower rows =>
    unfold serverRunProg setHeaterPower
    exact runsSetters (fun row _ => inStep_of_saved rfl (by simp) fun _ => rfl) (Or.inr rfl)
  | setCoolerPower rows =>
    unfold serverRunProg setCoolerPower
    exact runsSetters (fun row _ => inStep_of_saved rfl (by simp) fun _ => rfl) (Or.inr rfl)
  -- a real goes to the row as `%f` writes it, and that is the value itself
  | setGoal rows =>
    unfold serverRunProg setGoal
    refine runsSetters (fun row hrow => inStep_of_saved rfl (by simp) fun r => ?_) (Or.inr rfl)
    exact congrArg (fun v => ({ r with goal := v } : ProgRow R).saved) (h row hrow)
  | setHeaterDelta rows =>
    unfold serverRunProg setHeaterDelta
    refine runsSetters (fun row hrow => inStep_of_saved rfl (by simp) fun r => ?_) (Or.inr rfl)
    exact congrArg (fun v => ({ r with heater_delta := v } : ProgRow R).saved) (h row hrow)
  | setCoolerDelta rows =>
    unfold serverRunProg setCoolerDelta
    refine runsSetters (fun row hrow => inStep_of_saved rfl (by simp) fun r => ?_) (Or.inr rfl)
    exact congrArg (fun v => ({ r with cooler_delta := v } : ProgRow R).saved) (h row hrow)
  | setChangeGap rows =>
    unfold serverRunProg setChangeGap
    exact runsSetters (fun row _ => inStep_of_saved rfl (by simp) fun _ => rfl) (Or.inr rfl)
  | setEMMode rows =>
    unfold serverRunProg setEMMode
    refine runsSetters (fun row hrow => ⟨fun _ => rfl, by simp, fun m hm => ?_⟩) (Or.inr rfl)
    cases hm
    -- none of the three names has a quote in it
    have hmode := h row hrow
    simp only [List.mem_cons, List.not_mem_nil, or_false] at hmode
    rcases hmode with hm | hm | hm <;> rw [hm] <;> decide
  | _ => exact h.elim

end Regonf
