import Mathlib.Order.Basic
import Regonf.Lib.Stamped
import Regonf.RegonfhcGap
import Regonf.RegpidonfhcExclusion

/-! The change gap of the regulator with PID, in any modes. While a PID mechanism waits for the gap
it is sent negative outputs, so the gap is one between positive outputs. -/
namespace Regonf

namespace Regpidonfhc

open Stamped (Rested Apart)

variable {R : Type*} [Zero R]

/-- The request commands a positive output to `n`. -/
def Drives [LT R] (n : EMName) (r : Request R) : Prop := ∃ v dst, r = .setFloat n v dst ∧ 0 < v

/-- Between driving one mechanism and driving the other, more than the gap elapses. -/
def GapKept [LT R] (gap : Timespec) (h : List (Timespec × Request R)) : Prop :=
  Apart Timespec.ns gap.ns EMName.other Drives h

variable [Preorder R]

section
variable {k : EMName}

theorem idle_of_unpowered {l : List (Request R)} (hs : Stamped.Idle (Powers k) l) :
    Stamped.Idle (Drives k) l := by
  rintro r hr ⟨v, dst, he, hv⟩
  exact hs r hr ⟨v, dst, he, hv.ne'⟩

theorem idle_getFTS (s : SensorName) (dst : SockAddr) :
    Stamped.Idle (Drives k) ([.getFTS s dst] : List (Request R)) := by
  refine Stamped.Idle.singleton ?_
  rintro ⟨v, d, he, -⟩
  cases he

theorem idle_controlEM {w : Regonf.Wire R} {n : EMName} {v : R}
    (hs : Stamped.Idle (Drives k) w.sent) (hv : k = n → ¬0 < v) :
    Stamped.Idle (Drives k) (Regonf.controlEM w n v).sent := by
  -- a mechanism out of use is sent nothing
  cases hu : (w.item.em n).use with
  | false => rwa [Regonf.controlEM_of_not_use hu]
  | true =>
    rw [Regonf.controlEM_of_use hu]
    refine hs.append (Stamped.Idle.singleton ?_)
    rintro ⟨x, dst, he, hx⟩
    cases he
    exact hv rfl hx

theorem idle_controlEM_zero {w : Regonf.Wire R} (n : EMName) (hs : Stamped.Idle (Drives k) w.sent) :
    Stamped.Idle (Drives k) (Regonf.controlEM w n 0).sent := idle_controlEM hs fun _ => lt_irrefl 0

end

/-- What holds at `now` after the history `h` of stamped requests. -/
structure GapInv (gap : Timespec) (item : RegPIDOnfHC R) (now : Timespec)
    (h : List (Timespec × Request R)) : Prop where
  change_gap : item.change_gap = gap
  kept : GapKept gap h
  past : ∀ m ∈ h, m.1.ns ≤ now.ns
  onf : item.state = .regBusy → item.state_onf = .regDo ∨ item.state_onf = .regWait
  rested : item.state = .regBusy → ∀ n : EMName, item.state_r = n.state →
    Rested Timespec.ns gap.ns now (Drives n.other) h
  /-- While the gap timer runs, the mechanism that is to be left is not driven. One with PID may be,
  when its output is negative no more, but then the timer stops. -/
  armed : item.state = .regBusy → item.tmr.ready = true →
    item.tmr.start.Normalised ∧ item.tmr.start.ns ≤ now.ns ∧
      ∀ n : EMName, item.state_r = n.state →
        ((item.em n).mode = .regModeOnf → item.state_onf = .regWait) ∧
        (((item.em n).mode = .regModePid → item.output < 0) →
          ∀ m ∈ h, Drives n m.2 → m.1.ns ≤ item.tmr.start.ns)

/-- A step that stays in `REG_BUSY` does so from `REG_BUSY` and changes nothing there. -/
def Stays (item item' : RegPIDOnfHC R) : Prop :=
  item'.state = .regBusy → item.state = .regBusy ∧ item'.state_r = item.state_r ∧
    item'.state_onf = item.state_onf ∧ item'.tmr = item.tmr ∧ item'.output = item.output ∧
    ∀ n : EMName, item.state_r = n.state → (item'.em n).mode = (item.em n).mode

namespace GapInv

variable {gap now now' : Timespec} {item item' : RegPIDOnfHC R}
  {h : List (Timespec × Request R)} {out : List (Request R)}

/-- A step that drives nothing and, where it stays in `REG_BUSY`, keeps the regulator. -/
theorem idle (hi : GapInv gap item now h) (hn : now.ns ≤ now'.ns)
    (hc : item'.change_gap = item.change_gap) (hs : ∀ n, Stamped.Idle (Drives n) out)
    (hb : Stays item item') : GapInv gap item' now' (h ++ out.map (Prod.mk now')) where
  change_gap := hc.trans hi.change_gap
  kept := hi.kept.append fun n => Or.inl (hs n.other)
  past := Stamped.past_append hi.past hn out
  onf := by
    intro hst
    obtain ⟨hb₁, -, hb₃, -⟩ := hb hst
    rw [hb₃]
    exact hi.onf hb₁
  rested := by
    intro hst n hr
    obtain ⟨hb₁, hb₂, -⟩ := hb hst
    exact ((hi.rested hb₁ n (hb₂.symm.trans hr)).later hn).append (hs n.other) now'
  armed := by
    intro hst hready
    obtain ⟨hb₁, hb₂, hb₃, hb₄, hb₅, hb₆⟩ := hb hst
    rw [hb₄] at hready ⊢
    obtain ⟨hnorm, hle, ha⟩ := hi.armed hb₁ hready
    refine ⟨hnorm, hle.trans hn, fun n hr => ?_⟩
    rw [hb₂] at hr
    rw [hb₃, hb₅, hb₆ n hr]
    exact ⟨(ha n hr).1, fun hout => Stamped.bounded_append ((ha n hr).2 hout) (Or.inl (hs n))⟩

/-- Time passes, and the fields that the invariant does not look at change. -/
theorem later (hi : GapInv gap item now h) (hn : now.ns ≤ now'.ns)
    (hc : item'.change_gap = item.change_gap) (hb : Stays item item') :
    GapInv gap item' now' h := by
  have hi' := hi.idle hn hc (fun _ => Stamped.Idle.nil) hb
  rwa [List.map_nil, List.append_nil] at hi'

/-- A step that drives `m`, the other mechanism having rested. -/
theorem drive {m : EMName} (hi : GapInv gap item now h) (hn : now.ns ≤ now'.ns)
    (hc : item'.change_gap = gap) (hr : item'.state_r = m.state)
    (honf : item'.state_onf = .regDo ∨ item'.state_onf = .regWait)
    (ho : Stamped.Idle (Drives m.other) out)
    (hq : Rested Timespec.ns gap.ns now' (Drives m.other) h)
    (ha : item'.tmr.ready = true → item'.tmr.start.Normalised ∧ item'.tmr.start.ns ≤ now'.ns ∧
      ((item'.em m).mode = .regModeOnf → item'.state_onf = .regWait) ∧
      (((item'.em m).mode = .regModePid → item'.output < 0) →
        ∀ r ∈ h ++ out.map (Prod.mk now'), Drives m r.2 → r.1.ns ≤ item'.tmr.start.ns)) :
    GapInv gap item' now' (h ++ out.map (Prod.mk now')) where
  change_gap := hc
  kept := by
    refine hi.kept.append fun k => ?_
    -- the driven mechanism needs the other one to have rested, and the other one is not driven
    rcases EMName.eq_or_eq_other k m with rfl | rfl
    · exact Or.inl ho
    · exact Or.inr ⟨ho, hq⟩
  past := Stamped.past_append hi.past hn out
  onf := fun _ => honf
  rested := by
    intro _ k hk
    obtain rfl := EMName.state_inj.mp (hr.symm.trans hk)
    exact hq.append ho now'
  armed := by
    intro _ hready
    obtain ⟨h₁, h₂, h₃⟩ := ha hready
    refine ⟨h₁, h₂, fun k hk => ?_⟩
    obtain rfl := EMName.state_inj.mp (hr.symm.trans hk)
    exact h₃

end GapInv

section op
variable {w : Wire R} {o : Op R}

omit [Preorder R] in
theorem op_change_gap (hg : ∀ v, o ≠ .setChangeGap v) :
    (applyOp w o).item.change_gap = w.item.change_gap := by
  -- only `setChangeGap` writes the gap, and it is excluded
  cases ho : o.onf? with
  | some o' =>
    have hg' (v : ℤ) : o' ≠ .setChangeGap v := by
      rintro rfl
      cases o <;> simp [Op.onf?] at ho
      exact hg _ rfl
    have hop := congrArg (fun v : Regonf.Wire R => v.item.change_gap) (op_onf (w := w) ho)
    exact hop.trans (Regonf.op_change_gap w.onf hg')
  | none =>
    obtain ⟨dh, dc, s, -, hop⟩ := op_sets (w := w) ho
    exact congrArg (fun v : Regonf.Wire R => v.item.change_gap) hop

theorem op_idle {k : EMName} (ho : (Input.op o).automatic = true)
    (hs : Stamped.Idle (Powers k) w.sent) : Stamped.Idle (Drives k) (applyOp w o).sent := by
  refine idle_of_unpowered ?_
  cases hf : o.onf? with
  | some o' =>
    have hsent : (applyOp w o).sent = (Regonf.applyOp w.onf o').sent :=
      congrArg Regonf.Wire.sent (op_onf hf)
    rw [hsent]
    exact unpowered_op (w := w.onf) ((Op.onf?_automatic hf).trans ho) hs
  | none =>
    obtain ⟨dh, dc, s, -, hop⟩ := op_sets (w := w) hf
    have hsent : (applyOp w o).sent = w.sent := congrArg Regonf.Wire.sent hop
    rwa [hsent]

omit [Preorder R] in
/-- A command that stays in `REG_BUSY` keeps the mode of the mechanism at work. -/
theorem op_stays (ho : (Input.op o).automatic = true) : Stays w.item (applyOp w o).item := by
  intro hb
  have hmode (n k : EMName) (v : String) (hb : (setMode w.item n v).state = .regBusy) :
      w.item.state = .regBusy ∧ (setMode w.item n v).state_r = w.item.state_r ∧
        (setMode w.item n v).state_onf = w.item.state_onf ∧
        (setMode w.item n v).tmr = w.item.tmr ∧ (setMode w.item n v).output = w.item.output ∧
        (w.item.state_r = k.state → ((setMode w.item n v).em k).mode = (w.item.em k).mode) := by
    unfold setMode at hb ⊢
    cases hm : modeOfStr v with
    | none =>
      rw [hm] at hb
      exact ⟨hb, rfl, rfl, rfl, rfl, fun _ => rfl⟩
    | some m =>
      simp only [hm] at hb
      split_ifs at hb with hc
      -- otherwise the command would restart the program
      have hn : w.item.state_r ≠ n.state := fun hr =>
        hc ⟨by cases n <;> exact hb, by cases n <;> exact hr⟩
      refine ⟨by cases n <;> exact hb, by cases n <;> rfl, by cases n <;> rfl, by cases n <;> rfl,
        by cases n <;> rfl, fun hk => ?_⟩
      cases n <;> cases k <;> first | rfl | exact absurd hk hn
  -- every setter that could disturb the invariant restarts a program that regulates
  cases o <;> dsimp only [applyOp] at hb ⊢
  case setHeaterPower v => cases ho
  case setCoolerPower v => cases ho
  case setHeaterMode v =>
    obtain ⟨h₁, h₂, h₃, h₄, h₅, -⟩ := hmode .heater .heater v hb
    exact ⟨h₁, h₂, h₃, h₄, h₅, fun n hn => (hmode .heater n v hb).2.2.2.2.2 hn⟩
  case setCoolerMode v =>
    obtain ⟨h₁, h₂, h₃, h₄, h₅, -⟩ := hmode .cooler .heater v hb
    exact ⟨h₁, h₂, h₃, h₄, h₅, fun n hn => (hmode .cooler n v hb).2.2.2.2.2 hn⟩
  case enable => simp [regpidonfhcEnable] at hb
  case disable => simp [regpidonfhcDisable] at hb
  case turnOff => simp [regpidonfhcTurnOff] at hb
  case setEMMode v =>
    -- from `REG_BUSY` the mode restarts the program
    have hs : (regpidonfhcSetEMMode w v).item.state = _ :=
      (congrArg (fun v : Regonf.Wire R => v.item.state) (setEMMode_onf w v)).trans
        (setEMMode_state w.onf v).1
    rw [hs] at hb
    split_ifs at hb with hb'
    exact absurd hb hb'
  case setCoolerDelta v =>
    simp only [regpidonfhcSetCoolerDelta, Wire.upd_item] at hb
    split_ifs at hb
    exact ⟨hb, rfl, rfl, rfl, rfl, fun n _ => by cases n <;> rfl⟩
  case setHeaterDelta v =>
    simp only [regpidonfhcSetHeaterDelta, Wire.upd_item] at hb
    split_ifs at hb
    exact ⟨hb, rfl, rfl, rfl, rfl, fun n _ => by cases n <;> rfl⟩
  all_goals exact ⟨hb, rfl, rfl, rfl, rfl, fun n _ => by cases n <;> rfl⟩

end op

/-- The gap timer has fired: the mechanism that is left has rested for the gap. -/
theorem GapInv.fired {gap now : Timespec} {item : RegPIDOnfHC R}
    {h : List (Timespec × Request R)} {n : EMName} (hi : GapInv gap item now h)
    (hn : now.Normalised) (hgn : gap.Normalised) (hg : 0 ≤ gap.ns)
    (hst : item.state = .regBusy) (hr : item.state_r = n.state)
    (hout : (item.em n).mode = .regModePid → item.output < 0)
    (ht : (tonTs gap item.tmr now now).1 = true) :
    Rested Timespec.ns gap.ns now (Drives n) h := by
  cases hready : item.tmr.ready with
  -- a timer that was not running starts now and cannot fire
  | false =>
    rw [tonTs_fired hgn hn (by simpa [hready] using hn)] at ht
    simp only [hready, Bool.false_eq_true, ↓reduceIte] at ht
    omega
  | true =>
    obtain ⟨hnorm, -, ha⟩ := hi.armed hst hready
    rw [tonTs_fired hgn hn (by simpa [hready] using hnorm)] at ht
    simp only [hready, ↓reduceIte] at ht
    intro m hm hpm
    have := (ha n hr).2 hout m hm hpm
    omega

section control
variable [DecidableLT R] [Add R] [Sub R]

theorem idle_change {k : EMName} {w : Wire R} (n : EMName) (inp : ControlInput R)
    (hs : Stamped.Idle (Drives k) w.sent) : Stamped.Idle (Drives k) (busyChange w n inp).sent := by
  rcases busyChange_cases w n inp with ⟨-, -, -, he⟩ | ⟨-, -, -, he⟩ | ⟨-, he⟩
  · have hsent : (busyChange w n inp).sent = _ :=
      congrArg Regonf.Wire.sent ((congrArg Wire.onf he).trans (controlEM_onf _ n 0))
    rw [hsent]
    exact idle_controlEM_zero n hs
  · rw [he]
    exact hs
  · rw [he]
    exact hs

theorem valueIsOut_pid {item : RegPIDOnfHC R} {n : EMName} (hv : valueIsOut item n = true)
    (hm : (item.em n).mode = .regModePid) : item.output < 0 := by
  simpa [valueIsOut, hm] using hv

theorem valueIsOut_onf {item : RegPIDOnfHC R} {n : EMName} (hv : valueIsOut item n = true)
    (hm : (item.em n).mode ≠ .regModePid) :
    (item.em n).mode = .regModeOnf ∧ valIsOut item n = true := by
  unfold valueIsOut at hv
  -- by the mode
  split at hv
  · contradiction
  · exact ⟨by assumption, hv⟩
  · contradiction

variable [Mul R] [Div R] [IntCast R]

theorem busyDrive_item (w : Wire R) (m : EMName) (now : Timespec) :
    (busyDrive w m now).item.output = (busyOutput w.item m now).output ∧
      (busyDrive w m now).item.state_onf = (busyOutput w.item m now).state_onf ∧
      ∀ k, ((busyDrive w m now).item.em k).mode = (w.item.em k).mode := by
  have hd := congrArg Regonf.Wire.item (busyDrive_onf_any w m now)
  refine ⟨?_, ?_, fun k => ?_⟩
  · exact (congrArg RegOnfHC.output hd).trans (by simp)
  · exact (congrArg RegOnfHC.state_onf hd).trans (by simp)
  · have hp : (busyDrive w m now).item.pids = (busyOutput w.item m now).pids := by
      unfold busyDrive
      dsimp only
      rw [controlEM_pids, controlEM_pids]
      rfl
    refine (congrArg Prod.fst (congrFun hp k)).trans ?_
    unfold RegPIDOnfHC.pids busyOutput
    split
    · cases m <;> cases k <;> rfl
    · unfold busyOnf
      split <;> rfl
    · rfl

theorem idle_drive {k m : EMName} {w : Wire R} (now : Timespec)
    (hs : Stamped.Idle (Drives k) w.sent)
    (hv : k = m → ¬0 < (busyOutput w.item m now).output) :
    Stamped.Idle (Drives k) (busyDrive w m now).sent := by
  have hsent : (busyDrive w m now).sent = _ :=
    congrArg Regonf.Wire.sent (busyDrive_onf_any w m now)
  rw [hsent]
  exact idle_controlEM_zero m.other (idle_controlEM (w := w.onf.upd _) hs hv)

/-- `REG_BUSY` keeps to the two states of on-off regulation. -/
theorem busyOutput_state_onf {item : RegPIDOnfHC R} (m : EMName) (now : Timespec)
    (ho : item.state_onf = .regDo ∨ item.state_onf = .regWait) :
    (busyOutput item m now).state_onf = .regDo ∨ (busyOutput item m now).state_onf = .regWait := by
  unfold busyOutput
  split
  · cases m <;> exact ho
  · rcases ho with ho | ho <;> simp only [busyOnf, ho] <;> split_ifs <;> simp
  · exact ho

section
variable {item : RegPIDOnfHC R} {n : EMName} (now : Timespec)

theorem busyOutput_onf_mode (hm : (item.em n).mode = .regModeOnf) :
    busyOutput item n now = busyOnf item n := by
  simp only [busyOutput, hm]

/-- A reading that asks to leave an on-off mechanism makes it wait. -/
theorem busyOutput_waits (hm : (item.em n).mode = .regModeOnf)
    (ho : item.state_onf = .regDo ∨ item.state_onf = .regWait) (hv : valIsOut item n = true)
    (hl : item.state_onf = .regWait → valIsLow item n = false) :
    (busyOutput item n now).state_onf = .regWait := by
  rw [busyOutput_onf_mode now hm]
  rcases ho with ho | ho
  · simp only [busyOnf, ho, hv, ↓reduceIte]
  · simp only [busyOnf, ho, hl ho, Bool.false_eq_true, ↓reduceIte]

theorem busyOutput_zero (hm : (item.em n).mode = .regModeOnf)
    (ho : item.state_onf = .regWait) : (busyOutput item n now).output = 0 := by
  rw [busyOutput_onf_mode now hm]
  simp only [busyOnf, ho]

end

/-- A `REG_BUSY` step with a reading; `w` is the regulator after the reading. -/
theorem busy_gap {gap now : Timespec} {w : Wire R} {h : List (Timespec × Request R)}
    {n m : EMName} {inp : ControlInput R} (hi : GapInv gap w.item now h)
    (hs : ∀ k, Stamped.Idle (Drives k) w.sent) (hn : now.Normalised) (hgn : gap.Normalised)
    (hg : 0 ≤ gap.ns) (hst : w.item.state = .regBusy) (hr : w.item.state_r = n.state)
    (hf : inp.gapFirst = now) (hl : inp.gapNow = now)
    (hm : (busyChange w n inp).item.state_r = m.state)
    (hk : (w.item.em n).mode = .regModeOnf → w.item.state_onf = .regWait →
      valIsOut w.item n = true → valIsLow w.item n = false) :
    GapInv gap (busyDrive (busyChange w n inp) m inp.pidNow).item now
      (h ++ (busyDrive (busyChange w n inp) m inp.pidNow).sent.map (Prod.mk now)) := by
  set v := busyChange w n inp with hv
  set d := busyDrive v m inp.pidNow with hd
  obtain ⟨hout, honf, hmode⟩ := busyDrive_item v m inp.pidNow
  rw [← hd] at hout honf hmode
  have hframe := busyDrive_onf_frame v m inp.pidNow
  rw [← hd] at hframe
  have hvs (k : EMName) : Stamped.Idle (Drives k) v.sent := idle_change n inp (hs k)
  have hother : Stamped.Idle (Drives m.other) d.sent :=
    idle_drive inp.pidNow (hvs _) fun he => absurd he (EMName.other_ne m)
  have hc : d.item.change_gap = gap :=
    hframe.2.2.2.1.trans ((busyChange_onf_frame w n inp).2.2.1.trans hi.change_gap)
  have hdr : d.item.state_r = m.state := hframe.2.1.trans hm
  have htmr : d.item.tmr = v.item.tmr := hframe.2.2.2.2.2
  have honf' : d.item.state_onf = .regDo ∨ d.item.state_onf = .regWait := by
    rw [honf]
    refine busyOutput_state_onf m inp.pidNow ?_
    have hvs : v.item.state_onf = w.item.state_onf := (busyChange_onf_frame w n inp).2.2.2.2
    rw [hvs]
    exact hi.onf hst
  have hcases := busyChange_cases w n inp
  simp only [hf, hl, hi.change_gap] at hcases
  -- the other device takes over, the gap is waited for, or the timer is stopped
  rcases hcases with ⟨hvo, -, ht, he⟩ | ⟨hvo, hu, ht, he⟩ | ⟨-, he⟩
  · obtain rfl : m = n.other := EMName.state_inj.mp (by rw [← hm, hv, he]; simp)
    have hq := hi.fired hn hgn hg hst hr (valueIsOut_pid hvo) ht
    refine hi.drive le_rfl hc hdr honf' hother (by simpa using hq) fun hready => ?_
    have htv : v.item.tmr = (tonTs gap w.item.tmr now now).2 :=
      (congrArg (fun u : Regonf.Wire R => u.item.tmr)
        ((congrArg Wire.onf he).trans (controlEM_onf _ n 0))).trans (by simp; rfl)
    rw [htmr, htv, tonTs_fired_ready ht] at hready
    cases hready
  · obtain rfl : m = n := EMName.state_inj.mp (by rw [← hm, hv, he]; simp [hr])
    refine hi.drive le_rfl hc hdr honf' hother (hi.rested hst m hr) fun hready => ?_
    have htv : v.item.tmr = ⟨if w.item.tmr.ready then w.item.tmr.start else now, true⟩ := by
      rw [← tonTs_waiting ht, hv, he]
      rfl
    have hvm : (v.item.em m).mode = (w.item.em m).mode := by rw [hv, he]; cases m <;> rfl
    have hvo' : valIsOut v.item m = valIsOut w.item m ∧ valIsLow v.item m = valIsLow w.item m ∧
        v.item.state_onf = w.item.state_onf := by rw [hv, he]; cases m <;> exact ⟨rfl, rfl, rfl⟩
    rw [htmr, htv, hout, honf, hmode, hvm]
    have hwait (hmo : (w.item.em m).mode = .regModeOnf) :
        (busyOutput v.item m inp.pidNow).state_onf = .regWait := by
      obtain ⟨-, hvo⟩ := valueIsOut_onf hvo (by simp [hmo])
      refine busyOutput_waits inp.pidNow (hvm.trans hmo) (hvo'.2.2 ▸ hi.onf hst)
        (hvo'.1.trans hvo) fun hw => ?_
      rw [hvo'.2.1]
      exact hk hmo (hvo'.2.2.symm.trans hw) hvo
    cases hready' : w.item.tmr.ready with
    | false =>
      simp only [Bool.false_eq_true, ↓reduceIte]
      exact ⟨hn, le_rfl, hwait, fun _ r hr _ => Stamped.past_append hi.past le_rfl _ r hr⟩
    | true =>
      -- the timer was running, so `m` has not been driven since, and is not driven now
      obtain ⟨hnorm, hle, ha⟩ := hi.armed hst hready'
      simp only [↓reduceIte]
      refine ⟨hnorm, hle, hwait, fun hneg => ?_⟩
      refine Stamped.bounded_append ((ha m hr).2 (valueIsOut_pid hvo)) (Or.inl ?_)
      refine idle_drive inp.pidNow (hvs m) fun _ hpos => ?_
      by_cases hpid : (w.item.em m).mode = .regModePid
      · exact lt_asymm hpos (hneg hpid)
      · obtain ⟨hmo, -⟩ := valueIsOut_onf hvo hpid
        have hz := busyOutput_zero inp.pidNow (hvm.trans hmo) (hvo'.2.2.trans ((ha m hr).1 hmo))
        exact lt_irrefl _ (hz ▸ hpos)
  · obtain rfl : m = n := EMName.state_inj.mp (by rw [← hm, hv, he]; simp [hr])
    refine hi.drive le_rfl hc hdr honf' hother (hi.rested hst m hr) fun hready => ?_
    rw [htmr, hv, he] at hready
    cases hready

/-- The step does not let `REG_INIT` end with a mechanism whose counterpart was driven within the
gap, and no reading of `REG_WAIT` asks at once to leave an on-off mechanism and to switch it on (the
latter takes a negative delta). -/
def KeepsGap [BEq R] (item : RegPIDOnfHC R) (now : Timespec) (h : List (Timespec × Request R)) :
    Input R → Prop
  | .op _ => True
  | .control inp =>
    let read := (readSensor ⟨item, []⟩ inp.snsr).item
    (item.state = .regInit → ∀ w, regpidonfhcControl ⟨item, []⟩ inp = some w →
      w.item.state = .regBusy → ∀ n : EMName, w.item.state_r = n.state →
        Rested Timespec.ns item.change_gap.ns now (Drives n.other) h) ∧
    (item.state = .regBusy → item.state_onf = .regWait → ∀ n : EMName, item.state_r = n.state →
      (item.em n).mode = .regModeOnf → valIsOut read n = true → valIsLow read n = false)

omit [Add R] [Sub R] [Mul R] [Div R] [IntCast R] in
/-- The end of `REG_INIT`. -/
theorem initDone_gap {gap now now' : Timespec} {item : RegPIDOnfHC R} {u : Wire R}
    {h : List (Timespec × Request R)} {inp : ControlInput R} (hi : GapInv gap item now h)
    (hle : now.ns ≤ now'.ns) (hc : u.item.change_gap = item.change_gap)
    (hu : ∀ k, Stamped.Idle (Drives k) u.sent)
    (hk : (controlInitDone u inp).item.state = .regBusy →
      ∀ n : EMName, (controlInitDone u inp).item.state_r = n.state →
        Rested Timespec.ns gap.ns now' (Drives n.other) h) :
    GapInv gap (controlInitDone u inp).item now'
      (h ++ (controlInitDone u inp).sent.map (Prod.mk now')) := by
  obtain ⟨sensor, r, s, l, hs, hl, he⟩ := controlInitDone_cases u inp
  have hreset := initReset_onf u
  have hout (k : EMName) : Stamped.Idle (Drives k) (controlInitDone u inp).sent := by
    have hsent : (initReset u).sent = _ := congrArg Regonf.Wire.sent hreset
    rw [he]
    refine Stamped.Idle.append ?_ ?_
    · rw [hsent]
      exact idle_controlEM_zero .cooler (idle_controlEM_zero (w := u.onf.upd _) .heater (hu k))
    · rcases hl with rfl | ⟨dst, rfl⟩
      · exact Stamped.Idle.nil
      · exact idle_getFTS _ _
  have hgap : (controlInitDone u inp).item.change_gap = gap := by
    have hg := congrArg (fun v : Regonf.Wire R => v.item.change_gap) hreset
    rw [he]
    refine Eq.trans hg (Eq.trans ?_ (hc.trans hi.change_gap))
    simp [Regonf.initReset]
    rfl
  -- the timer is reset, so that `armed` says nothing
  have hready : (controlInitDone u inp).item.tmr.ready = false := by
    have hr := congrArg (fun v : Regonf.Wire R => v.item.tmr.ready) hreset
    rw [he]
    exact hr.trans (by simp [Regonf.initReset])
  exact
    { change_gap := hgap
      kept := hi.kept.append fun n => Or.inl (hout n.other)
      past := Stamped.past_append hi.past hle _
      onf := fun _ => Or.inr (by rw [he]; rfl)
      rested := fun hb n hr => (hk hb n hr).append (hout n.other) now'
      armed := fun _ ht => absurd (hready.symm.trans ht) (by decide) }

theorem control_gap [BEq R] {gap now now' : Timespec} {item : RegPIDOnfHC R} {w' : Wire R}
    {h : List (Timespec × Request R)} {inp : ControlInput R} (hu : Unsecured item.onf)
    (hi : GapInv gap item now h) (hle : now.ns ≤ now'.ns) (hn : now'.Normalised)
    (hgn : gap.Normalised) (hg : 0 ≤ gap.ns) (hf : inp.gapFirst = now') (hl : inp.gapNow = now')
    (hk : KeepsGap item now' h (.control inp))
    (hw : regpidonfhcControl ⟨item, []⟩ inp = some w') :
    GapInv gap w'.item now' (h ++ w'.sent.map (Prod.mk now')) := by
  obtain ⟨hk₁, hk₂⟩ := hk
  -- steps that power nothing, the end of `REG_INIT`, and regulation
  cases control_cases hw with
  | onf hw' hp hinit hbusy =>
    obtain ⟨hs, hc, hb⟩ := control_unpowered item.onf hu hw' hinit hbusy
    refine hi.idle hle hc (fun n => idle_of_unpowered (hs n)) fun hst => ?_
    obtain ⟨h₁, h₂, h₃, h₄, h₅⟩ := hb hst
    exact ⟨h₁, h₂, h₃, h₄, h₅, fun n _ => congrArg Prod.fst (congrFun hp n)⟩
  | init hst =>
    have hgreen := (greenLight_onf ⟨item, []⟩ inp.green).2.1
    have hc : (greenLightIsGreen ⟨item, []⟩ inp.green).2.item.change_gap = item.change_gap := by
      have hg := congrArg (fun v : Regonf.Wire R => v.item.change_gap) hgreen
      refine Eq.trans hg ?_
      rw [greenLightIsGreen_item]
      rfl
    refine initDone_gap hi hle hc (fun k => ?_) fun hb n hr => hi.change_gap ▸ hk₁ hst _ hw hb n hr
    have hs : (greenLightIsGreen ⟨item, []⟩ inp.green).2.sent = _ :=
      congrArg Regonf.Wire.sent hgreen
    refine Stamped.Idle.append ?_ (idle_getFTS _ _)
    rw [hs]
    exact idle_of_unpowered (unpowered_greenLight inp.green Stamped.Idle.nil)
  | @busy n m w₁ hst hok hr hw₁ hr₁ =>
    have hs (k : EMName) : Stamped.Idle (Drives k) w₁.sent := by
      rw [hw₁]
      exact Stamped.Idle.nil.append (idle_getFTS _ _)
    have hi₁ : GapInv gap w₁.item now' h := by
      refine hi.later hle (by rw [hw₁]; rfl) fun _ => ?_
      rw [hw₁]
      exact ⟨hst, rfl, rfl, rfl, rfl, fun k _ => by cases k <;> rfl⟩
    -- the condition is on the state before the step, and the reading has changed nothing else
    have hread : valIsOut w₁.item n = valIsOut (readSensor ⟨item, []⟩ inp.snsr).item n ∧
        valIsLow w₁.item n = valIsLow (readSensor ⟨item, []⟩ inp.snsr).item n ∧
        (w₁.item.em n).mode = (item.em n).mode ∧ w₁.item.state_onf = item.state_onf := by
      rw [hw₁]
      cases n <;> exact ⟨rfl, rfl, rfl, rfl⟩
    have hd := busy_gap hi₁ hs hn hgn hg (by rw [hw₁]; exact hst) (by rw [hw₁]; exact hr) hf hl
      hr₁ fun hmo ho hv => hread.2.1.trans (hk₂ hst (hread.2.2.2.symm.trans ho) n hr
        (hread.2.2.1.symm.trans hmo) (hread.1.symm.trans hv))
    have ha : (busyDrive (busyChange w₁ n inp) m inp.pidNow).item.secure_out.active = false := by
      have hframe := (busyDrive_onf_frame (busyChange w₁ n inp) m inp.pidNow).2.2.1
      have hsec : w₁.onf.item.secure_out = item.onf.secure_out := by rw [hw₁]; rfl
      exact (congrArg RegSecure.active
        (hframe.trans ((busyChange_onf_frame w₁ n inp).2.1.trans hsec))).trans hu.1
    have he : busySecure (busyDrive (busyChange w₁ n inp) m inp.pidNow) inp =
        busyDrive (busyChange w₁ n inp) m inp.pidNow := by
      simp only [busySecure, regSecureNeed_inactive ha, Bool.false_eq_true, ↓reduceIte]
      rfl
    rwa [he]

/-- An input of a run on a clock: no manual power, no change of the gap, and one reading of the
clock for the gap timer in a control step. -/
structure Clocked (i : Timespec × Input R) : Prop where
  automatic : i.2.automatic = true
  gap : ∀ v, i.2 ≠ .op (.setChangeGap v)
  normalised : i.1.Normalised
  reading : ∀ inp, i.2 = .control inp → inp.gapFirst = i.1 ∧ inp.gapNow = i.1

theorem step_gap [BEq R] {gap now : Timespec} {item item' : RegPIDOnfHC R}
    {i : Timespec × Input R} {h : List (Timespec × Request R)} {out : List (Request R)}
    (hu : Unsecured item.onf) (hi : GapInv gap item now h) (hle : now.ns ≤ i.1.ns)
    (hc : Clocked i) (hgn : gap.Normalised) (hg : 0 ≤ gap.ns) (hk : KeepsGap item i.1 h i.2)
    (hs : step item i.2 = some (item', out)) :
    GapInv gap item' i.1 (h ++ out.map (Prod.mk i.1)) := by
  obtain ⟨now', i⟩ := i
  cases i with
  | control inp =>
    rw [step, Option.map_eq_some_iff] at hs
    obtain ⟨w, hw, hwe⟩ := hs
    cases hwe
    obtain ⟨hf, hl⟩ := hc.reading inp rfl
    exact control_gap hu hi hle hc.normalised hgn hg hf hl hk hw
  | op o =>
    cases hs
    exact hi.idle hle (op_change_gap (w := ⟨item, []⟩) fun v he => hc.gap v (congrArg _ he))
      (fun k => op_idle (w := ⟨item, []⟩) hc.automatic Stamped.Idle.nil)
      (op_stays (w := ⟨item, []⟩) hc.automatic)

/-- In a run on a clock that does not go back, without manual power, with the watchdog off and the
gap fixed, with each mechanism in either mode and the modes changed at any time, the gap is kept
between driving one mechanism and driving the other, as long as every step meets `KeepsGap`. -/
theorem gap_in_any_mode [BEq R] {item : RegPIDOnfHC R} {t : RegPIDOnfHC R × Timespec}
    {t₀ : Timespec} {out : List (Timespec × Request R)} {is : List (Timespec × Input R)}
    (hl : Loaded item) (ha : item.secure_out.active = false)
    (hgn : item.change_gap.Normalised) (hg : 0 ≤ item.change_gap.ns)
    (hclock : (t₀ :: is.map Prod.fst).IsChain fun a b => a.ns ≤ b.ns)
    (hin : ∀ i ∈ is, Clocked i)
    (hk : Controller.Along (Controller.timed step) (fun s h i => KeepsGap s.1 i.1 h i.2)
      (item, t₀) [] is)
    (hr : Controller.run (Controller.timed step) (item, t₀) is = some (t, out)) :
    GapKept item.change_gap out := by
  have hle : Controller.Along (Controller.timed step) (fun s _ i => s.2.ns ≤ i.1.ns)
      (item, t₀) [] is := Controller.along_timed hclock
  -- the three conditions on the steps, together
  have hc := Controller.along_and hle (Controller.along_and hk
    (Controller.along_of_forall_mem (C := fun _ _ i => Clocked i) (fun i hi _ _ => hin i hi) _ _))
  have hb : item.state ≠ .regBusy := by rcases hl.state with h | h | h <;> simp [h]
  have h₀ : Exclusive item.onf [] ∧ GapInv item.change_gap item t₀ [] :=
    ⟨hl.exclusive ha, rfl, Apart.nil, fun _ hm => absurd hm List.not_mem_nil,
      fun h => absurd h hb, fun h => absurd h hb, fun h => absurd h hb⟩
  -- the invariant needs that of the exclusion beside it, for the watchdog
  have hi := Controller.run_invariant_along (I := fun s h => Exclusive s.1.onf (h.map Prod.snd) ∧
    GapInv item.change_gap s.1 s.2 h) ?_ h₀ hc hr
  · exact hi.2.kept
  · rintro ⟨s, now⟩ h i ⟨s', now'⟩ o ⟨hu, hi⟩ ⟨hle, hk, hc⟩ hs
    obtain ⟨out, hs₁, rfl, rfl⟩ := Controller.timed_some.mp hs
    refine ⟨?_, step_gap hu.unsecured hi hle hc hgn hg hk hs₁⟩
    simpa [Function.comp_def] using step_exclusive hu hc.automatic hs₁

end control

/-- With deltas that are not negative a step that does not leave `REG_INIT` meets the condition. -/
theorem keepsGap_of_delta {R : Type*} [AddCommGroup R] [LinearOrder R] [IsOrderedAddMonoid R]
    [Mul R] [Div R] [IntCast R] [BEq R] {item : RegPIDOnfHC R} {now : Timespec}
    {h : List (Timespec × Request R)} {i : Input R} (hs : item.state ≠ .regInit)
    (hh : 0 ≤ item.heater.delta) (hc : 0 ≤ item.cooler.delta) : KeepsGap item now h i := by
  cases i with
  | op o => trivial
  | control inp =>
    refine ⟨fun hi => absurd hi hs, fun _ _ n _ _ hv => ?_⟩
    rw [← (thresholds_onf _ n).1] at hv
    rw [← (thresholds_onf _ n).2]
    exact thresholds_disjoint (by cases n <;> assumption) hv

/-- A control step at `sec`, with a reading. -/
def exampleAt (sec value : ℤ) : Timespec × Input ℤ :=
  (⟨sec, 0⟩, .control (exampleReading sec (some value) (some value)))

theorem exampleAt_clocked (sec value : ℤ) : Clocked (exampleAt sec value) :=
  ⟨rfl, nofun, ⟨le_rfl, show (0 : ℤ) < 1000000000 by decide⟩,
    fun inp h => by cases h; exact ⟨rfl, rfl⟩⟩

/-- A heater with PID is left when its output has been negative for the gap; the cooler, which works
on-off, is on at 1901 seconds. -/
theorem gap_in_any_mode_example :
    let is := [exampleAt 0 240, exampleAt 1 240, exampleAt 2 240, exampleAt 3 260,
      exampleAt 4 260, exampleAt 1900 260, exampleAt 1901 260]
    ∃ t out, Controller.run (Controller.timed step)
        (exampleProg .regModePid .regModeOnf, ⟨0, 0⟩) is = some (t, out) ∧
      (∃ p, p <+: out ∧ commanded .heater (p.map Prod.snd) = 10) ∧
      commanded .cooler (out.map Prod.snd) = 1000 ∧ GapKept Regonf.exampleProg.change_gap out := by
  intro is
  have hr : Controller.run (Controller.timed step)
      (exampleProg .regModePid .regModeOnf, ⟨0, 0⟩) is = some (_, _) := rfl
  have hin : ∀ i ∈ is, Clocked i := by
    simp only [is, List.forall_mem_cons, List.not_mem_nil, false_implies, implies_true, and_true]
    exact ⟨exampleAt_clocked _ _, exampleAt_clocked _ _, exampleAt_clocked _ _,
      exampleAt_clocked _ _, exampleAt_clocked _ _, exampleAt_clocked _ _, exampleAt_clocked _ _⟩
  have hk : Controller.Along (Controller.timed step) (fun s h i => KeepsGap s.1 i.1 h i.2)
      (exampleProg .regModePid .regModeOnf, ⟨0, 0⟩) [] is := by
    refine Controller.along_cons rfl ⟨fun _ _ _ _ _ _ m hm => absurd hm List.not_mem_nil,
      fun h => absurd h (by decide)⟩ ?_
    -- the program is in `REG_BUSY` from here on
    refine Controller.along_cons rfl (keepsGap_of_delta (by decide) (by decide) (by decide)) ?_
    refine Controller.along_cons rfl (keepsGap_of_delta (by decide) (by decide) (by decide)) ?_
    refine Controller.along_cons rfl (keepsGap_of_delta (by decide) (by decide) (by decide)) ?_
    refine Controller.along_cons rfl (keepsGap_of_delta (by decide) (by decide) (by decide)) ?_
    refine Controller.along_cons rfl (keepsGap_of_delta (by decide) (by decide) (by decide)) ?_
    exact Controller.along_cons rfl (keepsGap_of_delta (by decide) (by decide) (by decide)) trivial
  exact ⟨_, _, hr, ⟨_, List.take_prefix 10 _, rfl⟩, rfl,
    gap_in_any_mode (exampleProg_loaded _ _) rfl (by decide) (by decide) (by decide) hin hk hr⟩

end Regpidonfhc

end Regonf
