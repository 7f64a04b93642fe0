import Mathlib.Algebra.Order.Group.Defs
import Regonf.Lib.Stamped
import Regonf.RegonfhcOutputs
import Regonf.RegonfhcUnsecured

/-! The change gap. The timer of `REG_BUSY` keeps it between a heater command and a cooler
command; the choice of a mechanism at the end of `REG_INIT` does not look at it. -/
namespace Regonf

variable {R : Type*} [Zero R]

/-- The request commands a nonzero output to `n`. -/
def Powers (n : EMName) (r : Request R) : Prop := ∃ v dst, r = .setFloat n v dst ∧ v ≠ 0

/-- Between powering one mechanism and powering the other, more than the gap elapses. -/
def GapRespected (gap : Timespec) (h : List (Timespec × Request R)) : Prop :=
  Stamped.Apart Timespec.ns gap.ns EMName.other Powers h

section
variable {w : Wire R} {k : EMName}

theorem unpowered_getFTS (s : SensorName) (dst : SockAddr) :
    Stamped.Idle (Powers k) ([.getFTS s dst] : List (Request R)) := by
  refine Stamped.Idle.singleton ?_
  rintro ⟨x, d, he, -⟩
  cases he

theorem unpowered_controlEM {n : EMName} {v : R} (hs : Stamped.Idle (Powers k) w.sent)
    (hv : k = n → v = 0) : Stamped.Idle (Powers k) (controlEM w n v).sent := by
  cases hu : (w.item.em n).use with
  | false => rwa [controlEM_of_not_use hu]
  | true =>
    rw [controlEM_of_use hu]
    refine hs.append (Stamped.Idle.singleton ?_)
    rintro ⟨x, dst, he, hx⟩
    cases he
    exact hx (hv rfl)

theorem unpowered_zero (n : EMName) (hs : Stamped.Idle (Powers k) w.sent) :
    Stamped.Idle (Powers k) (controlEM w n 0).sent := unpowered_controlEM hs fun _ => rfl

theorem unpowered_greenLight [BEq R] (r : Reply R) (hs : Stamped.Idle (Powers k) w.sent) :
    Stamped.Idle (Powers k) (greenLightIsGreen w r).2.sent := by
  unfold greenLightIsGreen
  dsimp only
  split
  · exact hs.append (unpowered_getFTS _ _)
  · exact hs

theorem unpowered_failed (hs : Stamped.Idle (Powers k) w.sent) :
    Stamped.Idle (Powers k) (busyFailed w).sent := by
  unfold busyFailed
  dsimp only
  split_ifs
  · exact unpowered_zero .cooler (unpowered_zero .heater hs)
  · exact hs

theorem unpowered_op {o : Op R} (ho : (Input.op o).automatic = true)
    (hs : Stamped.Idle (Powers k) w.sent) : Stamped.Idle (Powers k) (applyOp w o).sent := by
  cases o with
  | setEMMode v =>
    simp only [applyOp, regonfhcSetEMMode]
    split_ifs
    · exact unpowered_zero .heater hs
    · exact unpowered_zero .cooler hs
    · exact hs
    · exact unpowered_zero .cooler (unpowered_zero .heater hs)
  | setHeaterPower v => exact absurd ho Bool.false_ne_true
  | setCoolerPower v => exact absurd ho Bool.false_ne_true
  | turnOff =>
    have hc := unpowered_zero (w := w.upd fun i => { i with state := .regOff }) .cooler hs
    exact unpowered_zero .heater hc
  | _ => exact hs

variable [LT R] [DecidableLT R]

theorem unpowered_init [BEq R] (inp : ControlInput R) (hs : Stamped.Idle (Powers k) w.sent) :
    Stamped.Idle (Powers k) (controlInit w inp).sent := by
  have hg := unpowered_greenLight inp.green hs
  have hr : Stamped.Idle (Powers k)
      (readSensor (greenLightIsGreen w inp.green).2 inp.snsr).sent :=
    hg.append (unpowered_getFTS _ _)
  have hd : Stamped.Idle (Powers k)
      (initReset (readSensor (greenLightIsGreen w inp.green).2 inp.snsr)).sent :=
    unpowered_zero .cooler (unpowered_zero .heater hr)
  unfold controlInit
  dsimp only
  split_ifs
  · exact hg
  · exact hr
  · unfold controlInitDone
    dsimp only
    split
    · exact hd
    · exact hd

variable [Add R] [Sub R]

theorem unpowered_change (n : EMName) (inp : ControlInput R)
    (hs : Stamped.Idle (Powers k) w.sent) :
    Stamped.Idle (Powers k) (busyChange w n inp).sent := by
  rcases busyChange_cases w n inp with ⟨-, -, -, he⟩ | ⟨-, -, -, he⟩ | ⟨-, he⟩ <;> rw [he]
  · exact unpowered_zero n hs
  · exact hs
  · exact hs

theorem unpowered_drive {m : EMName} (hs : Stamped.Idle (Powers k) w.sent)
    (hv : k = m → (busyOnf w.item m).output = 0) :
    Stamped.Idle (Powers k) (busyDrive w m).sent :=
  unpowered_zero m.other (unpowered_controlEM (w := w.upd fun i => busyOnf i m) hs hv)

end

/-- What holds at `now` after the history `h` of stamped requests. -/
structure GapInv (gap : Timespec) (item : RegOnfHC R) (now : Timespec)
    (h : List (Timespec × Request R)) : Prop where
  change_gap : item.change_gap = gap
  respected : GapRespected gap h
  past : ∀ m ∈ h, m.1.ns ≤ now.ns
  rested : item.state = .regBusy → ∀ n : EMName, item.state_r = n.state →
    Stamped.Rested Timespec.ns gap.ns now (Powers n.other) h
  /-- While the gap timer runs, the mechanism that is to be left stays off. -/
  armed : item.state = .regBusy → item.tmr.ready = true →
    item.state_onf = .regWait ∧ item.tmr.start.Normalised ∧ item.tmr.start.ns ≤ now.ns ∧
      ∀ n : EMName, item.state_r = n.state → ∀ m ∈ h, Powers n m.2 → m.1.ns ≤ item.tmr.start.ns

namespace GapInv

variable {gap now now' : Timespec} {item item' : RegOnfHC R}
  {h : List (Timespec × Request R)} {out : List (Request R)}

/-- A step that powers nothing and, where it stays in `REG_BUSY`, keeps the regulator. -/
theorem idle (hi : GapInv gap item now h) (hn : now.ns ≤ now'.ns)
    (hc : item'.change_gap = item.change_gap) (hs : ∀ n, Stamped.Idle (Powers n) out)
    (hb : item'.state = .regBusy → item.state = .regBusy ∧ item'.state_r = item.state_r ∧
      item'.state_onf = item.state_onf ∧ item'.tmr = item.tmr) :
    GapInv gap item' now' (h ++ out.map (Prod.mk now')) where
  change_gap := hc.trans hi.change_gap
  respected := hi.respected.append fun n => Or.inl (hs n.other)
  past := Stamped.past_append hi.past hn out
  rested := by
    intro hst n hr
    obtain ⟨hb₁, hb₂, -⟩ := hb hst
    exact ((hi.rested hb₁ n (hb₂.symm.trans hr)).later hn).append (hs n.other) now'
  armed := by
    intro hst hready
    obtain ⟨hb₁, hb₂, hb₃, hb₄⟩ := hb hst
    rw [hb₂, hb₃, hb₄]
    obtain ⟨ho, hnorm, hle, hp⟩ := hi.armed hb₁ (hb₄ ▸ hready)
    exact ⟨ho, hnorm, hle.trans hn,
      fun n hr => Stamped.bounded_append (hp n hr) (Or.inl (hs n))⟩

/-- Time passes, and the fields that the invariant does not look at change. -/
theorem later (hi : GapInv gap item now h) (hn : now.ns ≤ now'.ns)
    (hc : item'.change_gap = item.change_gap)
    (hb : item'.state = .regBusy → item.state = .regBusy ∧ item'.state_r = item.state_r ∧
      item'.state_onf = item.state_onf ∧ item'.tmr = item.tmr) : GapInv gap item' now' h := by
  have hi' := hi.idle hn hc (fun _ => Stamped.Idle.nil) hb
  rwa [List.map_nil, List.append_nil] at hi'

/-- A step that drives `m`, the other mechanism having rested. -/
theorem drive {m : EMName} (hi : GapInv gap item now h) (hc : item'.change_gap = gap)
    (hr : item'.state_r = m.state) (ho : Stamped.Idle (Powers m.other) out)
    (hq : Stamped.Rested Timespec.ns gap.ns now (Powers m.other) h)
    (ha : item'.tmr.ready = true → item'.state_onf = .regWait ∧ item'.tmr.start.Normalised ∧
      item'.tmr.start.ns ≤ now.ns ∧ ∀ r ∈ h ++ out.map (Prod.mk now), Powers m r.2 →
        r.1.ns ≤ item'.tmr.start.ns) :
    GapInv gap item' now (h ++ out.map (Prod.mk now)) where
  change_gap := hc
  respected := by
    apply hi.respected.append
    intro k
    rcases EMName.eq_or_eq_other k m with rfl | rfl
    · exact Or.inl ho
    · exact Or.inr ⟨ho, hq⟩
  past := Stamped.past_append hi.past le_rfl out
  rested := by
    intro _ k hk
    obtain rfl := EMName.state_inj.mp (hr.symm.trans hk)
    exact hq.append ho now
  armed := by
    intro _ hready
    obtain ⟨h₁, h₂, h₃, h₄⟩ := ha hready
    refine ⟨h₁, h₂, h₃, fun k hk => ?_⟩
    obtain rfl := EMName.state_inj.mp (hr.symm.trans hk)
    exact h₄

end GapInv

theorem op_change_gap (w : Wire R) {o : Op R} (hg : ∀ v, o ≠ .setChangeGap v) :
    (applyOp w o).item.change_gap = w.item.change_gap := by
  cases o with
  | setChangeGap v => exact absurd rfl (hg v)
  | setEMMode v =>
    simp only [applyOp, regonfhcSetEMMode]
    split_ifs <;> simp [RegOnfHC.setUse]
  | setHeaterPower v => simp [applyOp, regonfhcSetHeaterPower]
  | setCoolerPower v => simp [applyOp, regonfhcSetCoolerPower]
  | turnOff => simp [applyOp, regonfhcTurnOff]
  | _ => rfl

/-- The gap timer has fired: the mechanism that is left has rested. -/
theorem GapInv.fired {gap now : Timespec} {item : RegOnfHC R}
    {h : List (Timespec × Request R)} {n : EMName} (hi : GapInv gap item now h)
    (hn : now.Normalised) (hgn : gap.Normalised) (hg : 0 ≤ gap.ns)
    (hst : item.state = .regBusy) (hr : item.state_r = n.state)
    (ht : (tonTs gap item.tmr now now).1 = true) :
    item.state_onf = .regWait ∧ Stamped.Rested Timespec.ns gap.ns now (Powers n) h := by
  cases hready : item.tmr.ready with
  -- a timer that was not running starts now and cannot fire
  | false =>
    rw [tonTs_fired hgn hn (by simpa [hready] using hn)] at ht
    simp only [hready, Bool.false_eq_true, ↓reduceIte] at ht
    omega
  | true =>
    obtain ⟨ho, hnorm, -, hp⟩ := hi.armed hst hready
    rw [tonTs_fired hgn hn (by simpa [hready] using hnorm)] at ht
    simp only [hready, ↓reduceIte] at ht
    refine ⟨ho, fun m hm hpm => ?_⟩
    have := hp n hr m hm hpm
    omega

section control
variable [LT R] [DecidableLT R] [Add R] [Sub R]

/-- The step does not let `REG_INIT` choose a mechanism whose counterpart was powered within the
gap, and no reading of `REG_WAIT` asks at once to leave the mechanism and to switch it on
(the latter takes a negative delta). -/
def KeepsGap [BEq R] (item : RegOnfHC R) (now : Timespec) (h : List (Timespec × Request R)) :
    Input R → Prop
  | .op _ => True
  | .control inp =>
    let read := (readSensor ⟨item, []⟩ inp.snsr).item
    inp.snsr.fts?.isSome = true →
      (item.state = .regInit → (greenLightIsGreen ⟨item, []⟩ inp.green).1 = true →
        ∀ n, initChoice read = some n →
          Stamped.Rested Timespec.ns item.change_gap.ns now (Powers n.other) h) ∧
      (item.state = .regBusy → item.state_onf = .regWait → ∀ n : EMName,
        item.state_r = n.state → valIsOut read n = true → (item.em n.other).use = true →
        (tonTs item.change_gap item.tmr now now).1 = false → valIsLow read n = false)

theorem busyOnf_out {item : RegOnfHC R} {n : EMName}
    (ho : item.state_onf = .regDo ∨ item.state_onf = .regWait)
    (hv : valIsOut item n = true) (hl : item.state_onf = .regWait → valIsLow item n = false) :
    (busyOnf item n).state_onf = .regWait := by
  rcases ho with ho | ho
  · simp only [busyOnf, ho, hv, ↓reduceIte]
  · rw [(busyOnf_wait n ho).2, hl ho]
    simp

/-- A `REG_BUSY` step with a reading; `w` is the regulator after the reading. -/
theorem busy_gap {gap now : Timespec} {w : Wire R} {h : List (Timespec × Request R)}
    {n m : EMName} {inp : ControlInput R} (hi : GapInv gap w.item now h)
    (hs : ∀ k, Stamped.Idle (Powers k) w.sent) (hn : now.Normalised) (hgn : gap.Normalised)
    (hg : 0 ≤ gap.ns) (hst : w.item.state = .regBusy) (hr : w.item.state_r = n.state)
    (ho : w.item.state_onf = .regDo ∨ w.item.state_onf = .regWait)
    (hf : inp.gapFirst = now) (hl : inp.gapNow = now)
    (hm : (busyChange w n inp).item.state_r = m.state)
    (hk : w.item.state_onf = .regWait → valIsOut w.item n = true →
      (w.item.em n.other).use = true → (tonTs gap w.item.tmr now now).1 = false →
      valIsLow w.item n = false) :
    GapInv gap (busyDrive (busyChange w n inp) m).item now
      (h ++ (busyDrive (busyChange w n inp) m).sent.map (Prod.mk now)) := by
  have hs₂ : ∀ k, Stamped.Idle (Powers k) (busyChange w n inp).sent :=
    fun k => unpowered_change n inp (hs k)
  have hother : Stamped.Idle (Powers m.other) (busyDrive (busyChange w n inp) m).sent :=
    unpowered_drive (hs₂ m.other) fun he => absurd he (EMName.other_ne m)
  have hc : (busyDrive (busyChange w n inp) m).item.change_gap = gap := by
    simpa using hi.change_gap
  have hr' : (busyDrive (busyChange w n inp) m).item.state_r = m.state := by simpa using hm
  have hthr : valIsOut (busyChange w n inp).item n = valIsOut w.item n ∧
      valIsLow (busyChange w n inp).item n = valIsLow w.item n :=
    thresholds_congr (by simp) (by simp) (by simp) n
  have hcases := busyChange_cases w n inp
  simp only [hf, hl, hi.change_gap] at hcases
  rcases hcases with ⟨-, -, ht, he⟩ | ⟨hv, hu, ht, he⟩ | ⟨-, he⟩
  · obtain rfl : m = n.other := EMName.state_inj.mp (by rw [← hm, he]; simp)
    obtain ⟨-, hq⟩ := hi.fired hn hgn hg hst hr ht
    apply hi.drive hc hr' hother (by simpa using hq)
    intro hready
    have hfalse := tonTs_fired_ready ht
    simp [he, hfalse] at hready
  · obtain rfl : m = n := EMName.state_inj.mp (by rw [← hm, he]; simp [hr])
    apply hi.drive hc hr' hother (hi.rested hst m hr)
    intro _
    have htmr : (busyDrive (busyChange w m inp) m).item.tmr =
        ⟨if w.item.tmr.ready then w.item.tmr.start else now, true⟩ := by
      rw [← tonTs_waiting ht]
      simp [he]
    have honf : (busyDrive (busyChange w m inp) m).item.state_onf = .regWait := by
      rw [(busyDrive_frame _ m).2.2.2.2.2.2.2.1]
      apply busyOnf_out (by simpa using ho) (hthr.1.trans hv)
      intro hw
      exact hthr.2.trans (hk (by simpa using hw) hv hu ht)
    rw [htmr]
    cases hready : w.item.tmr.ready with
    | false =>
      simp only [Bool.false_eq_true, ↓reduceIte]
      exact ⟨honf, hn, le_rfl, fun r hr _ => Stamped.past_append hi.past le_rfl _ r hr⟩
    | true =>
      -- the timer was running, so `m` is off already and the step does not switch it on
      obtain ⟨hwait, hnorm, hle, hp⟩ := hi.armed hst hready
      have hm' : Stamped.Idle (Powers m) (busyDrive (busyChange w m inp) m).sent :=
        unpowered_drive (hs₂ m) fun _ => (busyOnf_wait m (by simpa using hwait)).1
      simp only [↓reduceIte]
      exact ⟨honf, hnorm, hle, Stamped.bounded_append (hp m hr) (Or.inl hm')⟩
  · obtain rfl : m = n := EMName.state_inj.mp (by rw [← hm, he]; simp [hr])
    apply hi.drive hc hr' hother (hi.rested hst m hr)
    intro hready
    simp [he] at hready

variable [BEq R]

omit [Add R] [Sub R] in
/-- What the end of `REG_INIT` chooses from, and what it does to the timer. -/
theorem controlInitDone_gap (item : RegOnfHC R) (inp : ControlInput R) :
    let w := readSensor (greenLightIsGreen ⟨item, []⟩ inp.green).2 inp.snsr
    initChoice (initReset w).item = initChoice (readSensor ⟨item, []⟩ inp.snsr).item ∧
      (controlInitDone w).item.tmr.ready = false ∧
      (controlInitDone w).item.change_gap = item.change_gap := by
  intro w
  have hgreen := greenLightIsGreen_item (⟨item, []⟩ : Wire R) inp.green
  have hw : ∀ n, (w.item.em n).use = (item.em n).use := fun n => by
    simp only [w, readSensor_em]
    rw [hgreen]
    cases n <;> rfl
  refine ⟨initChoice_congr ?_ ?_ fun n => ?_, ?_, ?_⟩
  · simp only [initReset, Wire.upd_item, controlEM_frame, w, readSensor]
    rw [hgreen]
  · simp only [initReset, Wire.upd_item, controlEM_frame, w, readSensor]
    rw [hgreen]
  · rw [initReset_use, hw, readSensor_em]
  · unfold controlInitDone
    dsimp only
    split <;> simp [initReset]
  · have hc : w.item.change_gap = item.change_gap := by
      simp only [w, readSensor]
      rw [hgreen]
    rw [← hc]
    unfold controlInitDone
    dsimp only
    split <;> simp [initReset]

/-- A step that neither ends `REG_INIT` nor regulates. -/
theorem control_unpowered (item : RegOnfHC R) {v : Wire R} {inp : ControlInput R}
    (hu : Unsecured item) (hw : regonfhcControl ⟨item, []⟩ inp = some v)
    (hi : item.state = .regInit → v.item.state = .regInit)
    (hb : item.state = .regBusy → inp.snsr.fts?.isSome = false) :
    (∀ n, Stamped.Idle (Powers n) v.sent) ∧ v.item.change_gap = item.change_gap ∧
      (v.item.state = .regBusy → item.state = .regBusy ∧ v.item.state_r = item.state_r ∧
        v.item.state_onf = item.state_onf ∧ v.item.tmr = item.tmr ∧
        v.item.output = item.output) := by
  cases control_cases hw with
  | init hst =>
    refine ⟨fun n => unpowered_init inp Stamped.Idle.nil, ?_, fun h => ?_⟩
    · rcases controlInit_cases ⟨item, []⟩ inp with ⟨g, s, he⟩ | ⟨-, -, he⟩
      · rw [he]
      · rw [he]
        exact (controlInitDone_gap item inp).2.2
    · exact absurd ((hi hst).symm.trans h) (by decide)
  | busy hst hok => exact absurd (hok.symm.trans (hb hst)) (by decide)
  | failed hst =>
    refine ⟨fun k => unpowered_failed (Stamped.Idle.nil.append (unpowered_getFTS _ _)), ?_,
      fun h => ?_⟩
    · unfold busyFailed
      dsimp only
      split_ifs <;> simp
    · unfold busyFailed at h ⊢
      dsimp only at h ⊢
      split_ifs at h ⊢
      · simp at h
      · exact ⟨hst, rfl, rfl, rfl, rfl⟩
  -- the only state whose outputs are not 0, and it is not entered
  | secure hst => exact absurd hst hu.2
  | disable =>
    refine ⟨fun k => ?_, by simp [controlDisable], fun h => by simp [controlDisable] at h⟩
    exact unpowered_zero .cooler (unpowered_zero .heater Stamped.Idle.nil)
  | off => exact ⟨fun _ => Stamped.Idle.nil, rfl, fun h => ⟨h, rfl, rfl, rfl, rfl⟩⟩
  | other => exact ⟨fun _ => Stamped.Idle.nil, rfl, fun h => absurd h (by simp)⟩

/-- The end of `REG_INIT` chooses a mechanism only when the condition lets it. -/
theorem init_gap {gap now now' : Timespec} {item : RegOnfHC R}
    {h : List (Timespec × Request R)} {inp : ControlInput R} (hi : GapInv gap item now h)
    (hle : now.ns ≤ now'.ns) (hst : item.state = .regInit)
    (hk : KeepsGap item now' h (.control inp)) :
    GapInv gap (controlInit ⟨item, []⟩ inp).item now'
      (h ++ (controlInit ⟨item, []⟩ inp).sent.map (Prod.mk now')) := by
  have hs : ∀ k, Stamped.Idle (Powers k) (controlInit ⟨item, []⟩ inp).sent :=
    fun k => unpowered_init inp Stamped.Idle.nil
  rcases controlInit_cases ⟨item, []⟩ inp with ⟨g, s, he⟩ | ⟨hgreen, hok, he⟩
  · apply hi.idle hle (by rw [he]) hs
    intro hb
    rw [he] at hb
    exact absurd (hst.symm.trans hb) (by decide)
  · obtain ⟨hch, hready, hc⟩ := controlInitDone_gap item inp
    rw [← he] at hready hc
    rcases controlInitDone_spec (readSensor (greenLightIsGreen ⟨item, []⟩ inp.green).2
      inp.snsr) with ⟨n, hn, -, hr, -⟩ | hd
    · -- `n` is chosen: the condition says that the other one has rested
      rw [← he] at hr
      have hq := (hk hok).1 hst hgreen n (hch.symm.trans hn)
      rw [hi.change_gap] at hq
      have hi' : GapInv gap item now' h :=
        hi.later hle rfl fun hb => absurd (hst.symm.trans hb) (by decide)
      exact hi'.drive (hc.trans hi.change_gap) hr (hs n.other) hq fun ht =>
        absurd (hready.symm.trans ht) (by decide)
    · apply hi.idle hle hc hs
      intro hb
      rw [he, hd] at hb
      exact absurd hb (by decide)

theorem control_gap {gap now now' : Timespec} {item : RegOnfHC R} {w' : Wire R}
    {h : List (Timespec × Request R)} {inp : ControlInput R} (hm : NamesEM item)
    (hu : Unsecured item) (hi : GapInv gap item now h) (hle : now.ns ≤ now'.ns)
    (hn : now'.Normalised) (hgn : gap.Normalised) (hg : 0 ≤ gap.ns)
    (hf : inp.gapFirst = now') (hl : inp.gapNow = now')
    (hk : KeepsGap item now' h (.control inp))
    (hw : regonfhcControl ⟨item, []⟩ inp = some w') :
    GapInv gap w'.item now' (h ++ w'.sent.map (Prod.mk now')) := by
  have hidle (hinit : item.state = .regInit → w'.item.state = .regInit)
      (hbusy : item.state = .regBusy → inp.snsr.fts?.isSome = false) :
      GapInv gap w'.item now' (h ++ w'.sent.map (Prod.mk now')) := by
    obtain ⟨hs, hc, hb⟩ := control_unpowered item hu hw hinit hbusy
    refine hi.idle hle hc hs fun hst => ?_
    obtain ⟨h₁, h₂, h₃, h₄, -⟩ := hb hst
    exact ⟨h₁, h₂, h₃, h₄⟩
  cases control_cases hw with
  | init hst => exact init_gap hi hle hst hk
  | @busy n m w₁ hst hok hr hw₁ hr₁ _ =>
    have hst : item.state = .regBusy := hst
    have ho := (hm (Or.inl hst)).2
    have ha : (busyDrive (busyChange w₁ n inp) m).item.secure_out.active = false := by
      simpa [hw₁] using hu.1
    have hs : ∀ k, Stamped.Idle (Powers k) w₁.sent := fun k => by
      rw [hw₁]
      exact Stamped.Idle.nil.append (unpowered_getFTS _ _)
    have hi₁ : GapInv gap w₁.item now' h :=
      hi.later hle (by simp [hw₁]) fun _ => ⟨hst, by simp [hw₁]⟩
    rw [busySecure_inactive ha]
    refine busy_gap hi₁ hs hn hgn hg (by simp [hw₁, hst]) (by simpa [hw₁] using hr)
      (by simpa [hw₁] using ho) hf hl hr₁ ?_
    -- the condition is about the reading, which `w₁` holds
    intro ho' hv hu' ht
    have hthr : valIsOut w₁.item n = valIsOut (readSensor ⟨item, []⟩ inp.snsr).item n ∧
        valIsLow w₁.item n = valIsLow (readSensor ⟨item, []⟩ inp.snsr).item n :=
      thresholds_congr (by rw [hw₁]; rfl) (by rw [hw₁]; rfl)
        (fun k => by rw [hw₁]; cases k <;> rfl) n
    rw [hthr.2]
    refine (hk hok).2 hst (by simpa [hw₁] using ho') n hr (hthr.1.symm.trans hv) ?_ ?_
    · rw [hw₁] at hu'
      cases n <;> exact hu'
    · rw [hi.change_gap]
      simpa [hw₁] using ht
  -- no other step powers anything
  | failed hst hno => exact hidle (fun h => absurd (hst.symm.trans h) (by decide)) fun _ => hno
  | secure hst => exact absurd hst hu.2
  | disable hst =>
    exact hidle (fun h => absurd (hst.symm.trans h) (by decide))
      fun h => absurd (hst.symm.trans h) (by decide)
  | off hst =>
    exact hidle (fun h => absurd (hst.symm.trans h) (by decide))
      fun h => absurd (hst.symm.trans h) (by decide)
  | other hst => exact hidle (fun h => absurd hst (by simp [h])) fun h => absurd hst (by simp [h])

/-- An input of a run on a clock: no manual power, no change of the gap, and one reading of the
clock in a control step. -/
structure Clocked (i : Timespec × Input R) : Prop where
  automatic : i.2.automatic = true
  gap : ∀ v, i.2 ≠ .op (.setChangeGap v)
  normalised : i.1.Normalised
  reading : ∀ inp, i.2 = .control inp → inp.gapFirst = i.1 ∧ inp.gapNow = i.1

theorem step_gap {gap now : Timespec} {item item' : RegOnfHC R} {i : Timespec × Input R}
    {h : List (Timespec × Request R)} {out : List (Request R)} (hm : NamesEM item)
    (hu : Unsecured item) (hi : GapInv gap item now h) (hle : now.ns ≤ i.1.ns)
    (hc : Clocked i) (hgn : gap.Normalised) (hg : 0 ≤ gap.ns) (hk : KeepsGap item i.1 h i.2)
    (hs : step item i.2 = some (item', out)) :
    GapInv gap item' i.1 (h ++ out.map (Prod.mk i.1)) := by
  obtain ⟨now', i⟩ := i
  cases i with
  | control inp =>
    rw [step, Option.map_eq_some_iff] at hs
    obtain ⟨w, hw, hwe⟩ := hs
    cases hwe
    obtain ⟨hf, hl⟩ := hc.reading inp rfl
    exact control_gap hm hu hi hle hc.normalised hgn hg hf hl hk hw
  | op o =>
    cases hs
    exact hi.idle hle (op_change_gap ⟨item, []⟩ fun v he => hc.gap v (congrArg _ he))
      (fun k => unpowered_op (w := ⟨item, []⟩) hc.automatic Stamped.Idle.nil)
      (op_busy (w := ⟨item, []⟩))

/-- In a run on a clock that does not go back, without manual power, with the watchdog off and
the gap fixed, the gap is kept between powering one mechanism and powering the other, as long
as every step meets `KeepsGap`. -/
theorem change_gap_respected {item : RegOnfHC R} {t : RegOnfHC R × Timespec}
    {t₀ : Timespec} {out : List (Timespec × Request R)} {is : List (Timespec × Input R)}
    (hl : Loaded item) (ha : item.secure_out.active = false)
    (hgn : item.change_gap.Normalised) (hg : 0 ≤ item.change_gap.ns)
    (hclock : (t₀ :: is.map Prod.fst).IsChain fun a b => a.ns ≤ b.ns)
    (hin : ∀ i ∈ is, Clocked i)
    (hk : Controller.Along (Controller.timed step) (fun s h i => KeepsGap s.1 i.1 h i.2)
      (item, t₀) [] is)
    (hr : Controller.run (Controller.timed step) (item, t₀) is = some (t, out)) :
    GapRespected item.change_gap out := by
  have hle : Controller.Along (Controller.timed step) (fun s _ i => s.2.ns ≤ i.1.ns)
      (item, t₀) [] is := Controller.along_timed hclock
  have hc := Controller.along_and hle (Controller.along_and hk
    (Controller.along_of_forall_mem (C := fun _ _ i => Clocked i) (fun i hi _ _ => hin i hi) _ _))
  have h₀ : NamesEM item ∧ Unsecured item ∧ GapInv item.change_gap item t₀ [] := by
    have hb : item.state ≠ .regBusy := by rcases hl.state with h | h <;> simp [h]
    exact ⟨NamesEM.of_not hl.not_regulating, hl.unsecured ha, rfl, List.Pairwise.nil,
      fun _ hm => absurd hm List.not_mem_nil, fun h => absurd h hb, fun h => absurd h hb⟩
  have hi := Controller.run_invariant_along (I := fun s h => NamesEM s.1 ∧ Unsecured s.1 ∧
    GapInv item.change_gap s.1 s.2 h) ?_ h₀ hc hr
  · exact hi.2.2.respected
  · rintro ⟨s, now⟩ h i ⟨s', now'⟩ o ⟨hm, hu, hi⟩ ⟨hle, hk, hc⟩ hs
    obtain ⟨out, hs₁, rfl, rfl⟩ := Controller.timed_some.mp hs
    exact ⟨step_names hm hs₁, step_unsecured hu hs₁,
      step_gap hm hu hi hle hc hgn hg hk hs₁⟩

end control

/-- With deltas that are not negative no reading asks at once to leave the mechanism and to
switch it on. -/
theorem thresholds_disjoint {R : Type*} [AddCommGroup R] [LinearOrder R] [IsOrderedAddMonoid R]
    {item : RegOnfHC R} {n : EMName} (hd : 0 ≤ (item.em n).delta)
    (hv : valIsOut item n = true) : valIsLow item n = false := by
  cases n with
  | heater =>
    simp only [valIsOut, valIsLow, decide_eq_true_eq, decide_eq_false_iff_not, not_lt,
      RegOnfHC.em] at *
    calc item.goal - item.heater.delta ≤ item.goal := sub_le_self _ hd
      _ ≤ item.goal + item.heater.delta := le_add_of_nonneg_right hd
      _ ≤ item.sensor.value.value := hv.le
  | cooler =>
    simp only [valIsOut, valIsLow, decide_eq_true_eq, decide_eq_false_iff_not, not_lt,
      RegOnfHC.em] at *
    calc item.sensor.value.value ≤ item.goal - item.cooler.delta := hv.le
      _ ≤ item.goal := sub_le_self _ hd
      _ ≤ item.goal + item.cooler.delta := le_add_of_nonneg_right hd

/-- With such deltas a step that does not leave `REG_INIT` meets the condition. -/
theorem keepsGap_of_delta {R : Type*} [AddCommGroup R] [LinearOrder R] [IsOrderedAddMonoid R]
    {item : RegOnfHC R} {now : Timespec} {h : List (Timespec × Request R)} {i : Input R}
    (hs : item.state ≠ .regInit) (hh : 0 ≤ item.heater.delta) (hc : 0 ≤ item.cooler.delta) :
    KeepsGap item now h i := by
  cases i with
  | op o => trivial
  | control inp =>
    refine fun _ => ⟨fun hi => absurd hi hs, fun _ _ n _ hv _ _ => ?_⟩
    exact thresholds_disjoint (by rw [readSensor_em]; cases n <;> assumption) hv

theorem exampleControl_clocked (sec : ℤ) (value : Option ℤ) :
    Clocked (⟨sec, 0⟩, exampleControl sec value) :=
  ⟨rfl, nofun, ⟨le_rfl, show (0 : ℤ) < 1000000000 by decide⟩,
    fun inp h => by cases h; exact ⟨rfl, rfl⟩⟩

/-- A heater that was on is left after the gap: the cooler is on at 1901 seconds. -/
theorem change_gap_respected_example :
    let is : List (Timespec × Input ℤ) :=
      [(⟨0, 0⟩, exampleControl 0 (some 240)), (⟨1, 0⟩, exampleControl 1 (some 240)),
        (⟨2, 0⟩, exampleControl 2 (some 240)), (⟨3, 0⟩, exampleControl 3 (some 260)),
        (⟨1900, 0⟩, exampleControl 1900 (some 260)), (⟨1901, 0⟩, exampleControl 1901 (some 260))]
    ∃ t out, Controller.run (Controller.timed step) (exampleProg, ⟨0, 0⟩) is = some (t, out) ∧
      commanded .cooler (out.map Prod.snd) = 1000 ∧ GapRespected exampleProg.change_gap out := by
  intro is
  have hr : Controller.run (Controller.timed step) (exampleProg, ⟨0, 0⟩) is = some (_, _) := rfl
  have hin : ∀ i ∈ is, Clocked i := by
    simp only [is, List.forall_mem_cons, List.not_mem_nil, false_implies, implies_true, and_true]
    exact ⟨exampleControl_clocked _ _, exampleControl_clocked _ _, exampleControl_clocked _ _,
      exampleControl_clocked _ _, exampleControl_clocked _ _, exampleControl_clocked _ _⟩
  have hk : Controller.Along (Controller.timed step) (fun s h i => KeepsGap s.1 i.1 h i.2)
      (exampleProg, ⟨0, 0⟩) [] is := by
    refine Controller.along_cons rfl (fun _ => ⟨fun _ _ _ _ _ hm => ?_, fun hb => ?_⟩) ?_
    · exact absurd hm List.not_mem_nil
    · cases hb
    -- the program is in `REG_BUSY` from here on
    refine Controller.along_cons rfl (keepsGap_of_delta (by decide) (by decide) (by decide)) ?_
    refine Controller.along_cons rfl (keepsGap_of_delta (by decide) (by decide) (by decide)) ?_
    refine Controller.along_cons rfl (keepsGap_of_delta (by decide) (by decide) (by decide)) ?_
    refine Controller.along_cons rfl (keepsGap_of_delta (by decide) (by decide) (by decide)) ?_
    exact Controller.along_cons rfl (keepsGap_of_delta (by decide) (by decide) (by decide)) trivial
  exact ⟨_, _, hr, rfl, change_gap_respected exampleProg_loaded rfl (by decide) (by decide)
    (by decide) hin hk hr⟩

/-- The heater is on at 2 seconds; its delta is set, and the end of `REG_INIT` chooses the
cooler, which is on at 6 seconds with a gap of 1800. -/
theorem init_ignores_gap :
    let is : List (Timespec × Input ℤ) :=
      [(⟨0, 0⟩, exampleControl 0 (some 240)), (⟨1, 0⟩, exampleControl 1 (some 240)),
        (⟨2, 0⟩, exampleControl 2 (some 240)), (⟨3, 0⟩, .op (.setHeaterDelta 5)),
        (⟨4, 0⟩, exampleControl 4 (some 260)), (⟨5, 0⟩, exampleControl 5 (some 260)),
        (⟨6, 0⟩, exampleControl 6 (some 260))]
    Loaded exampleProg ∧ exampleProg.secure_out.active = false ∧
      exampleProg.change_gap.Normalised ∧ 0 ≤ exampleProg.change_gap.ns ∧
      ((⟨0, 0⟩ :: is.map Prod.fst).IsChain fun a b => a.ns ≤ b.ns) ∧ (∀ i ∈ is, Clocked i) ∧
      ∃ t out, Controller.run (Controller.timed step) (exampleProg, ⟨0, 0⟩) is =
        some (t, out) ∧ ¬GapRespected exampleProg.change_gap out := by
  intro is
  let dst : SockAddr := ⟨0x7f000001, 49178⟩
  obtain ⟨t, out, hr, hsub⟩ : ∃ t out, Controller.run (Controller.timed step)
      (exampleProg, ⟨0, 0⟩) is = some (t, out) ∧
      List.Sublist [(⟨2, 0⟩, .setFloat .heater 1000 dst), (⟨6, 0⟩, .setFloat .cooler 1000 dst)]
        out :=
    ⟨_, _, rfl, by decide +kernel⟩
  refine ⟨exampleProg_loaded, rfl, by decide, by decide, by decide, ?_, t, out, hr, fun hg => ?_⟩
  · simp only [is, List.forall_mem_cons, List.not_mem_nil, false_implies, implies_true, and_true]
    exact ⟨exampleControl_clocked _ _, exampleControl_clocked _ _, exampleControl_clocked _ _,
      ⟨rfl, nofun, by decide, fun _ h => nomatch h⟩, exampleControl_clocked _ _,
      exampleControl_clocked _ _, exampleControl_clocked _ _⟩
  · have hh : Powers .heater (.setFloat .heater (1000 : ℤ) dst) := ⟨1000, dst, rfl, by decide⟩
    have hc : Powers .cooler (.setFloat .cooler (1000 : ℤ) dst) := ⟨1000, dst, rfl, by decide⟩
    exact absurd (hg.of_sublist hsub hh hc) (by decide)

end Regonf
