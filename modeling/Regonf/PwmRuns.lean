import Regonf.PwmPhase

/-! How long the phases of `pwmctl` are in a run with a constant duty cycle. -/
namespace Regonf.PWM

open Controller

/-- Every phase ends in the first call at which its length has passed since it began, up to 2 ns;
`began` is the reading at which the phase `state` began. -/
def RightPhases (length : ℤ → ℚ) : ℤ → Timespec → List (Timespec × ℤ) → Prop
  | _, _, [] => True
  | state, began, (now, out) :: calls =>
    out = state ∧ ((now.ns - began.ns : ℤ) : ℚ) < length state ∧
        RightPhases length state began calls ∨
      out = other state ∧ length state - 2 ≤ ((now.ns - began.ns : ℤ) : ℚ) ∧
        RightPhases length out now calls

variable {duty_cycle : ℤ} {item : PWM}

/-- The phases of a PWM have the right lengths in the run on these readings. -/
def RightRun (duty_cycle : ℤ) (item : PWM) (state : ℤ) (began : Timespec) (ts : List Timespec) :
    Prop :=
  ∃ t outs, run (ctl duty_cycle) item ts = some (t, outs) ∧ outs.length = ts.length ∧
    RightPhases (fun state => item.length (item.part duty_cycle state)) state began (ts.zip outs)

/-- One call, and the run from there on. -/
theorem rightRun_cons {state : ℤ} {began now : Timespec} {t : PWM} {ts : List Timespec}
    (hcall : item.pwmctl now duty_cycle = some (t, t.state)) (hperiod : t.period = item.period)
    (hrsl : t.rsl = item.rsl) :
    RightRun duty_cycle item state began (now :: ts) ↔
      (t.state = state ∧ ((now.ns - began.ns : ℤ) : ℚ) <
          item.length (item.part duty_cycle state) ∧ RightRun duty_cycle t state began ts) ∨
        t.state = other state ∧ item.length (item.part duty_cycle state) - 2 ≤
          ((now.ns - began.ns : ℤ) : ℚ) ∧ RightRun duty_cycle t t.state now ts := by
  have hstep : ctl duty_cycle item now = some (t, [t.state]) := by rw [ctl, hcall]; rfl
  simp only [RightRun, lengths_congr hperiod hrsl]
  constructor
  · rintro ⟨u, outs, hrun, hl, hphases⟩
    obtain ⟨t', o, rest, hs, hrest, rfl⟩ := run_cons_some.mp hrun
    rw [hstep] at hs
    cases hs
    have hl' : rest.length = ts.length := by simpa using hl
    -- the output of the call is the state that it leaves
    rcases hphases with ⟨hout, hlt, hgo⟩ | ⟨hout, hle, hgo⟩
    · exact .inl ⟨hout, hlt, u, rest, hrest, hl', hgo⟩
    · exact .inr ⟨hout, hle, u, rest, hrest, hl', hgo⟩
  · rintro (⟨hout, hlt, u, rest, hrest, hl, hgo⟩ | ⟨hout, hle, u, rest, hrest, hl, hgo⟩)
    · refine ⟨u, t.state :: rest, run_cons_some.mpr ⟨t, _, rest, hstep, hrest, rfl⟩, ?_, ?_⟩
      · rw [List.length_cons, List.length_cons, hl]
      · exact .inl ⟨hout, hlt, hgo⟩
    · refine ⟨u, t.state :: rest, run_cons_some.mpr ⟨t, _, rest, hstep, hrest, rfl⟩, ?_, ?_⟩
      · rw [List.length_cons, List.length_cons, hl]
      · exact .inr ⟨hout, hle, hgo⟩

section Call

variable {state : ℤ} {began now : Timespec} {t : PWM} {ts : List Timespec}
  (hcall : item.pwmctl now duty_cycle = some (t, t.state)) (hperiod : t.period = item.period)
  (hrsl : t.rsl = item.rsl) (h : RightRun duty_cycle item state began (now :: ts))
include hcall hperiod hrsl h

/-- A call that goes on. -/
theorem rightRun_same (hs : t.state = state) : RightRun duty_cycle t state began ts := by
  rcases (rightRun_cons hcall hperiod hrsl).mp h with ⟨-, -, hgo⟩ | ⟨hother, -⟩
  · exact hgo
  · exact absurd (hother.symm.trans hs) (other_ne state)

/-- A call that ends the phase. -/
theorem rightRun_other (hs : t.state = other state) :
    item.length (item.part duty_cycle state) - 2 ≤ ((now.ns - began.ns : ℤ) : ℚ) ∧
      RightRun duty_cycle t t.state now ts := by
  rcases (rightRun_cons hcall hperiod hrsl).mp h with ⟨hsame, -⟩ | ⟨-, hle, hgo⟩
  · exact absurd (hs.symm.trans hsame) (other_ne state)
  · exact ⟨hle, hgo⟩

end Call

theorem rightRun_nil (duty_cycle : ℤ) (item : PWM) (state : ℤ) (began : Timespec) :
    RightRun duty_cycle item state began [] := ⟨item, [], rfl, rfl, trivial⟩

/-- The run begins as one from the state that the first call sets up. -/
theorem rightRun_init (hsec : 0 < item.period.tv_sec) {state : ℤ} {began now : Timespec}
    {ts : List Timespec} : RightRun duty_cycle item state began (now :: ts) ↔
      RightRun duty_cycle (item.init now) state began (now :: ts) := by
  have hstep : ctl duty_cycle item now = ctl duty_cycle (item.init now) now := by
    rw [ctl, ctl, pwmctl_init hsec]
  unfold RightRun
  rw [run, run, hstep, lengths_congr (init_period now item) (init_rsl now item)]

/-- Within the limits every run has the right phases. -/
theorem rightRun_of_fits (hp : Params duty_cycle item) (hr : Running item)
    (hfit : ∀ state, item.Fits (item.part duty_cycle state)) {ts : List Timespec}
    (hts : ∀ now ∈ ts, now.Normalised) :
    RightRun duty_cycle item item.state item.start_time ts := by
  induction ts generalizing item with
  | nil => exact rightRun_nil _ _ _ _
  | cons now ts ih =>
    have hnow : now.Normalised := hts now List.mem_cons_self
    obtain ⟨t, ht, hcall, hperiod, hrsl, hr'⟩ := pwmctl_next hp hr hnow (hfit item.state).1
    -- a call changes neither the period nor `rsl`, so that the limits hold on
    have hrest : RightRun duty_cycle t t.state t.start_time ts := by
      refine ih (hp.congr hperiod hrsl) hr' (fun state => ?_)
        fun now hmem => hts now (List.mem_cons_of_mem _ hmem)
      rw [fits_congr hperiod hrsl, part_congr hrsl]
      exact hfit state
    rw [rightRun_cons hcall hperiod hrsl]
    rcases next_right hp hr hnow (hfit item.state) with ⟨hs, hstart, hlt⟩ | ⟨hs, hstart, hle⟩
    · rw [← ht] at hs hstart
      rw [hs, hstart] at hrest
      exact .inl ⟨hs, hlt, hrest⟩
    · rw [← ht] at hs hstart
      rw [hstart] at hrest
      exact .inr ⟨hs, hle, hrest⟩

/-- Every run from a state between two calls has the right phases. -/
def RightFrom (duty_cycle : ℤ) (item : PWM) : Prop :=
  ∀ ts : List Timespec, (∀ now ∈ ts, now.Normalised) →
    (item.start_time :: ts).IsChain (fun a b => a.ns ≤ b.ns) →
    RightRun duty_cycle item item.state item.start_time ts

/-- A run that is right is defined. -/
theorem lt_of_rightRun (hp : Params duty_cycle item) (hr : Running item) {began now : Timespec}
    {state : ℤ} {ts : List Timespec} (h : RightRun duty_cycle item state began (now :: ts)) :
    item.part duty_cycle item.state * item.period.tv_sec < 2 ^ 63 := by
  by_contra hover
  obtain ⟨t, outs, hrun, -⟩ := h
  obtain ⟨s, o, rest, hs, -⟩ := run_cons_some.mp hrun
  rw [ctl, pwmctl_running hp hr, timeReq_none (not_lt.mp hover)] at hs
  exact absurd hs (by simp)

/-- A call in the second after the whole seconds of a phase ends it, and the runs from there are
right as well. -/
theorem RightFrom.next_second (hp : Params duty_cycle item) (hr : Running item)
    (h : RightFrom duty_cycle item) : item.Fits (item.part duty_cycle item.state) ∧
      ∃ t, Params duty_cycle t ∧ Running t ∧ RightFrom duty_cycle t ∧ t.state = other item.state ∧
        t.period = item.period ∧ t.rsl = item.rsl := by
  obtain ⟨hpos, hlt⟩ := hp.part_mem item.state
  have hm : 0 < item.rsl.toNat := by omega
  set part := item.part duty_cycle item.state with hpart
  have hnormal := hr.secondAfter part
  have he := secondAfter_ns item part
  have hchain : item.start_time.ns ≤ (item.secondAfter part).ns := by
    have hq : 0 ≤ (item.required part).tv_sec :=
      Int.ediv_nonneg (mul_nonneg hpos.le (by linarith [hp.sec])) (Int.natCast_nonneg _)
    omega
  have hall (ts : List Timespec) (hts : ∀ t ∈ ts, t.Normalised)
      (hc : (item.secondAfter part :: ts).IsChain fun a b => a.ns ≤ b.ns) :
      RightRun duty_cycle item item.state item.start_time (item.secondAfter part :: ts) := by
    apply h _ (List.forall_mem_cons.mpr ⟨hnormal, hts⟩)
    exact List.isChain_cons_cons.mpr ⟨hchain, hc⟩
  have honly := hall [] (by simp) (List.isChain_singleton _)
  have hover := lt_of_rightRun hp hr honly
  obtain ⟨t, ht, hcall, hperiod, hrsl, hr'⟩ := pwmctl_next hp hr hnormal hover
  rw [next, if_pos (ends_secondAfter hr part)] at ht
  have hs : t.state = other item.state := by rw [ht]
  have hstart : t.start_time = item.secondAfter part := by rw [ht]
  -- the call comes a second after the whole seconds, which is not too soon
  obtain ⟨hle, -⟩ := rightRun_other hcall hperiod hrsl honly hs
  rw [length_sub_le_iff hm, he] at hle
  refine ⟨⟨hover, fits_of_next_second hle⟩, t, hp.congr hperiod hrsl, hr', ?_, hs, hperiod, hrsl⟩
  intro ts hts hc
  rw [hstart] at hc ⊢
  exact (rightRun_other hcall hperiod hrsl (hall ts hts hc) hs).2

/-- The runs from an idle phase show the limit of that phase. -/
theorem RightFrom.fits_idle {t : PWM} (hp : Params duty_cycle t) (hr : Running t)
    (h : RightFrom duty_cycle t) (hidle : t.state = other PWM_BUSY)
    (hperiod : t.period = item.period) (hrsl : t.rsl = item.rsl) :
    item.Fits (item.rsl.toNat - duty_cycle) := by
  obtain ⟨hfit, -⟩ := h.next_second hp hr
  have hne : t.state ≠ PWM_BUSY := by
    rw [hidle]
    exact other_ne PWM_BUSY
  rw [fits_congr hperiod hrsl, part_congr hrsl, part, if_neg hne] at hfit
  exact hfit

/-- The runs that begin with a call at the beginning of a busy phase show both limits. -/
theorem fits_of_rightRun (hp : Params duty_cycle item) (hr : Running item)
    (hstate : item.state = PWM_BUSY)
    (h : ∀ ts : List Timespec, (∀ now ∈ ts, now.Normalised) →
      (item.start_time :: ts).IsChain (fun a b => a.ns ≤ b.ns) →
      RightRun duty_cycle item PWM_BUSY item.start_time (item.start_time :: ts)) :
    item.Fits duty_cycle ∧ item.Fits (item.rsl.toNat - duty_cycle) := by
  have hbusy : item.part duty_cycle item.state = duty_cycle := if_pos hstate
  have hm : 0 < item.rsl.toNat := by
    obtain ⟨hpos, hlt⟩ := hp.part_mem item.state
    omega
  have honly := h [] (by simp) (List.isChain_singleton _)
  have hover := lt_of_rightRun hp hr honly
  obtain ⟨t, ht, hcall, hperiod, hrsl, hr'⟩ := pwmctl_next hp hr hr.start hover
  rw [hbusy] at ht hover
  by_cases hends : ends (item.required duty_cycle) (timespecsub item.start_time item.start_time)
  · -- the busy phase is over at once, so that it is at most 2 ns long
    rw [next, if_pos hends, hstate] at ht
    have hs : t.state = other PWM_BUSY := by rw [ht]
    have hstart : t.start_time = item.start_time := by rw [ht]
    obtain ⟨hle, -⟩ := rightRun_other hcall hperiod hrsl honly hs
    rw [length_sub_le_iff hm, sub_self] at hle
    have hq : 0 ≤ duty_cycle * item.period.tv_sec / item.rsl.toNat :=
      Int.ediv_nonneg (mul_nonneg hp.pos.le (by linarith [hp.sec])) (Int.natCast_nonneg _)
    have hroom : (0 + 2) * (item.rsl.toNat : ℤ) ≤
        ((duty_cycle * item.period.tv_sec / item.rsl.toNat + 1) * 1000000000 + 2) *
          item.rsl.toNat := mul_le_mul_of_nonneg_right (by omega) (Int.natCast_nonneg _)
    have hfrom : RightFrom duty_cycle t := by
      intro ts hts hc
      rw [hstart] at hc ⊢
      exact (rightRun_other hcall hperiod hrsl (h ts hts hc) hs).2
    exact ⟨⟨hover, fits_of_next_second (hle.trans hroom)⟩,
      hfrom.fits_idle (hp.congr hperiod hrsl) hr' hs hperiod hrsl⟩
  · -- the call changes nothing, and the phase ends in the second after its whole seconds
    have hsame : t = item := by rw [ht, next, if_neg hends]
    rw [hsame] at hcall
    have hfrom : RightFrom duty_cycle item := by
      intro ts hts hc
      have hgo := rightRun_same hcall rfl rfl (h ts hts hc) hstate
      rwa [hstate]
    obtain ⟨hfit, u, hp', hu, hfrom', hidle, hperiod', hrsl'⟩ := hfrom.next_second hp hr
    rw [hbusy] at hfit
    rw [hstate] at hidle
    exact ⟨hfit, hfrom'.fits_idle hp' hu hidle hperiod' hrsl'⟩

/-- With a constant duty cycle every phase has the right length, in all runs on readings that do not
go back, exactly if the rests of both phases are within a second and their products fit. -/
theorem pwmctl_phases_iff (hinit : item.initialized = false) (hp : Params duty_cycle item) :
    (∀ began ts, (∀ now ∈ began :: ts, now.Normalised) →
      (began :: ts).IsChain (fun a b => a.ns ≤ b.ns) →
      RightRun duty_cycle item PWM_BUSY began (began :: ts)) ↔
    item.Fits duty_cycle ∧ item.Fits (item.rsl.toNat - duty_cycle) := by
  have hsec : 0 < item.period.tv_sec := by
    have := hp.sec
    omega
  have hfirst (now : Timespec) : item.init now =
      { item with state := PWM_BUSY, start_time := now, initialized := true } := by
    rw [init, hinit, if_neg Bool.false_ne_true]
  have hparams (now : Timespec) : Params duty_cycle (item.init now) := by
    rw [hfirst]
    exact ⟨hp.sec, hp.nsec, hp.pos, hp.lt⟩
  have hrunning {now : Timespec} (hnow : now.Normalised) : Running (item.init now) :=
    init_running hnow hinit
  constructor
  · intro h
    have hzero : Timespec.Normalised ⟨0, 0⟩ := by decide
    -- runs that begin at the instant 0 are enough
    set first := item.init ⟨0, 0⟩ with hset
    have hall (ts : List Timespec) (hts : ∀ t ∈ ts, t.Normalised)
        (hc : (⟨0, 0⟩ :: ts : List Timespec).IsChain fun a b => a.ns ≤ b.ns) :
        RightRun duty_cycle first PWM_BUSY ⟨0, 0⟩ (⟨0, 0⟩ :: ts) := by
      rw [hset, ← rightRun_init hsec]
      exact h ⟨0, 0⟩ ts (List.forall_mem_cons.mpr ⟨hzero, hts⟩) hc
    have hstate : first.state = PWM_BUSY := by rw [hset, hfirst]
    have hstart : first.start_time = ⟨0, 0⟩ := by rw [hset, hfirst]
    have hfits := fits_of_rightRun (hparams _) (hrunning hzero) hstate (by rw [hstart]; exact hall)
    rwa [fits_congr (init_period _ _) (init_rsl _ _), fits_congr (init_period _ _) (init_rsl _ _),
      init_rsl] at hfits
  · rintro ⟨hbusy, hidle⟩ began ts hts -
    rw [rightRun_init hsec]
    have hright := rightRun_of_fits (hparams began) (hrunning (hts began List.mem_cons_self))
      (fun state => by
        rw [hfirst]
        dsimp only [Fits, part]
        split_ifs
        · exact hbusy
        · exact hidle) hts
    rw [hfirst] at hright ⊢
    exact hright

/-- A busy phase of 90/100 of 1.9 s is over after 1 s: its 1.71 s are compared as 0 s and more than
a second of nanoseconds. -/
theorem not_rightRun_carry :
    (∃ t, run (ctl 90) ⟨false, 0, 100, ⟨0, 0⟩, ⟨1, 900000000⟩⟩ [⟨0, 0⟩, ⟨1, 0⟩] =
      some (t, [PWM_BUSY, PWM_IDLE])) ∧
    length ⟨false, 0, 100, ⟨0, 0⟩, ⟨1, 900000000⟩⟩ 90 = 1710000000 ∧
    ¬RightRun 90 ⟨false, 0, 100, ⟨0, 0⟩, ⟨1, 900000000⟩⟩ PWM_BUSY ⟨0, 0⟩ [⟨0, 0⟩, ⟨1, 0⟩] := by
  have hrun : run (ctl 90) ⟨false, 0, 100, ⟨0, 0⟩, ⟨1, 900000000⟩⟩ [⟨0, 0⟩, ⟨1, 0⟩] =
      some (⟨true, PWM_IDLE, 100, ⟨1, 0⟩, ⟨1, 900000000⟩⟩, [PWM_BUSY, PWM_IDLE]) := by
    decide +kernel
  have hlen : length ⟨false, 0, 100, ⟨0, 0⟩, ⟨1, 900000000⟩⟩ 90 = 1710000000 := by
    have hrsl : (100 : UInt32).toNat = 100 := rfl
    norm_num [length, Timespec.ns, hrsl]
  refine ⟨⟨_, hrun⟩, hlen, ?_⟩
  rintro ⟨t, outs, hr, -, hphases⟩
  rw [hrun] at hr
  cases hr
  rcases hphases with ⟨-, -, ⟨hout, -⟩ | ⟨-, hle, -⟩⟩ | ⟨hout, -⟩
  · exact absurd hout (by decide)
  · have hshort : (1710000000 : ℚ) - 2 ≤ ((1000000000 : ℤ) : ℚ) := hlen ▸ hle
    norm_num at hshort
  · exact absurd hout (by decide)

/-- The theorem before the last for half of a period of 10 s. -/
theorem pwmctl_phases_half :
    (∀ began ts, (∀ now ∈ began :: ts, now.Normalised) →
      (began :: ts).IsChain (fun a b => a.ns ≤ b.ns) →
      RightRun 50 ⟨false, 0, 100, ⟨0, 0⟩, ⟨10, 0⟩⟩ PWM_BUSY began (began :: ts)) ↔
    Fits ⟨false, 0, 100, ⟨0, 0⟩, ⟨10, 0⟩⟩ 50 ∧ Fits ⟨false, 0, 100, ⟨0, 0⟩, ⟨10, 0⟩⟩ (100 - 50) :=
  pwmctl_phases_iff rfl ⟨by decide, by decide, by decide, by decide⟩

end Regonf.PWM
