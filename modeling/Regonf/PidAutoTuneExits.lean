import Mathlib.Algebra.Order.Field.Rat
import Mathlib.Tactic.NormNum
import Regonf.PidAutoTune

/-! The two exits of `pidAutoTune`, over exact numbers. The second one adds the nanoseconds between
the peaks to their seconds. -/
namespace Regonf

/-- The parameters are the same. -/
structure TuneResult.SameTuning {R : Type*} (r r' : TuneResult R) : Prop where
  Ku : r.pidAt.Ku = r'.pidAt.Ku
  Pu : r.pidAt.Pu = r'.pidAt.Pu
  kp : r.p.kp = r'.p.kp
  ki : r.p.ki = r'.p.ki
  kd : r.p.kd = r'.p.kd

namespace PIDAT

/-- What an exit computes the parameters of. -/
@[mk_iff]
structure SameOscillation {R : Type*} (s t : PIDAT R) : Prop where
  oStep : s.oStep = t.oStep
  absMax : s.absMax = t.absMax
  absMin : s.absMin = t.absMin
  peak1 : s.peak1 = t.peak1
  peak2 : s.peak2 = t.peak2

instance {R : Type*} [DecidableEq R] (s t : PIDAT R) : Decidable (SameOscillation s t) :=
  decidable_of_iff' _ (sameOscillation_iff s t)

section Exits
variable {R : Type*} [Add R] [Sub R] [Mul R] [Div R] [IntCast R] [LT R] [DecidableLT R]
  {int : R → ℤ} {s : PIDAT R} {p : PID R} {input output : R} {now : Timespec} {r : TuneResult R}

/-- More than nine peaks were counted. -/
def Counted (s : PIDAT R) : Prop := 9 < s.peakCount ∧ s.running = true

instance (s : PIDAT R) : Decidable s.Counted := inferInstanceAs (Decidable (_ ∧ _))

theorem pidAutoTune_counted (h : s.Counted)
    (hr : pidAutoTune int s p input output now = some r) :
    (r.pidAt, r.p) = { s with justevaled := false }.peakCountExit p := by
  have hexit : (decide (s.peakCount > 9) && s.running) = true := by
    rw [Bool.and_eq_true, decide_eq_true_eq]
    exact h
  unfold pidAutoTune at hr
  dsimp only at hr
  rw [if_pos hexit] at hr
  cases hr
  rfl

omit [Add R] in
theorem finish_true (h : s.finish int p output = some r) (hret : r.ret = true) :
    (r.pidAt, r.p) = s.convergenceExit p := by
  unfold finish at h
  obtain ⟨done, -, rfl⟩ := Option.map_eq_some_iff.mp h
  split_ifs at hret ⊢
  rfl

theorem sample_true (h : s.sample int p input output now = some r) (hret : r.ret = true) :
    ∃ t : PIDAT R, (r.pidAt, r.p) = t.convergenceExit p := by
  obtain ⟨t, -, hr⟩ := Option.bind_eq_some_iff.mp h
  by_cases hshort : t.nLookBack < 9
  · rw [if_pos hshort] at hr
    cases hr
    exact absurd hret Bool.false_ne_true
  · rw [if_neg hshort] at hr
    obtain ⟨u, -, hu⟩ := Option.bind_eq_some_iff.mp hr
    exact ⟨u, finish_true hu hret⟩

/-- Any other call that returns 1 has found that the peaks have converged. -/
theorem pidAutoTune_converged (h : ¬s.Counted)
    (hr : pidAutoTune int s p input output now = some r) (hret : r.ret = true) :
    ∃ t : PIDAT R, (r.pidAt, r.p) = t.convergenceExit p := by
  unfold pidAutoTune at hr
  dsimp only at hr
  split_ifs at hr with hexit hearly
  · rw [Bool.and_eq_true, decide_eq_true_eq] at hexit
    exact absurd hexit h
  · cases hr
    exact absurd hret Bool.false_ne_true
  · exact sample_true hr hret

omit [Add R] [LT R] [DecidableLT R] in
/-- What `Pu` is decides, in the same state, whether the parameters are the same. -/
theorem sameTuning_iff {t : PIDAT R} {q : PID R} {r' : TuneResult R} {Pu Pu' : R}
    (h : SameOscillation s t) (hr : (r.pidAt, r.p) = s.tuned Pu p)
    (hr' : (r'.pidAt, r'.p) = t.tuned Pu' q) : r.SameTuning r' ↔ Pu = Pu' := by
  obtain ⟨hs, hp⟩ := Prod.ext_iff.mp hr
  obtain ⟨ht, hq⟩ := Prod.ext_iff.mp hr'
  dsimp only at hs hp ht hq
  constructor
  · intro hsame
    have hPu := hsame.Pu
    rw [hs, ht] at hPu
    exact hPu
  · rintro rfl
    constructor
    · rw [hs, ht, tuned, tuned, h.oStep, h.absMax, h.absMin]
    · rw [hs, ht, tuned, tuned]
    · rw [hp, hq, tuned, tuned, h.oStep, h.absMax, h.absMin]
    · rw [hp, hq, tuned, tuned, h.oStep, h.absMax, h.absMin]
    · rw [hp, hq, tuned, tuned, h.oStep, h.absMax, h.absMin]

end Exits

variable {R : Type*} [Field R] [LinearOrder R] [IsStrictOrderedRing R]

/-- A nanosecond is not a second. -/
theorem mul_NANO_FACTOR_eq_iff (n : ℤ) : (n : R) * NANO_FACTOR = n ↔ n = 0 := by
  constructor
  · intro h
    have hnano : (NANO_FACTOR : R) * 1000000000 = 1 := by norm_num [NANO_FACTOR]
    have hmul : (n : R) = n * 1000000000 := by
      calc (n : R) = n * (NANO_FACTOR * 1000000000) := by rw [hnano, mul_one]
        _ = n * 1000000000 := by rw [← mul_assoc, h]
    have hcast : n = n * 1000000000 := by exact_mod_cast hmul
    omega
  · rintro rfl
    rw [Int.cast_zero, zero_mul]

theorem peakCountPu_eq_iff (s : PIDAT R) :
    s.peakCountPu = s.convergencePu ↔ s.peak1.tv_nsec = s.peak2.tv_nsec := by
  have hne : ((1000 : ℤ) : R) ≠ 0 := by norm_num
  rw [peakCountPu, convergencePu, div_left_inj' hne, Int.cast_add, add_right_inj,
    mul_NANO_FACTOR_eq_iff, sub_eq_zero]

/-- The exit that counts the peaks and the one that finds them converged compute the same parameters
of the same state, exactly if its peak times have the same nanoseconds. -/
theorem exits_agree_iff {int : R → ℤ} {s t : PIDAT R} {p q : PID R} {x x' y y' : R}
    {now now' : Timespec} {r r' : TuneResult R} (hs : s.Counted)
    (hr : pidAutoTune int s p x y now = some r) (ht : ¬t.Counted)
    (hr' : pidAutoTune int t q x' y' now' = some r') (hret : r'.ret = true)
    (hsame : SameOscillation s r'.pidAt) :
    r.SameTuning r' ↔ s.peak1.tv_nsec = s.peak2.tv_nsec := by
  obtain ⟨u, hu⟩ := pidAutoTune_converged ht hr' hret
  -- an exit leaves in the state what it computes the parameters of
  have hexit : r'.pidAt = (u.convergenceExit q).1 := congrArg Prod.fst hu
  rw [hexit] at hsame
  have hstate : SameOscillation { s with justevaled := false } u :=
    ⟨hsame.oStep, hsame.absMax, hsame.absMin, hsame.peak1, hsame.peak2⟩
  have hPu : u.convergencePu = s.convergencePu := by
    rw [convergencePu, convergencePu, hstate.peak1, hstate.peak2]
  rw [sameTuning_iff hstate (pidAutoTune_counted hs hr) hu, hPu]
  exact peakCountPu_eq_iff s

/-- The conversion to `int` rounds towards 0. -/
def truncate (x : ℚ) : ℤ := x.num.tdiv x.den

/-- Three rising maxima with minima between them; the last maximum is at `now`. -/
def rising (now : Timespec) : PIDAT ℚ :=
  { zeroed with
    isMax := true
    setpoint := 300
    noiseBand := 1
    running := true
    peak1 := now
    peak2 := ⟨3000, 0⟩
    lastTime := now
    sampleTime := ⟨250, 0⟩
    nLookBack := 80
    peakType := 1
    lastInputs := Vector.ofFn fun i => [302, -20, 301, -10, 300].getD i 0
    peaks := Vector.ofFn fun i => [300, 301, 302].getD i 0
    peakCount := 2
    justevaled := true
    absMax := 302
    absMin := -20
    oStep := 50
    outputStart := 100 }

def noGains : PID ℚ := ⟨0, 0, 0, 0, 0, 0, ⟨0, 0⟩, true, .heater⟩

/-- The state with ten peaks whose oscillation is the one of the next sample. -/
def tenPeaks (now : Timespec) : PIDAT ℚ := { rising now with absMin := -30, peakCount := 10 }

/-- The next sample is a minimum, behind which the peaks have converged. -/
theorem rising_converges (now : Timespec) (Pu : ℚ)
    (h : (pidAutoTune truncate (rising now) noGains (-30) 0 ⟨6000, 0⟩).any (fun r =>
      r.ret && decide (SameOscillation (tenPeaks now) r.pidAt ∧ r.pidAt.Pu = Pu)) = true) :
    ∃ r, pidAutoTune truncate (rising now) noGains (-30) 0 ⟨6000, 0⟩ = some r ∧ r.ret = true ∧
      SameOscillation (tenPeaks now) r.pidAt ∧ r.pidAt.Pu = Pu := by
  obtain ⟨r, hr, hp⟩ := (Option.any_eq_true _ _).mp h
  rw [Bool.and_eq_true, decide_eq_true_eq] at hp
  exact ⟨r, hr, hp⟩

/-- The last theorem for maxima at 3000 s and 5000.5 s: the time between them is 2000.5 s for one
exit, and 500002000 s for the other. -/
theorem not_exits_agree : ∃ r r',
    pidAutoTune truncate (tenPeaks ⟨5000, 500000000⟩) noGains 0 0 ⟨6000, 0⟩ = some r ∧
    pidAutoTune truncate (rising ⟨5000, 500000000⟩) noGains (-30) 0 ⟨6000, 0⟩ = some r' ∧
      (r.ret = true ∧ r'.ret = true) ∧
      SameOscillation (tenPeaks ⟨5000, 500000000⟩) r'.pidAt ∧
      (r.pidAt.Pu = 4001 / 2000 ∧ r'.pidAt.Pu = 500002) ∧ ¬r.SameTuning r' := by
  obtain ⟨r', hr', hret, hsame, hPu⟩ :=
    rising_converges ⟨5000, 500000000⟩ 500002 (by decide +kernel)
  refine ⟨_, r', rfl, hr', ⟨rfl, hret⟩, hsame, ⟨by decide +kernel, hPu⟩, fun h => ?_⟩
  have hne : (4001 / 2000 : ℚ) ≠ 500002 := by norm_num
  apply hne
  rw [← hPu, ← h.Pu]
  decide +kernel

/-- The theorem before the last for a last maximum at 5000 s. -/
theorem exits_agree_whole : ∃ r r',
    pidAutoTune truncate (tenPeaks ⟨5000, 0⟩) noGains 0 0 ⟨6000, 0⟩ = some r ∧
    pidAutoTune truncate (rising ⟨5000, 0⟩) noGains (-30) 0 ⟨6000, 0⟩ = some r' ∧
      (r.SameTuning r' ↔
        (tenPeaks ⟨5000, 0⟩).peak1.tv_nsec = (tenPeaks ⟨5000, 0⟩).peak2.tv_nsec) := by
  obtain ⟨r', hr', hret, hsame, -⟩ := rising_converges ⟨5000, 0⟩ 2 (by decide +kernel)
  have hr : pidAutoTune truncate (tenPeaks ⟨5000, 0⟩) noGains 0 0 ⟨6000, 0⟩ = some _ := rfl
  exact ⟨_, r', hr, hr', exits_agree_iff ⟨by decide, rfl⟩ hr (by decide) hr' hret hsame⟩

end PIDAT

end Regonf
