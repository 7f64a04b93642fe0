import Regonf.PidMx

/-! The limits of `pid_mx` and `pidwt_mx`, over exact numbers. A reset call returns 0, which is not
limited. -/
namespace Regonf

open Controller

/-- What is done to a controller: `stopPid`, or a call. -/
inductive PidCall (R : Type*) where
  | stop
  | call (set_point input : R) (now : Timespec)
deriving DecidableEq, Repr

namespace PIDMx

variable {R : Type*}

def step (f : PIDMx R → R → R → Timespec → R × PIDMx R) (p : PIDMx R) :
    PidCall R → Option (PIDMx R × List R)
  | .stop => some (stopPid p, [])
  | .call set_point input now =>
    some ((f p set_point input now).2, [(f p set_point input now).1])

/-- `stopPid` alone has no output. -/
theorem run_stop {f : PIDMx R → R → R → Timespec → R × PIDMx R} {cs : List (PidCall R)}
    (h : ∀ c ∈ cs, c = .stop) (p : PIDMx R) : ∃ t, run (step f) p cs = some (t, []) := by
  induction cs generalizing p with
  | nil => exact ⟨p, rfl⟩
  | cons c cs ih =>
    obtain rfl := h c List.mem_cons_self
    obtain ⟨t, hr⟩ := ih (fun c hc => h c (List.mem_cons_of_mem _ hc)) (stopPid p)
    exact ⟨t, run_cons_some.mpr ⟨stopPid p, [], [], rfl, hr, rfl⟩⟩

variable [Field R] [LinearOrder R]

/-- Within the limits. -/
def InLimits (p : PIDMx R) (y : R) : Prop := p.min_output ≤ y ∧ y ≤ p.max_output

/-- The output before it is limited. -/
def unlimited (p : PIDMx R) (set_point input : R) (now : Timespec) : R :=
  let error := set_point - input
  p.output error (p.integral_error + error * p.dt now) ((error - p.previous_error) / p.dt now)

/-- The integral error changes in reset calls and where the output needs no limit. -/
def IntegralKept (f : PIDMx R → R → R → Timespec → R × PIDMx R) (p : PIDMx R) :
    PidCall R → Prop
  | .stop => (stopPid p).integral_error = p.integral_error
  | .call set_point input now =>
    (f p set_point input now).2.integral_error ≠ p.integral_error →
      p.reset = true ∨ p.InLimits (p.unlimited set_point input now)

/-- Every output of the run is within the limits, and every step keeps the integral error. -/
def Limited (f : PIDMx R → R → R → Timespec → R × PIDMx R) (p : PIDMx R)
    (cs : List (PidCall R)) : Prop :=
  (∃ t outs, run (step f) p cs = some (t, outs) ∧ ∀ y ∈ outs, p.InLimits y) ∧
    Along (step f) (fun p _ c => p.IntegralKept f c) p [] cs

theorem pid_mx_reset {p : PIDMx R} (h : p.reset = true) (set_point input : R) (now : Timespec) :
    pid_mx p set_point input now = (0, { p with
      integral_error := 0, previous_error := 0, previous_time := now, reset := false
      previous_output := 0 }) := by
  rw [pid_mx, if_pos h]

theorem pid_mx_back {p : PIDMx R} (h : p.reset = false) {now : Timespec} (hdt : p.dt now < 0)
    (set_point input : R) :
    pid_mx p set_point input now = (p.previous_output, { p with previous_time := now }) := by
  rw [pid_mx, h, if_neg Bool.false_ne_true, if_pos hdt]

/-- A call that computes an output: the output is the limit that is exceeded, or is stored with its
integral error. -/
theorem pid_mx_forward {p : PIDMx R} (h : p.reset = false) {now : Timespec} (hdt : ¬p.dt now < 0)
    (set_point input : R) :
    let r := pid_mx p set_point input now
    (r.2.max_output = p.max_output ∧ r.2.min_output = p.min_output) ∧
      r.2.previous_output = r.1 ∧
      (p.max_output < p.unlimited set_point input now ∧ r.1 = p.max_output ∧
          r.2.integral_error = p.integral_error ∨
        p.unlimited set_point input now < p.min_output ∧ r.1 = p.min_output ∧
          r.2.integral_error = p.integral_error ∨
        p.InLimits (p.unlimited set_point input now) ∧
          r.1 = p.unlimited set_point input now) := by
  dsimp only
  rw [pid_mx, h, if_neg Bool.false_ne_true, if_neg hdt]
  dsimp only
  split_ifs with hmax hmin
  · exact ⟨⟨rfl, rfl⟩, rfl, .inl ⟨hmax, rfl, rfl⟩⟩
  · exact ⟨⟨rfl, rfl⟩, rfl, .inr (.inl ⟨hmin, rfl, rfl⟩)⟩
  · exact ⟨⟨rfl, rfl⟩, rfl, .inr (.inr ⟨⟨not_lt.mp hmin, not_lt.mp hmax⟩, rfl⟩)⟩

/-- The limits of a run, and a stored output within them or a reset to come. -/
structure Holds (lo hi : R) (p : PIDMx R) : Prop where
  min_output : p.min_output = lo
  max_output : p.max_output = hi
  stored : p.reset = true ∨ lo ≤ p.previous_output ∧ p.previous_output ≤ hi

/-- With 0 within the limits every output is. -/
theorem Holds.pid_mx {lo hi : R} {p : PIDMx R} (h : Holds lo hi p) (hle : lo ≤ hi)
    (h0 : lo ≤ 0 ∧ 0 ≤ hi) (set_point input : R) (now : Timespec) :
    Holds lo hi (pid_mx p set_point input now).2 ∧
      lo ≤ (pid_mx p set_point input now).1 ∧ (pid_mx p set_point input now).1 ≤ hi := by
  obtain ⟨rfl, rfl, hstored⟩ := h
  cases hreset : p.reset with
  | true =>
    -- the output is 0
    rw [pid_mx_reset hreset]
    exact ⟨⟨rfl, rfl, .inr h0⟩, h0⟩
  | false =>
    rw [hreset] at hstored
    by_cases hdt : p.dt now < 0
    · -- the output is the one that is stored
      have hmem := hstored.resolve_left Bool.false_ne_true
      rw [pid_mx_back hreset hdt]
      exact ⟨⟨rfl, rfl, .inr hmem⟩, hmem⟩
    · obtain ⟨⟨hmax, hmin⟩, hout, hcase⟩ := pid_mx_forward hreset hdt set_point input
      have hmem : p.min_output ≤ (Regonf.pid_mx p set_point input now).1 ∧
          (Regonf.pid_mx p set_point input now).1 ≤ p.max_output := by
        rcases hcase with ⟨-, hr, -⟩ | ⟨-, hr, -⟩ | ⟨hlim, hr⟩
        · rw [hr]
          exact ⟨hle, le_rfl⟩
        · rw [hr]
          exact ⟨le_rfl, hle⟩
        · rw [hr]
          exact hlim
      exact ⟨⟨hmin, hmax, .inr (hout ▸ hmem)⟩, hmem⟩

theorem Holds.step {lo hi : R} {p : PIDMx R} (h : Holds lo hi p) (hle : lo ≤ hi)
    (h0 : lo ≤ 0 ∧ 0 ≤ hi) {outs : List R} (houts : ∀ y ∈ outs, lo ≤ y ∧ y ≤ hi)
    (c : PidCall R) : ∃ s out, step Regonf.pid_mx p c = some (s, out) ∧
      Holds lo hi s ∧ ∀ y ∈ outs ++ out, lo ≤ y ∧ y ≤ hi := by
  cases c with
  | stop =>
    exact ⟨stopPid p, [], rfl, ⟨h.min_output, h.max_output, .inl rfl⟩, by simpa using houts⟩
  | call set_point input now =>
    obtain ⟨hs, hmem⟩ := h.pid_mx hle h0 set_point input now
    refine ⟨_, _, rfl, hs, fun y hy => ?_⟩
    rcases List.mem_append.mp hy with hy | hy
    · exact houts y hy
    · rw [List.mem_singleton.mp hy]
      exact hmem

theorem integralKept (p : PIDMx R) (c : PidCall R) : p.IntegralKept pid_mx c := by
  cases c with
  | stop => rfl
  | call set_point input now =>
    intro hne
    cases hreset : p.reset with
    | true => exact .inl rfl
    | false =>
      right
      by_cases hdt : p.dt now < 0
      · rw [pid_mx_back hreset hdt] at hne
        exact absurd rfl hne
      -- at a limit the new integral error is not stored
      · obtain ⟨-, -, hcase⟩ := pid_mx_forward hreset hdt set_point input
        rcases hcase with ⟨-, -, hsame⟩ | ⟨-, -, hsame⟩ | ⟨hlim, -⟩
        · exact absurd hsame hne
        · exact absurd hsame hne
        · exact hlim

/-- The first call returns 0. -/
theorem zero_mem_of_call {p : PIDMx R} (h : p.reset = true) {cs : List (PidCall R)}
    (hcall : ¬∀ c ∈ cs, c = .stop) {t : PIDMx R} {outs : List R}
    (hr : run (step pid_mx) p cs = some (t, outs)) : 0 ∈ outs := by
  induction cs generalizing p outs with
  | nil => exact absurd (fun c hc => absurd hc List.not_mem_nil) hcall
  | cons c cs ih =>
    obtain ⟨s, o, rest, hs, hrest, rfl⟩ := run_cons_some.mp hr
    cases c with
    | stop =>
      have hrest' : ¬∀ c ∈ cs, c = .stop := by
        intro hall
        refine hcall fun c hc => ?_
        rcases List.mem_cons.mp hc with rfl | hc
        · rfl
        · exact hall c hc
      cases hs
      exact List.mem_append_right _ (ih rfl hrest' hrest)
    | call set_point input now =>
      rw [step, pid_mx_reset h] at hs
      cases hs
      exact List.mem_append_left _ List.mem_cons_self

theorem limited_pid_mx_iff {p : PIDMx R} (hreset : p.reset = true)
    (hle : p.min_output ≤ p.max_output) (cs : List (PidCall R)) :
    Limited pid_mx p cs ↔ p.InLimits 0 ∨ ∀ c ∈ cs, c = .stop := by
  -- the part on the integral error holds in every run
  have hkept : Along (step pid_mx) (fun p _ c => p.IntegralKept pid_mx c) p [] cs :=
    along_of_forall_mem (fun c _ p _ => p.integralKept c) p []
  constructor
  · rintro ⟨⟨t, outs, hr, hlim⟩, -⟩
    by_cases hall : ∀ c ∈ cs, c = .stop
    · exact .inr hall
    · exact .inl (hlim 0 (zero_mem_of_call hreset hall hr))
  · rintro (h0 | hall)
    · obtain ⟨t, outs, hr, -, hlim⟩ := exists_run_along (C := fun _ _ _ => True)
        (I := fun s outs => Holds p.min_output p.max_output s ∧ ∀ y ∈ outs, p.InLimits y)
        (fun s outs c hs _ => hs.1.step hle h0 hs.2 c) ⟨⟨rfl, rfl, .inl hreset⟩, by simp⟩
        (along_of_forall_mem (fun _ _ _ _ => trivial) p [])
      exact ⟨⟨t, outs, hr, hlim⟩, hkept⟩
    · obtain ⟨t, hr⟩ := run_stop hall p
      exact ⟨⟨t, [], hr, fun y hy => absurd hy List.not_mem_nil⟩, hkept⟩

/-- From a reset on, the outputs are within the limits and the integral error is kept, exactly if 0
is within the limits or nothing is computed. -/
theorem limited_iff {p : PIDMx R} (hreset : p.reset = true)
    (hle : p.min_output ≤ p.max_output) (cs : List (PidCall R)) :
    (Limited pid_mx p cs ↔ p.InLimits 0 ∨ ∀ c ∈ cs, c = .stop) ∧
      (Limited pidwt_mx p cs ↔ p.InLimits 0 ∨ ∀ c ∈ cs, c = .stop) := by
  have hsame : (pidwt_mx : PIDMx R → _ → _ → _ → _) = pid_mx := by
    funext p set_point input now
    exact (pid_mx_eq_pidwt_mx p set_point input now).symm
  rw [hsame]
  exact ⟨limited_pid_mx_iff hreset hle cs, limited_pid_mx_iff hreset hle cs⟩

/-- A controller that shall put out 20 to 100 puts out 0. -/
theorem not_limited_reset :
    (∃ t, run (step pid_mx) (⟨⟨0, 0, 1, 1, 1, 0, ⟨0, 0⟩, true, .heater⟩, 100, 20⟩ : PIDMx ℚ)
      [.call 50 40 ⟨1, 0⟩] = some (t, [0])) ∧
    ¬Limited pid_mx (⟨⟨0, 0, 1, 1, 1, 0, ⟨0, 0⟩, true, .heater⟩, 100, 20⟩ : PIDMx ℚ)
      [.call 50 40 ⟨1, 0⟩] := by
  have hrun : run (step pid_mx)
      (⟨⟨0, 0, 1, 1, 1, 0, ⟨0, 0⟩, true, .heater⟩, 100, 20⟩ : PIDMx ℚ) [.call 50 40 ⟨1, 0⟩] =
      some (⟨⟨0, 0, 1, 1, 1, 0, ⟨1, 0⟩, false, .heater⟩, 100, 20⟩, [0]) := by decide +kernel
  refine ⟨⟨_, hrun⟩, ?_⟩
  rintro ⟨⟨t, outs, hr, hlim⟩, -⟩
  rw [hrun] at hr
  cases hr
  have hlow : (20 : ℚ) ≤ 0 := (hlim 0 List.mem_cons_self).1
  norm_num at hlow

/-- The theorem before the last for limits of -100 and 100. -/
theorem limited_iff_hundred :
    (Limited pid_mx (⟨⟨0, 0, 1, 1, 1, 0, ⟨0, 0⟩, true, .heater⟩, 100, -100⟩ : PIDMx ℚ)
        [.call 50 40 ⟨1, 0⟩, .stop] ↔
      InLimits (⟨⟨0, 0, 1, 1, 1, 0, ⟨0, 0⟩, true, .heater⟩, 100, -100⟩ : PIDMx ℚ) 0 ∨
        ∀ c ∈ ([.call 50 40 ⟨1, 0⟩, .stop] : List (PidCall ℚ)), c = .stop) ∧
    (Limited pidwt_mx (⟨⟨0, 0, 1, 1, 1, 0, ⟨0, 0⟩, true, .heater⟩, 100, -100⟩ : PIDMx ℚ)
        [.call 50 40 ⟨1, 0⟩, .stop] ↔
      InLimits (⟨⟨0, 0, 1, 1, 1, 0, ⟨0, 0⟩, true, .heater⟩, 100, -100⟩ : PIDMx ℚ) 0 ∨
        ∀ c ∈ ([.call 50 40 ⟨1, 0⟩, .stop] : List (PidCall ℚ)), c = .stop) :=
  limited_iff rfl (by norm_num) _

end PIDMx

end Regonf
