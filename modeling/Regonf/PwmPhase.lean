import Mathlib.Tactic.Linarith
import Regonf.Pwm

/-! When a call of `pwmctl` ends a phase. The required time is compared field by field, and is not
normalised. -/
namespace Regonf.PWM

/-- How many parts of `rsl` of the period a phase lasts. -/
def part (duty_cycle : ℤ) (item : PWM) (state : ℤ) : ℤ :=
  if state = PWM_BUSY then duty_cycle else item.rsl.toNat - duty_cycle

/-- So many parts of the period, in nanoseconds. -/
def length (item : PWM) (part : ℤ) : ℚ := part * item.period.ns / item.rsl.toNat

/-- The state that follows. -/
def other (state : ℤ) : ℤ := if state = PWM_BUSY then PWM_IDLE else PWM_BUSY

/-- A product that fits in a `long`, and a rest of seconds and nanoseconds within a second. -/
def Fits (item : PWM) (part : ℤ) : Prop :=
  part * item.period.tv_sec < 2 ^ 63 ∧
    part * item.period.tv_sec % item.rsl.toNat * 1000000000 + part * item.period.tv_nsec ≤
      item.rsl.toNat * (1000000000 + 2)

/-- The comparison of `time_req` with the time since the phase began. -/
def ends (req dif : Timespec) : Bool := timespeccmp req dif fun x y => decide (x ≤ y)

theorem ends_iff (req dif : Timespec) : ends req dif = true ↔
    req.tv_sec < dif.tv_sec ∨ req.tv_sec = dif.tv_sec ∧ req.tv_nsec ≤ dif.tv_nsec := by
  unfold ends timespeccmp
  split_ifs with h <;> simp only [decide_eq_true_eq] <;> omega

section Time

variable {x y m : ℤ} (hm : 0 < m) {dif : Timespec}
include hm

/-- A phase that goes on has not had its length. -/
theorem lt_of_not_ends (hdif : dif.Normalised) (hy : 0 ≤ y)
    (h : ends ⟨x / m, x % m * 1000000000 / m + y / m⟩ dif ≠ true) :
    dif.ns * m < x * 1000000000 + y := by
  rw [Ne, ends_iff] at h
  dsimp only at h
  have hx := Int.mul_ediv_add_emod x m
  have hnonneg := Int.emod_nonneg x hm.ne'
  rcases lt_trichotomy dif.tv_sec (x / m) with hlt | heq | hgt
  · -- the seconds alone are not over
    have hle : dif.ns ≤ x / m * 1000000000 - 1 := by
      have := hdif.2
      unfold Timespec.ns
      omega
    have hmul := mul_le_mul_of_nonneg_right hle hm.le
    linarith
  -- the seconds are the same, and the nanoseconds decide; each quotient rounds down
  · have hle : dif.ns ≤ x / m * 1000000000 + (x % m * 1000000000 / m + y / m) - 1 := by
      unfold Timespec.ns
      omega
    have hmul := mul_le_mul_of_nonneg_right hle hm.le
    have hrest := Int.ediv_mul_le (x % m * 1000000000) hm.ne'
    have hnsec := Int.ediv_mul_le y hm.ne'
    linarith
  · exact absurd (.inl hgt) h

/-- A phase that ends has had its length, up to 2 ns. -/
theorem le_of_ends (hdif : dif.Normalised)
    (hfit : x % m * 1000000000 + y ≤ m * (1000000000 + 2))
    (h : ends ⟨x / m, x % m * 1000000000 / m + y / m⟩ dif = true) :
    x * 1000000000 + y ≤ (dif.ns + 2) * m := by
  rw [ends_iff] at h
  have hx := Int.mul_ediv_add_emod x m
  rcases h with hlt | ⟨heq, hle⟩
  -- a whole second more, which covers a rest that is within a second
  · have hge : (x / m + 1) * 1000000000 + 2 ≤ dif.ns + 2 := by
      have := hdif.1
      dsimp only at hlt
      unfold Timespec.ns
      omega
    have hmul := mul_le_mul_of_nonneg_right hge hm.le
    linarith
  -- each of the two quotients has lost less than 1 ns
  · have hge : x / m * 1000000000 + (x % m * 1000000000 / m + y / m) + 2 ≤ dif.ns + 2 := by
      dsimp only at heq hle
      unfold Timespec.ns
      omega
    have hmul := mul_le_mul_of_nonneg_right hge hm.le
    have hrest := Int.lt_ediv_add_one_mul_self (x % m * 1000000000) hm
    have hnsec := Int.lt_ediv_add_one_mul_self y hm
    linarith

omit hm in
/-- A second after the seconds of its length a phase ends, and if this is not too soon, then the
rest is within a second. -/
theorem fits_of_next_second (h : x * 1000000000 + y ≤ ((x / m + 1) * 1000000000 + 2) * m) :
    x % m * 1000000000 + y ≤ m * (1000000000 + 2) := by
  have hx := Int.mul_ediv_add_emod x m
  linarith

end Time

/-- A period of at least a second, and a duty cycle between none of it and all of it. -/
structure Params (duty_cycle : ℤ) (item : PWM) : Prop where
  sec : 1 ≤ item.period.tv_sec
  nsec : item.period.Normalised
  pos : 0 < duty_cycle
  lt : duty_cycle < item.rsl.toNat

/-- A PWM between two calls. -/
structure Running (item : PWM) : Prop where
  initialized : item.initialized = true
  state : item.state = PWM_BUSY ∨ item.state = PWM_IDLE
  start : item.start_time.Normalised

/-- What a call leaves. -/
def next (now req : Timespec) (item : PWM) : PWM :=
  if ends req (timespecsub now item.start_time) then
    { item with state := other item.state, start_time := now }
  else item

theorem other_ne (state : ℤ) : other state ≠ state := by
  unfold other
  split_ifs with h
  · rw [h]
    decide
  · exact Ne.symm h

variable {duty_cycle : ℤ} {item : PWM}

theorem Params.clamp (hp : Params duty_cycle item) : item.clamp duty_cycle = duty_cycle := by
  rw [PWM.clamp, if_neg hp.pos.le.not_gt, if_neg hp.lt.le.not_gt]

theorem Params.part_mem (hp : Params duty_cycle item) (state : ℤ) :
    0 < item.part duty_cycle state ∧ item.part duty_cycle state < item.rsl.toNat := by
  have hpos := hp.pos
  have hlt := hp.lt
  unfold part
  split_ifs <;> omega

theorem init_running {now : Timespec} (hnow : now.Normalised) (hinit : item.initialized = false) :
    Running (item.init now) := by
  rw [init, hinit]
  exact ⟨rfl, .inl rfl, hnow⟩

theorem init_period (now : Timespec) (item : PWM) : (item.init now).period = item.period := by
  unfold init
  split_ifs <;> rfl

theorem init_rsl (now : Timespec) (item : PWM) : (item.init now).rsl = item.rsl := by
  unfold init
  split_ifs <;> rfl

theorem init_init (now : Timespec) (item : PWM) : (item.init now).init now = item.init now := by
  cases h : item.initialized <;> simp [init, h]

/-- The first call is one at the beginning of a busy phase. -/
theorem pwmctl_init (hsec : 0 < item.period.tv_sec) (now : Timespec) (duty_cycle : ℤ) :
    item.pwmctl now duty_cycle = (item.init now).pwmctl now duty_cycle := by
  have hclamp : (item.init now).clamp duty_cycle = item.clamp duty_cycle := by
    rw [PWM.clamp, PWM.clamp, init_rsl]
  have hsec' : 0 < (item.init now).period.tv_sec := by rwa [init_period]
  rw [pwmctl, pwmctl, if_neg hsec.not_gt, if_neg hsec.ne', if_neg hsec'.not_gt, if_neg hsec'.ne',
    init_init, hclamp]

theorem pwmctl_running (hp : Params duty_cycle item) (hr : Running item) (now : Timespec) :
    item.pwmctl now duty_cycle = (item.timeReq (item.part duty_cycle item.state)).map
      fun req => (item.next now req, (item.next now req).state) := by
  have hsec := hp.sec
  have hinit : item.init now = item := if_pos hr.initialized
  rw [pwmctl, if_neg (by omega), if_neg (by omega)]
  simp only [hp.clamp, hinit]
  rcases hr.state with hbusy | hidle
  · have hstay : decide (duty_cycle = item.rsl.toNat) = false := decide_eq_false hp.lt.ne
    rw [if_pos hbusy, phase, hstay, part, if_pos hbusy]
    simp only [Bool.not_false, Bool.and_true, next, ends, other, if_pos hbusy]
  · have hne : item.state ≠ PWM_BUSY := by
      rw [hidle]
      decide
    have hstay : decide (duty_cycle = 0) = false := decide_eq_false hp.pos.ne'
    rw [if_neg hne, if_pos hidle, phase, hstay, part, if_neg hne]
    simp only [Bool.not_false, Bool.and_true, next, ends, other, if_neg hne]

/-- `time_req` where nothing overflows. -/
def required (item : PWM) (part : ℤ) : Timespec :=
  ⟨part * item.period.tv_sec / item.rsl.toNat,
    part * item.period.tv_sec % item.rsl.toNat * 1000000000 / item.rsl.toNat +
      part * item.period.tv_nsec / item.rsl.toNat⟩

theorem timeReq_required (hp : Params duty_cycle item) (state : ℤ)
    (hfit : item.part duty_cycle state * item.period.tv_sec < 2 ^ 63) :
    item.timeReq (item.part duty_cycle state) =
      some (item.required (item.part duty_cycle state)) := by
  obtain ⟨hpos, hlt⟩ := hp.part_mem state
  have hsec := hp.sec
  exact timeReq_some (by omega) hpos.le hlt.le (by omega) hfit hp.nsec

theorem lt_length_iff (hm : 0 < item.rsl.toNat) (e part : ℤ) : (e : ℚ) < item.length part ↔
    e * item.rsl.toNat < part * item.period.tv_sec * 1000000000 + part * item.period.tv_nsec := by
  have hm' : (0 : ℚ) < item.rsl.toNat := Nat.cast_pos.mpr hm
  have hns : part * item.period.tv_sec * 1000000000 + part * item.period.tv_nsec =
      part * item.period.ns := by
    unfold Timespec.ns
    linarith
  rw [length, lt_div_iff₀ hm', hns]
  exact_mod_cast Iff.rfl

theorem length_sub_le_iff (hm : 0 < item.rsl.toNat) (e part : ℤ) :
    item.length part - 2 ≤ (e : ℚ) ↔
      part * item.period.tv_sec * 1000000000 + part * item.period.tv_nsec ≤
        (e + 2) * item.rsl.toNat := by
  have hcast : (e : ℚ) + 2 = ((e + 2 : ℤ) : ℚ) := by push_cast; rfl
  rw [sub_le_iff_le_add, ← not_lt, hcast, lt_length_iff hm, not_lt]

/-- A call that meets the limits ends the phase when its length has passed. -/
theorem next_right (hp : Params duty_cycle item) (hr : Running item) {now : Timespec}
    (hnow : now.Normalised) (hfit : item.Fits (item.part duty_cycle item.state)) :
    let t := item.next now (item.required (item.part duty_cycle item.state))
    t.state = item.state ∧ t.start_time = item.start_time ∧
        ((now.ns - item.start_time.ns : ℤ) : ℚ) <
          item.length (item.part duty_cycle item.state) ∨
      t.state = other item.state ∧ t.start_time = now ∧
        item.length (item.part duty_cycle item.state) - 2 ≤
          ((now.ns - item.start_time.ns : ℤ) : ℚ) := by
  obtain ⟨hpos, hlt⟩ := hp.part_mem item.state
  have hm : 0 < item.rsl.toNat := by omega
  have hm' : (0 : ℤ) < item.rsl.toNat := Int.natCast_pos.mpr hm
  have hdif := timespecsub_normalised hnow hr.start
  rw [lt_length_iff hm, length_sub_le_iff hm, ← timespecsub_ns]
  dsimp only [next]
  split_ifs with hends
  · exact .inr ⟨rfl, rfl, le_of_ends hm' hdif hfit.2 hends⟩
  · exact .inl ⟨rfl, rfl, lt_of_not_ends hm' hdif (mul_nonneg hpos.le hp.nsec.1) hends⟩

/-- The instant a second after the whole seconds of a phase. -/
def secondAfter (item : PWM) (part : ℤ) : Timespec :=
  timespecadd item.start_time ⟨(item.required part).tv_sec + 1, 0⟩

theorem secondAfter_ns (item : PWM) (part : ℤ) : (item.secondAfter part).ns - item.start_time.ns =
    ((item.required part).tv_sec + 1) * 1000000000 := by
  rw [secondAfter, timespecadd_ns, add_sub_cancel_left, Timespec.ns, add_zero]

theorem Running.secondAfter (hr : Running item) (part : ℤ) :
    (item.secondAfter part).Normalised :=
  timespecadd_normalised hr.start ⟨le_rfl, by norm_num⟩

/-- There the phase ends, whatever the nanoseconds of its required time are. -/
theorem ends_secondAfter (hr : Running item) (part : ℤ) :
    ends (item.required part) (timespecsub (item.secondAfter part) item.start_time) = true := by
  have hdif := timespecsub_normalised (hr.secondAfter part) hr.start
  have hsub := timespecsub_ns (item.secondAfter part) item.start_time
  rw [secondAfter_ns] at hsub
  rw [ends_iff]
  left
  unfold Timespec.Normalised at hdif
  unfold Timespec.ns at hsub
  omega

theorem next_period (now req : Timespec) (item : PWM) :
    (item.next now req).period = item.period := by
  unfold next
  split_ifs <;> rfl

theorem next_rsl (now req : Timespec) (item : PWM) : (item.next now req).rsl = item.rsl := by
  unfold next
  split_ifs <;> rfl

theorem Running.next (hr : Running item) {now : Timespec} (hnow : now.Normalised)
    (req : Timespec) : Running (item.next now req) := by
  unfold PWM.next
  split_ifs
  · refine ⟨hr.initialized, ?_, hnow⟩
    dsimp only [other]
    split_ifs <;> simp
  · exact hr

/-- Where nothing overflows, a call goes to the next state and returns it. -/
theorem pwmctl_next (hp : Params duty_cycle item) (hr : Running item) {now : Timespec}
    (hnow : now.Normalised)
    (hfit : item.part duty_cycle item.state * item.period.tv_sec < 2 ^ 63) :
    ∃ t, t = item.next now (item.required (item.part duty_cycle item.state)) ∧
      item.pwmctl now duty_cycle = some (t, t.state) ∧ t.period = item.period ∧
      t.rsl = item.rsl ∧ Running t := by
  refine ⟨_, rfl, ?_, next_period _ _ _, next_rsl _ _ _, hr.next hnow _⟩
  rw [pwmctl_running hp hr, timeReq_required hp _ hfit]
  rfl

/-! What is said of a PWM depends on its period and its resolution only. -/

section Congr

variable {t : PWM} (hperiod : t.period = item.period) (hrsl : t.rsl = item.rsl)
include hrsl

theorem part_congr (state : ℤ) : t.part duty_cycle state = item.part duty_cycle state := by
  unfold part
  rw [hrsl]

include hperiod

theorem fits_congr (part : ℤ) : t.Fits part ↔ item.Fits part := by
  unfold Fits
  rw [hperiod, hrsl]

theorem lengths_congr : (fun state => t.length (t.part duty_cycle state)) =
    fun state => item.length (item.part duty_cycle state) := by
  funext state
  rw [part_congr hrsl, length, length, hperiod, hrsl]

theorem Params.congr (hp : Params duty_cycle item) : Params duty_cycle t := by
  constructor
  · rw [hperiod]
    exact hp.sec
  · rw [hperiod]
    exact hp.nsec
  · exact hp.pos
  · rw [hrsl]
    exact hp.lt

end Congr

end Regonf.PWM
