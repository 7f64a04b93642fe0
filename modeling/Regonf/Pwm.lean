import Mathlib.Algebra.Order.Floor.Ring
import Mathlib.Data.Rat.Floor
import Regonf.Lib.Controller
import Regonf.Timef

/-! The pulse-width modulation of `lib/pwm.c`. A `double` is an exact number, and a `long` has
64 bits. -/
namespace Regonf

/-- `LOW` -/
def PWM_BUSY : ℤ := 0

/-- `HIGH` -/
def PWM_IDLE : ℤ := 1

structure PWM where
  initialized : Bool
  state : ℤ
  rsl : UInt32
  start_time : Timespec
  period : Timespec
deriving DecidableEq, Repr

/-- A product of two values of type `long`; `none` is an overflow. -/
def longMul (a b : ℤ) : Option ℤ := if -2 ^ 63 ≤ a * b ∧ a * b < 2 ^ 63 then some (a * b) else none

namespace PWM

/-- `time_req`: `part` of `rsl` of the period. -/
def timeReq (part : ℤ) (item : PWM) : Option Timespec :=
  if item.rsl = 0 then none
  else do
    let sec ← longMul part item.period.tv_sec
    let tv_sec := sec.tdiv item.rsl.toNat
    -- not negative, so that the conversion to `int` rounds down
    let d_rest : ℚ := part * item.period.tv_sec / item.rsl.toNat - tv_sec
    let nsec ← longMul part item.period.tv_nsec
    return ⟨tv_sec, ⌊d_rest * 1000000000⌋ + nsec.tdiv item.rsl.toNat⟩

/-- The branch of a state; it goes on for ever if `stay` holds. -/
def phase (now : Timespec) (part : ℤ) (stay : Bool) (next : ℤ) (item : PWM) : Option (PWM × ℤ) :=
  (item.timeReq part).map fun time_req =>
    let dif := timespecsub now item.start_time
    let item :=
      if timespeccmp time_req dif (fun x y => decide (x ≤ y)) && !stay then
        { item with state := next, start_time := now }
      else item
    (item, item.state)

/-- The duty cycle normalization. -/
def clamp (duty_cycle : ℤ) (item : PWM) : ℤ :=
  if duty_cycle < 0 then 0 else if duty_cycle > item.rsl.toNat then item.rsl.toNat else duty_cycle

def init (now : Timespec) (item : PWM) : PWM :=
  if item.initialized then item
  else { item with state := PWM_BUSY, start_time := now, initialized := true }

/-- `pwmctl`, with what it returns; `now` is the reading of the clock. -/
def pwmctl (now : Timespec) (duty_cycle : ℤ) (item : PWM) : Option (PWM × ℤ) :=
  if item.period.tv_sec < 0 then some ({ item with period := ⟨0, 0⟩ }, PWM_IDLE)
  else if item.period.tv_sec = 0 then some (item, PWM_IDLE)
  else
    let duty_cycle := item.clamp duty_cycle
    let item := item.init now
    if item.state = PWM_BUSY then
      item.phase now duty_cycle (decide (duty_cycle = item.rsl.toNat)) PWM_IDLE
    else if item.state = PWM_IDLE then
      item.phase now (item.rsl.toNat - duty_cycle) (decide (duty_cycle = 0)) PWM_BUSY
    else some ({ item with state := PWM_BUSY }, PWM_BUSY)

/-- Calls with one duty cycle, each with its reading of the clock. -/
def ctl (duty_cycle : ℤ) (item : PWM) (now : Timespec) : Option (PWM × List ℤ) :=
  (item.pwmctl now duty_cycle).map fun r => (r.1, [r.2])

theorem longMul_some {a b : ℤ} (h0 : 0 ≤ a * b) (h1 : a * b < 2 ^ 63) :
    longMul a b = some (a * b) := if_pos ⟨by omega, h1⟩

theorem longMul_none {a b : ℤ} (h : 2 ^ 63 ≤ a * b) : longMul a b = none :=
  if_neg fun hfit => absurd hfit.2 h.not_gt

/-- What is left of a second by the whole seconds, in nanoseconds. -/
theorem floor_rest (x : ℤ) {m : ℕ} (hm : 0 < m) :
    ⌊((x : ℚ) / m - ((x / m : ℤ) : ℚ)) * 1000000000⌋ = x % m * 1000000000 / m := by
  have hm' : (m : ℚ) ≠ 0 := Nat.cast_ne_zero.mpr hm.ne'
  -- the whole seconds are taken off, so that the rest is a remainder over `m`
  have hx : (x : ℚ) = m * ((x / m : ℤ) : ℚ) + ((x % m : ℤ) : ℚ) := by
    exact_mod_cast (Int.mul_ediv_add_emod x m).symm
  have hrest : ((x : ℚ) / m - ((x / m : ℤ) : ℚ)) * 1000000000 =
      ((x % m * 1000000000 : ℤ) : ℚ) / m := by
    rw [Int.cast_mul, Int.cast_ofNat, div_sub' hm', div_mul_eq_mul_div]
    congr 2
    rw [sub_eq_iff_eq_add, add_comm]
    exact hx
  rw [hrest, Rat.floor_intCast_div_natCast]

/-- The seconds and the nanoseconds of `time_req`, which are not carried. -/
theorem timeReq_some {item : PWM} {part : ℤ} (hrsl : 0 < item.rsl.toNat) (h0 : 0 ≤ part)
    (h1 : part ≤ item.rsl.toNat) (hsec : 0 ≤ item.period.tv_sec)
    (hfit : part * item.period.tv_sec < 2 ^ 63) (hnsec : item.period.Normalised) :
    item.timeReq part = some ⟨part * item.period.tv_sec / item.rsl.toNat,
      part * item.period.tv_sec % item.rsl.toNat * 1000000000 / item.rsl.toNat +
        part * item.period.tv_nsec / item.rsl.toNat⟩ := by
  have hne : item.rsl ≠ 0 := by
    intro hzero
    rw [hzero] at hrsl
    exact absurd hrsl (by decide)
  have hlt : item.rsl.toNat < 2 ^ 32 := item.rsl.toNat_lt
  have hpos : 0 ≤ part * item.period.tv_sec := mul_nonneg h0 hsec
  have hpos' : 0 ≤ part * item.period.tv_nsec := mul_nonneg h0 hnsec.1
  -- the other product never overflows: `rsl` has 32 bits, and the nanoseconds are below a second
  have hfit' : part * item.period.tv_nsec < 2 ^ 63 := by
    calc part * item.period.tv_nsec ≤ item.rsl.toNat * item.period.tv_nsec :=
          mul_le_mul_of_nonneg_right h1 hnsec.1
      _ ≤ item.rsl.toNat * 1000000000 :=
          mul_le_mul_of_nonneg_left hnsec.2.le (Int.natCast_nonneg _)
      _ < 2 ^ 63 := by omega
  rw [timeReq, if_neg hne, longMul_some hpos hfit, longMul_some hpos' hfit']
  simp only [Option.bind_eq_bind, Option.bind_some, Option.pure_def,
    Int.tdiv_eq_ediv_of_nonneg hpos, Int.tdiv_eq_ediv_of_nonneg hpos', ← Int.cast_mul]
  rw [floor_rest _ hrsl]

theorem timeReq_none {item : PWM} {part : ℤ} (hover : 2 ^ 63 ≤ part * item.period.tv_sec) :
    item.timeReq part = none := by
  rw [timeReq, longMul_none hover]
  split_ifs <;> rfl

end PWM

end Regonf
