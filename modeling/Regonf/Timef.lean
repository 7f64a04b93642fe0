import Mathlib.Algebra.Order.Ring.Int
import Mathlib.Tactic.Common

/-! `lib/timef.h` and the on-delay timer of `lib/timef.c`. A clock reading is an argument:
each function takes the values that its calls of `clock_gettime` return. The seconds are unbounded
here, as no clock reading or interval of the program comes near the bounds of a `time_t`; `Time64`
has the macros and the timer with them. -/
namespace Regonf

structure Timespec where
  tv_sec : ℤ
  tv_nsec : ℤ
deriving DecidableEq, Repr

/-- The macro `timespecsub`. -/
def timespecsub (a b : Timespec) : Timespec :=
  if a.tv_nsec - b.tv_nsec < 0 then
    ⟨a.tv_sec - b.tv_sec - 1, a.tv_nsec - b.tv_nsec + 1000000000⟩
  else ⟨a.tv_sec - b.tv_sec, a.tv_nsec - b.tv_nsec⟩

/-- The macro `timespecadd`. -/
def timespecadd (a b : Timespec) : Timespec :=
  if a.tv_nsec + b.tv_nsec ≥ 1000000000 then
    ⟨a.tv_sec + b.tv_sec + 1, a.tv_nsec + b.tv_nsec - 1000000000⟩
  else ⟨a.tv_sec + b.tv_sec, a.tv_nsec + b.tv_nsec⟩

/-- The macro `timespeccmp`; the third argument is the comparison it pastes in. -/
def timespeccmp (a b : Timespec) (cmp : ℤ → ℤ → Bool) : Bool :=
  if a.tv_sec = b.tv_sec then cmp a.tv_nsec b.tv_nsec else cmp a.tv_sec b.tv_sec

structure TonTs where
  start : Timespec
  ready : Bool
deriving DecidableEq, Repr

/-- `ton_ts`: `first` is the reading that arms the timer (used only when it is not ready),
`now` the reading that is compared. -/
def tonTs (interval : Timespec) (t : TonTs) (first now : Timespec) : Bool × TonTs :=
  let t := if t.ready then t else ⟨first, true⟩
  if timespeccmp (timespecsub now t.start) interval (fun x y => decide (x > y)) then
    (true, { t with ready := false })
  else (false, t)

def tonTsReset (t : TonTs) : TonTs := { t with ready := false }

/-- `ton_ts_touch`; `now` is the reading of the clock. -/
def tonTsTouch (now : Timespec) (t : TonTs) : TonTs := { t with start := now, ready := true }

/-- `getTimeRest_ts`; `now` is the reading of the clock. -/
def getTimeRestTs (t_interval t_start now : Timespec) : Timespec :=
  timespecsub (timespecadd t_interval t_start) now

def getTimeRestTmr (interval : Timespec) (tmr : TonTs) (now : Timespec) : Timespec :=
  if tmr.ready then getTimeRestTs interval tmr.start now else ⟨-1, -1⟩

namespace Timespec

/-- A normalised value, as `clock_gettime` returns it. -/
def Normalised (t : Timespec) : Prop := 0 ≤ t.tv_nsec ∧ t.tv_nsec < 1000000000

instance (t : Timespec) : Decidable t.Normalised := inferInstanceAs (Decidable (_ ∧ _))

/-- The instant in nanoseconds. -/
def ns (t : Timespec) : ℤ := t.tv_sec * 1000000000 + t.tv_nsec

end Timespec

theorem timespecsub_ns (a b : Timespec) : (timespecsub a b).ns = a.ns - b.ns := by
  unfold timespecsub Timespec.ns
  split <;> simp only <;> omega

theorem timespecsub_normalised {a b : Timespec} (ha : a.Normalised) (hb : b.Normalised) :
    (timespecsub a b).Normalised := by
  unfold Timespec.Normalised at *
  unfold timespecsub
  split <;> simp only <;> omega

theorem timespecadd_ns (a b : Timespec) : (timespecadd a b).ns = a.ns + b.ns := by
  unfold timespecadd Timespec.ns
  split <;> simp only <;> omega

theorem timespecadd_normalised {a b : Timespec} (ha : a.Normalised) (hb : b.Normalised) :
    (timespecadd a b).Normalised := by
  unfold Timespec.Normalised at *
  unfold timespecadd
  split <;> simp only <;> omega

theorem timespeccmp_irrefl {cmp : ℤ → ℤ → Bool} (h : ∀ x, cmp x x = false) (a : Timespec) :
    timespeccmp a a cmp = false := by
  rw [timespeccmp, if_pos rfl]
  exact h a.tv_nsec

theorem timespeccmp_trans {cmp : ℤ → ℤ → Bool} (hirrefl : ∀ x, cmp x x = false)
    (htrans : ∀ x y z, cmp x y = true → cmp y z = true → cmp x z = true) (a b c : Timespec)
    (hab : timespeccmp a b cmp = true) (hbc : timespeccmp b c cmp = true) :
    timespeccmp a c cmp = true := by
  unfold timespeccmp at *
  by_cases h₁ : a.tv_sec = b.tv_sec
  · rw [if_pos h₁] at hab
    by_cases h₂ : b.tv_sec = c.tv_sec
    · rw [if_pos h₂] at hbc
      rw [if_pos (h₁.trans h₂)]
      exact htrans _ _ _ hab hbc
    · rw [if_neg h₂] at hbc
      rw [h₁, if_neg h₂]
      exact hbc
  · rw [if_neg h₁] at hab
    by_cases h₂ : b.tv_sec = c.tv_sec
    · rw [← h₂, if_neg h₁]
      exact hab
    · rw [if_neg h₂] at hbc
      have hac := htrans _ _ _ hab hbc
      have hne : a.tv_sec ≠ c.tv_sec := by
        intro heq
        rw [heq, hirrefl] at hac
        exact absurd hac Bool.false_ne_true
      rw [if_neg hne]
      exact hac

/-- A comparison operator asks only how the two are ordered. -/
def Comparison (cmp : ℤ → ℤ → Bool) : Prop :=
  ∀ x y x' y', (x < y ↔ x' < y') → (x = y ↔ x' = y') → cmp x y = cmp x' y'

/-- The seconds and then the nanoseconds are ordered as the instants are. -/
theorem timespeccmp_ns {cmp : ℤ → ℤ → Bool} (hcmp : Comparison cmp) {a b : Timespec}
    (ha : a.Normalised) (hb : b.Normalised) : timespeccmp a b cmp = cmp a.ns b.ns := by
  unfold Timespec.Normalised at ha hb
  unfold timespeccmp Timespec.ns
  split_ifs with hsec
  · apply hcmp <;> omega
  · apply hcmp <;> omega

theorem timespeccmp_gt_iff {a b : Timespec} (ha : a.Normalised) (hb : b.Normalised) :
    timespeccmp a b (fun x y => decide (x > y)) = true ↔ b.ns < a.ns := by
  have hcmp : Comparison fun x y => decide (x > y) := by
    intro x y x' y' hlt heq
    simp only [decide_eq_decide]
    omega
  rw [timespeccmp_ns hcmp ha hb, decide_eq_true_eq]

theorem timespeccmp_lt_iff {a b : Timespec} (ha : a.Normalised) (hb : b.Normalised) :
    timespeccmp a b (fun x y => decide (x < y)) = true ↔ a.ns < b.ns := by
  have hcmp : Comparison fun x y => decide (x < y) := by
    intro x y x' y' hlt heq
    simp only [decide_eq_decide]
    omega
  rw [timespeccmp_ns hcmp ha hb, decide_eq_true_eq]

namespace TonTs

/-- The start reading of a timer that is ready. -/
def armed (t : TonTs) : Option Timespec := if t.ready then some t.start else none

theorem armed_getD (t : TonTs) (first : Timespec) :
    t.armed.getD first = if t.ready then t.start else first := by
  unfold armed
  split_ifs <;> rfl

/-- More than `interval` has passed, as `ton_ts` compares it. -/
def passed (interval start now : Timespec) : Bool :=
  timespeccmp (timespecsub now start) interval fun x y => decide (x > y)

theorem passed_iff {interval start now : Timespec} (hi : interval.Normalised)
    (hs : start.Normalised) (hn : now.Normalised) :
    passed interval start now = true ↔ interval.ns < now.ns - start.ns := by
  rw [passed, timespeccmp_gt_iff (timespecsub_normalised hn hs) hi, timespecsub_ns]

end TonTs

open TonTs

/-- Whether a call fires is decided from the start reading, of the timer or of the call itself. -/
theorem tonTs_eq (interval : Timespec) (t : TonTs) (first now : Timespec) :
    tonTs interval t first now = if passed interval (t.armed.getD first) now then
      (true, ⟨t.armed.getD first, false⟩) else (false, ⟨t.armed.getD first, true⟩) := by
  obtain ⟨start, ready⟩ := t
  cases ready <;> rfl

/-- A timer that fires has run for more than its interval. -/
theorem tonTs_fired {interval first now : Timespec} {t : TonTs} (hi : interval.Normalised)
    (hn : now.Normalised) (hs : (if t.ready then t.start else first).Normalised) :
    (tonTs interval t first now).1 = true ↔
      interval.ns < now.ns - (if t.ready then t.start else first).ns := by
  rw [← armed_getD] at hs ⊢
  rw [← passed_iff hi hs hn, tonTs_eq]
  by_cases hp : passed interval (t.armed.getD first) now = true
  · rw [if_pos hp]
    exact iff_of_true rfl hp
  · rw [if_neg hp]
    exact iff_of_false Bool.false_ne_true hp

theorem tonTs_waiting {interval first now : Timespec} {t : TonTs}
    (h : (tonTs interval t first now).1 = false) :
    (tonTs interval t first now).2 = ⟨if t.ready then t.start else first, true⟩ := by
  rw [← armed_getD]
  rw [tonTs_eq] at h ⊢
  by_cases hp : passed interval (t.armed.getD first) now = true
  · rw [if_pos hp] at h
    exact absurd h.symm Bool.false_ne_true
  · rw [if_neg hp]

theorem tonTs_fired_ready {interval first now : Timespec} {t : TonTs}
    (h : (tonTs interval t first now).1 = true) :
    (tonTs interval t first now).2.ready = false := by
  rw [tonTs_eq] at h ⊢
  by_cases hp : passed interval (t.armed.getD first) now = true
  · rw [if_pos hp]
  · rw [if_neg hp] at h
    exact absurd h Bool.false_ne_true

end Regonf
