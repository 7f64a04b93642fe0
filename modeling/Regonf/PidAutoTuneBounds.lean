import Regonf.PidAutoTune

/-! The array accesses of `pidAutoTune` in sequences of calls. `peakCount` is checked at the
beginning of the next call only. -/
namespace Regonf.PIDAT

open Blocks (exists_readAt exists_storeAt)
open Controller

variable {R : Type*}

/-- The counter is within `peaks` or just behind it, and the loop within `lastInputs`. -/
structure InRange (s : PIDAT R) : Prop where
  nonneg : 0 ≤ s.peakCount
  le_ten : s.peakCount ≤ 10
  window : s.running = true → s.nLookBack = 80

section LookBack
variable [LT R] [DecidableLT R]

/-- The loop changes the flags and the inputs only. -/
theorem lookBack_some (input : R) {n : ℕ} (hn : n ≤ 100) (s : PIDAT R) :
    ∃ isMax isMin lastInputs,
      lookBack input n s = some { s with isMax, isMin, lastInputs } := by
  induction n generalizing s with
  | zero => exact ⟨s.isMax, s.isMin, s.lastInputs, rfl⟩
  | succ i ih =>
    -- the read is in place `i` and the write in place `i + 1`, at most 100
    obtain ⟨val, hval⟩ := (exists_readAt (a := s.lastInputs) (i := i)).mpr (by omega)
    obtain ⟨lastInputs, hset⟩ :=
      (exists_storeAt (a := s.lastInputs) (i := i + 1) val).mpr (by omega)
    obtain ⟨isMax, isMin, last, hrest⟩ := ih (Nat.le_of_succ_le hn) { s with
      isMax := s.isMax && decide (input > val)
      isMin := s.isMin && decide (input < val)
      lastInputs }
    refine ⟨isMax, isMin, last, ?_⟩
    rw [lookBack, hval, Option.bind_eq_bind, Option.bind_some, hset, Option.bind_eq_bind,
      Option.bind_some, hrest]

theorem remember_some (input : R) {s : PIDAT R} (h : s.nLookBack ≤ 100) :
    ∃ isMax isMin lastInputs,
      s.remember input = some { s with isMax, isMin, lastInputs } := by
  obtain ⟨isMax, isMin, last, hloop⟩ := lookBack_some input (n := s.nLookBack.toNat) (by omega)
    { s with isMax := true, isMin := true }
  obtain ⟨lastInputs, hset⟩ := (exists_storeAt (a := last) (i := 0) input).mpr (by omega)
  refine ⟨isMax, isMin, lastInputs, ?_⟩
  rw [remember, hloop, Option.bind_eq_bind, Option.bind_some, hset, Option.bind_eq_bind,
    Option.bind_some]

end LookBack

theorem InRange.congr {s t : PIDAT R} (h : InRange s) (hcount : t.peakCount = s.peakCount)
    (hrunning : t.running = s.running) (hwindow : t.nLookBack = s.nLookBack) : InRange t where
  nonneg := hcount ▸ h.nonneg
  le_ten := hcount ▸ h.le_ten
  window hrun := hwindow.trans (h.window (hrunning ▸ hrun))

theorem toMax_peakCount (s : PIDAT R) : s.toMax.peakCount = s.peakCount := by
  unfold toMax
  dsimp only
  split_ifs <;> rfl

theorem InRange.toMax {s : PIDAT R} (h : InRange s) : InRange s.toMax := by
  unfold PIDAT.toMax
  dsimp only
  split_ifs <;> exact ⟨h.nonneg, h.le_ten, h.window⟩

theorem InRange.toMin {s : PIDAT R} (h : InRange s) (hcount : s.peakCount ≤ 9) :
    InRange s.toMin := by
  have hnonneg := h.nonneg
  have hle : s.peakCount + 1 ≤ 10 := by omega
  have hpos : 0 ≤ s.peakCount + 1 := by omega
  unfold PIDAT.toMin
  dsimp only
  split_ifs
  · exact ⟨hpos, hle, h.window⟩
  · exact ⟨h.nonneg, h.le_ten, h.window⟩
  · exact ⟨hpos, hle, h.window⟩
  · exact h

section Peak
variable {s : PIDAT R} (h : InRange s) (hcount : s.peakCount ≤ 9)
include h hcount

theorem maximum_some (input : R) (now : Timespec) :
    ∃ t, s.maximum input now = some t ∧ InRange t := by
  have hcount' := (toMax_peakCount s).trans_le hcount
  have hnonneg := h.toMax.nonneg
  obtain ⟨peaks, hset⟩ :=
    (exists_storeAt (a := s.toMax.peaks) (i := s.toMax.peakCount) input).mpr (by omega)
  rw [maximum, hset, Option.map_some]
  exact ⟨_, rfl, h.toMax.congr rfl rfl rfl⟩

/-- The place in `peaks` is checked, behind a maximum with the counter that has gone up. -/
theorem minimum_some (input : R) : ∃ t, s.minimum input = some t ∧ InRange t := by
  have hmin := h.toMin hcount
  have hnonneg := hmin.nonneg
  unfold minimum
  split_ifs with hlt
  · obtain ⟨peaks, hset⟩ :=
      (exists_storeAt (a := s.toMin.peaks) (i := s.toMin.peakCount) input).mpr (by omega)
    rw [hset, Option.map_some]
    exact ⟨_, rfl, hmin.congr rfl rfl rfl⟩
  · exact ⟨_, rfl, hmin⟩

theorem peak_some (input : R) (now : Timespec) : ∃ t, s.peak input now = some t ∧ InRange t := by
  unfold peak
  split_ifs
  · exact maximum_some h hcount input now
  · exact minimum_some h hcount input
  · exact ⟨s, rfl, h⟩

end Peak

/-- The last three peaks are read only if there are three. -/
theorem converged_some [Sub R] [IntCast R] [Mul R] [Div R] [LT R] [DecidableLT R] (int : R → ℤ)
    {s : PIDAT R} (h : InRange s) : ∃ done, s.converged int = some done := by
  have hten := h.le_ten
  unfold converged
  split_ifs with hcond
  · rw [Bool.and_eq_true, decide_eq_true_eq] at hcond
    obtain ⟨-, htwo⟩ := hcond
    obtain ⟨last, hlast⟩ := (exists_readAt (a := s.peaks) (i := s.peakCount - 1)).mpr (by omega)
    obtain ⟨middle, hmiddle⟩ :=
      (exists_readAt (a := s.peaks) (i := s.peakCount - 2)).mpr (by omega)
    obtain ⟨first, hfirst⟩ := (exists_readAt (a := s.peaks) (i := s.peakCount - 3)).mpr (by omega)
    rw [avgSeparation, hlast, hmiddle, hfirst]
    exact ⟨_, rfl⟩
  · exact ⟨false, rfl⟩

section Call
variable [IntCast R] [LT R] [DecidableLT R]

/-- A tuning begins or goes on with at most nine peaks and a window of 80 inputs. -/
theorem sampled_ready {s : PIDAT R} (h : InRange s) (hcount : s.running = true → s.peakCount ≤ 9)
    (input : R) (now : Timespec) : InRange (s.sampled input now) ∧
      (s.sampled input now).peakCount ≤ 9 ∧ (s.sampled input now).nLookBack = 80 := by
  unfold sampled
  dsimp only
  split_ifs with hrun
  · exact ⟨h.congr rfl rfl rfl, hcount hrun, h.window hrun⟩
  · have hten : (0 : ℤ) ≤ 10 := by decide
    have hnine : (0 : ℤ) ≤ 9 := by decide
    exact ⟨⟨le_rfl, hten, fun _ => rfl⟩, hnine, rfl⟩

variable [Sub R] [Mul R] [Div R] (int : R → ℤ)

theorem finish_some {s : PIDAT R} (h : InRange s) (p : PID R) (output : R) :
    ∃ r, s.finish int p output = some r ∧ InRange r.pidAt := by
  obtain ⟨done, hdone⟩ := converged_some int h
  rw [finish, hdone, Option.map_some]
  refine ⟨_, rfl, ?_⟩
  split_ifs
  · exact ⟨h.nonneg, h.le_ten, fun hrun => absurd hrun Bool.false_ne_true⟩
  · exact h.congr rfl rfl rfl

variable [Add R]

theorem sample_some {s : PIDAT R} (h : InRange s) (hcount : s.running = true → s.peakCount ≤ 9)
    (p : PID R) (input output : R) (now : Timespec) :
    ∃ r, s.sample int p input output now = some r ∧ InRange r.pidAt := by
  obtain ⟨hready, hnine, hwindow⟩ := sampled_ready h hcount input now
  obtain ⟨isMax, isMin, lastInputs, hremember⟩ := remember_some input (hwindow.trans_le (by decide))
  set t : PIDAT R := { s.sampled input now with isMax, isMin, lastInputs }
  have ht : InRange t := hready.congr rfl rfl rfl
  have hfull : ¬t.nLookBack < 9 := by
    have hwindow' : t.nLookBack = 80 := hwindow
    omega
  obtain ⟨u, hpeak, hu⟩ := peak_some ht hnine input now
  rw [sample, hremember, Option.bind_eq_bind, Option.bind_some, if_neg hfull, hpeak,
    Option.bind_some]
  exact finish_some int hu p _

/-- With more than nine peaks a running tuning ends before anything is stored. -/
theorem pidAutoTune_some {s : PIDAT R} (h : InRange s) (p : PID R) (input output : R)
    (now : Timespec) : ∃ r, pidAutoTune int s p input output now = some r ∧ InRange r.pidAt := by
  unfold pidAutoTune
  dsimp only
  split_ifs with hexit hearly
  · exact ⟨_, rfl, h.nonneg, h.le_ten, fun hrun => absurd hrun Bool.false_ne_true⟩
  · exact ⟨_, rfl, h.congr rfl rfl rfl⟩
  · -- a tuning that goes on has not been ended by its count
    apply sample_some int (h.congr rfl rfl rfl)
    intro hrun
    by_contra hmore
    apply hexit
    rw [Bool.and_eq_true, decide_eq_true_eq]
    exact ⟨not_le.mp hmore, hrun⟩

end Call

theorem zeroed_inRange [Zero R] : InRange (zeroed : PIDAT R) :=
  ⟨le_rfl, (by decide : (0 : ℤ) ≤ 10), fun hrun => absurd hrun Bool.false_ne_true⟩

section Runs
variable [Add R] [Sub R] [Mul R] [Div R] [IntCast R] [Zero R] [LT R] [DecidableLT R]

/-- No call of a sequence on a zeroed `PID_AT` accesses `lastInputs` or `peaks` outside of the
array, whatever the inputs, the readings of the clock, and the conversions to `int` are. -/
theorem pidAutoTune_in_bounds (int : R → ℤ) (cs : List (Call R)) :
    ∃ t rs, run (call int) zeroed cs = some (t, rs) := by
  refine run_isSome (P := fun _ => True) (fun s c hs _ => ?_) zeroed_inRange fun _ _ => trivial
  obtain ⟨r, hr, hs'⟩ := pidAutoTune_some int hs c.p c.input c.output c.now
  exact ⟨r.pidAt, [r], by rw [call, hr, Option.map_some], hs'⟩

end Runs

end Regonf.PIDAT
