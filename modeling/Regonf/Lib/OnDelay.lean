import Regonf.Lib.Controller

/-! A timer that is armed by a call when it is not armed, fires when its time has passed, and is
then armed anew by the next call. -/
namespace OnDelay

open Regonf.Controller

variable {T : Type*}

/-- The readings of a call: `first` arms a timer that is not armed, and `now` is compared. -/
structure Call (T : Type*) where
  first : T
  now : T
deriving DecidableEq, Repr

/-- The state is the instant since when the timer is armed; the answer is whether it fires. -/
def step (passed : T → T → Bool) (since : Option T) (c : Call T) : Option T × Bool :=
  let start := since.getD c.first
  if passed start c.now then (none, true) else (some start, false)

/-- The call `j` arms the timer: it is the first one and finds it not armed, or comes after one that
has fired. -/
def Arms (since : Option T) (as : List Bool) : ℕ → Prop
  | 0 => since = none
  | j + 1 => as[j]? = some true

/-- The call `k` counts from `start`: the timer has been armed then, before the calls or by one of
them, and no call since has fired. -/
def CountsFrom (since : Option T) (cs : List (Call T)) (as : List Bool) (k : ℕ) (start : T) :
    Prop :=
  since = some start ∧ (∀ i, i < k → as[i]? = some false) ∨
    ∃ j c, j ≤ k ∧ Arms since as j ∧ cs[j]? = some c ∧ c.first = start ∧
      ∀ i, j ≤ i → i < k → as[i]? = some false

variable {passed : T → T → Bool} {since : Option T} {cs : List (Call T)} {as : List Bool}

theorem step_fired {c : Call T} (h : (step passed since c).2 = true) :
    (step passed since c).1 = none := by
  unfold step at h ⊢
  dsimp only at h ⊢
  split_ifs at h ⊢
  rfl

theorem step_waits {c : Call T} (h : (step passed since c).2 = false) :
    (step passed since c).1 = some (since.getD c.first) := by
  unfold step at h ⊢
  dsimp only at h ⊢
  split_ifs at h ⊢
  rfl

theorem CountsFrom.zero {c : Call T} {start : T} (h : CountsFrom since (c :: cs) as 0 start) :
    since.getD c.first = start := by
  rcases h with ⟨rfl, -⟩ | ⟨j, c', hj, harms, hc, rfl, -⟩
  · rfl
  · obtain rfl : j = 0 := Nat.le_zero.mp hj
    cases hc
    rw [show since = none from harms]
    rfl

/-- A call behind the first one counts from the same instant in the run from there. -/
theorem CountsFrom.succ {c : Call T} {k : ℕ} {start : T}
    (h : CountsFrom since (c :: cs) ((step passed since c).2 :: as) (k + 1) start) :
    CountsFrom (step passed since c).1 cs as k start := by
  rcases h with ⟨hsince, hwait⟩ | ⟨j, c', hj, harms, hc, hfirst, hwait⟩
  · -- it was armed before, and the first call has not fired
    have hhead : (step passed since c).2 = false := by simpa using hwait 0 (Nat.succ_pos k)
    refine .inl ⟨?_, fun i hi => hwait (i + 1) (Nat.succ_lt_succ hi)⟩
    rw [step_waits hhead, hsince]
    rfl
  · cases j with
    | zero =>
      -- the first call arms it, so that the rest is a run of an armed timer
      have hhead : (step passed since c).2 = false := by
        simpa using hwait 0 le_rfl (Nat.succ_pos k)
      refine .inl ⟨?_, fun i hi => hwait (i + 1) (Nat.zero_le _) (Nat.succ_lt_succ hi)⟩
      cases hc
      rw [step_waits hhead, show since = none from harms, ← hfirst]
      rfl
    | succ j =>
      refine .inr ⟨j, c', Nat.le_of_succ_le_succ hj, ?_, hc, hfirst, fun i hji hik =>
        hwait (i + 1) (Nat.succ_le_succ hji) (Nat.succ_lt_succ hik)⟩
      cases j with
      | zero => exact step_fired (Option.some.inj harms)
      | succ j => exact harms

/-- Every call counts from some instant. -/
theorem exists_countsFrom (since : Option T) {k : ℕ} (hc : k < cs.length) (ha : k ≤ as.length) :
    ∃ start, CountsFrom since cs as k start := by
  induction k with
  | zero =>
    -- the first call arms a timer that is not armed
    cases since with
    | none => exact ⟨_, .inr ⟨0, cs[0], le_rfl, rfl, List.getElem?_eq_getElem hc, rfl,
        fun i _ hi => absurd hi (Nat.not_lt_zero i)⟩⟩
    | some s => exact ⟨s, .inl ⟨rfl, fun i hi => absurd hi (Nat.not_lt_zero i)⟩⟩
  | succ k ih =>
    have hk : as[k]? = some as[k] := List.getElem?_eq_getElem ha
    cases hfired : as[k] with
    | true =>
      -- it is armed anew
      rw [hfired] at hk
      exact ⟨_, .inr ⟨k + 1, cs[k + 1], le_rfl, hk, List.getElem?_eq_getElem hc, rfl,
        fun i hi hlt => absurd hlt hi.not_gt⟩⟩
    | false =>
      rw [hfired] at hk
      obtain ⟨start, hstart⟩ := ih (Nat.lt_of_succ_lt hc) (Nat.le_of_succ_le ha)
      refine ⟨start, ?_⟩
      rcases hstart with ⟨hsince, hwait⟩ | ⟨j, c, hj, harms, hcj, hfirst, hwait⟩
      · refine .inl ⟨hsince, fun i hi => ?_⟩
        rcases Nat.lt_succ_iff_lt_or_eq.mp hi with hlt | rfl
        · exact hwait i hlt
        · exact hk
      · refine .inr ⟨j, c, Nat.le_succ_of_le hj, harms, hcj, hfirst, fun i hji hi => ?_⟩
        rcases Nat.lt_succ_iff_lt_or_eq.mp hi with hlt | rfl
        · exact hwait i hji hlt
        · exact hk

/-- In every run a call fires exactly if the time has passed since the instant it counts from. The
last call leaves the timer armed since then, or not armed if it fires. -/
theorem run_counts {t : Option T} (h : run (total (step passed)) since cs = some (t, as)) {k : ℕ}
    {c : Call T} {start : T} (hc : cs[k]? = some c) (hs : CountsFrom since cs as k start) :
    as[k]? = some (passed start c.now) ∧
      (k + 1 = cs.length → t = if passed start c.now then none else some start) := by
  induction cs generalizing since as k with
  | nil => exact absurd hc (by simp)
  | cons c₀ cs ih =>
    obtain ⟨rest, hr, rfl⟩ := run_total_cons.mp h
    cases k with
    | zero =>
      cases hc
      have hstep : step passed since c =
          if passed start c.now then (none, true) else (some start, false) := by
        rw [step, hs.zero]
      refine ⟨?_, fun hlen => ?_⟩
      · rw [List.getElem?_cons_zero, hstep]
        split_ifs with hp <;> simp [hp]
      · obtain rfl : cs = [] := List.length_eq_zero_iff.mp (Nat.succ.inj hlen).symm
        cases hr
        rw [hstep]
        split_ifs <;> rfl
    | succ k =>
      -- the rest is a run from the state that the first call leaves
      obtain ⟨hfires, hlast⟩ := ih hr hc hs.succ
      exact ⟨hfires, fun hlen => hlast (Nat.succ.inj hlen)⟩

end OnDelay
