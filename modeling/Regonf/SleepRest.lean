import Regonf.Timef

/-! `sleepRest` of `lib/timef.c` and the loop of `threadFunction`. The clock can be set between the
two readings of a turn, so the second need not be later. -/
namespace Regonf

/-- `sleepRest`: what it asks `nanosleep` for, if it does; `now` is its reading. -/
def sleepRest (total start now : Timespec) : Option Timespec :=
  let dif1 := timespecsub now start
  if timespeccmp total dif1 fun x y => decide (x > y) then some (timespecsub total dif1) else none

/-- A turn of the loop of `threadFunction`: the readings of `getCurrentTime` and of `sleepRest`, and
the nanoseconds that pass before the sleep. -/
structure LoopTurn where
  t1 : Timespec
  now : Timespec
  step : ℤ
deriving DecidableEq, Repr

/-- How long a turn sleeps. -/
def LoopTurn.sleep (cycle_duration : Timespec) (t : LoopTurn) : ℤ :=
  ((sleepRest cycle_duration t.t1 t.now).map Timespec.ns).getD 0

/-- The instants at which the turns begin, the first of them at `t`, and the one at which the next
turn would. -/
def turnsBegin (cycle_duration : Timespec) : ℤ → List LoopTurn → List ℤ
  | t, [] => [t]
  | t, turn :: turns =>
    t :: turnsBegin cycle_duration (t + turn.step + turn.sleep cycle_duration) turns

/-- The readings of a turn, as `clock_gettime` gives them. -/
def LoopTurn.Normalised (t : LoopTurn) : Prop := t.t1.Normalised ∧ t.now.Normalised

instance (t : LoopTurn) : Decidable t.Normalised := inferInstanceAs (Decidable (_ ∧ _))

section
variable {total start now : Timespec} (ht : total.Normalised) (hs : start.Normalised)
  (hn : now.Normalised)
include ht hs hn

/-- The sleep is the cycle less what the clock has gone on since its start. -/
theorem sleepRest_eq : (sleepRest total start now).map Timespec.ns =
    if now.ns - start.ns < total.ns then some (total.ns - (now.ns - start.ns)) else none := by
  have hcmp := timespeccmp_gt_iff ht (timespecsub_normalised hn hs)
  rw [timespecsub_ns] at hcmp
  unfold sleepRest
  by_cases h : now.ns - start.ns < total.ns
  · rw [if_pos h, if_pos (hcmp.mpr h), Option.map_some, timespecsub_ns, timespecsub_ns]
  · rw [if_neg h, if_neg (mt hcmp.mp h), Option.map_none]

/-- No sleep is longer than the cycle exactly when the clock has not been set back. -/
theorem sleepRest_le_iff (h₀ : 0 ≤ total.ns) :
    (∀ d, sleepRest total start now = some d → d.ns ≤ total.ns) ↔ start.ns ≤ now.ns := by
  have heq := sleepRest_eq ht hs hn
  constructor
  · intro h
    by_contra hlt
    rw [if_pos (by omega)] at heq
    obtain ⟨d, hd, hns⟩ := Option.map_eq_some_iff.mp heq
    have := h d hd
    omega
  · intro hle d hd
    rw [hd, Option.map_some] at heq
    split_ifs at heq
    have := Option.some.inj heq
    omega

end

/-- The sleep of a turn, with the clock set back and without. -/
theorem LoopTurn.sleep_le_iff {cycle_duration : Timespec} (hc : cycle_duration.Normalised)
    (h₀ : 0 ≤ cycle_duration.ns) {t : LoopTurn} (ht : t.Normalised) :
    t.sleep cycle_duration ≤ cycle_duration.ns ↔ t.t1.ns ≤ t.now.ns := by
  rw [← sleepRest_le_iff hc ht.1 ht.2 h₀, LoopTurn.sleep]
  cases sleepRest cycle_duration t.t1 t.now <;> simp [h₀]

/-- Each turn begins at most a cycle and its own step after the one in front of it. -/
def Separated (cycle_duration : Timespec) (begins : List ℤ) (turns : List LoopTurn) : Prop :=
  ∀ (i : ℕ) (turn : LoopTurn), turns[i]? = some turn → ∃ a b, begins[i]? = some a ∧
    begins[i + 1]? = some b ∧ b - a ≤ cycle_duration.ns + turn.step

theorem separated_cons {cycle_duration : Timespec} {t : ℤ} {turn : LoopTurn}
    {turns : List LoopTurn} :
    Separated cycle_duration (turnsBegin cycle_duration t (turn :: turns)) (turn :: turns) ↔
      turn.sleep cycle_duration ≤ cycle_duration.ns ∧
        Separated cycle_duration (turnsBegin cycle_duration
          (t + turn.step + turn.sleep cycle_duration) turns) turns := by
  have hnext : (turnsBegin cycle_duration (t + turn.step + turn.sleep cycle_duration) turns)[0]? =
      some (t + turn.step + turn.sleep cycle_duration) := by
    cases turns <;> rfl
  constructor
  · intro h
    refine ⟨?_, fun i turn' hi => h (i + 1) turn' hi⟩
    obtain ⟨a, b, ha, hb, hle⟩ := h 0 turn rfl
    cases ha
    cases hnext.symm.trans hb
    omega
  · rintro ⟨hle, h⟩ i turn' hi
    cases i with
    | zero =>
      cases hi
      exact ⟨t, _, rfl, hnext, by omega⟩
    | succ i => exact h i turn' hi

/-- No call of `sleepRest` asks for more than the cycle, and no two turns of a thread are further
apart than a cycle and the step of the first, if and only if the clock is not set back between the
readings: of the call, or of any turn of the run. -/
theorem cycle_not_suspended_iff {cycle_duration : Timespec} (hc : cycle_duration.Normalised)
    (h₀ : 0 ≤ cycle_duration.ns) :
    (∀ start now : Timespec, start.Normalised → now.Normalised →
      ((∀ d, sleepRest cycle_duration start now = some d → d.ns ≤ cycle_duration.ns) ↔
        start.ns ≤ now.ns)) ∧
    ∀ (t : ℤ) (turns : List LoopTurn), (∀ turn ∈ turns, turn.Normalised) →
      (Separated cycle_duration (turnsBegin cycle_duration t turns) turns ↔
        ∀ turn ∈ turns, turn.t1.ns ≤ turn.now.ns) := by
  refine ⟨fun start now hs hn => sleepRest_le_iff hc hs hn h₀, fun t turns hturns => ?_⟩
  induction turns generalizing t with
  | nil => simp [Separated]
  | cons turn turns ih =>
    obtain ⟨hturn, hturns⟩ := List.forall_mem_cons.mp hturns
    rw [separated_cons, ih _ hturns, LoopTurn.sleep_le_iff hc h₀ hturn, List.forall_mem_cons]

/-- The last theorem for a cycle of a second. -/
theorem cycle_not_suspended_iff_example :
    (∀ start now : Timespec, start.Normalised → now.Normalised →
      ((∀ d, sleepRest ⟨1, 0⟩ start now = some d → d.ns ≤ (⟨1, 0⟩ : Timespec).ns) ↔
        start.ns ≤ now.ns)) ∧
    ∀ (t : ℤ) (turns : List LoopTurn), (∀ turn ∈ turns, turn.Normalised) →
      (Separated ⟨1, 0⟩ (turnsBegin ⟨1, 0⟩ t turns) turns ↔
        ∀ turn ∈ turns, turn.t1.ns ≤ turn.now.ns) :=
  cycle_not_suspended_iff (by decide) (by decide)

/-- The clock is set back by an hour during a step: the thread sleeps for more than an hour. -/
theorem set_back_suspends :
    sleepRest ⟨0, 500000000⟩ ⟨10000, 0⟩ ⟨6400, 100000000⟩ = some ⟨3600, 400000000⟩ ∧
      ¬∀ d, sleepRest ⟨0, 500000000⟩ ⟨10000, 0⟩ ⟨6400, 100000000⟩ = some d →
        d.ns ≤ (⟨0, 500000000⟩ : Timespec).ns := by
  have h : sleepRest ⟨0, 500000000⟩ ⟨10000, 0⟩ ⟨6400, 100000000⟩ = some ⟨3600, 400000000⟩ := by
    decide
  exact ⟨h, fun hle => absurd (hle _ h) (by decide)⟩

end Regonf
