import Regonf.Lib.OnDelay
import Regonf.Timef

/-! The on-delay timer `ton_ts` over sequences of calls without a reset, and the time that
`getTimeRestTmr` reports. -/
namespace Regonf

/-! The macros and the timer on a `time_t` of 64 bits, where a sum or a difference of seconds may
overflow; that is undefined. -/
namespace Time64

def IsTime (sec : ℤ) : Prop := -2 ^ 63 ≤ sec ∧ sec < 2 ^ 63

instance (sec : ℤ) : Decidable (IsTime sec) := inferInstanceAs (Decidable (_ ∧ _))

def time (sec : ℤ) : Option ℤ := if IsTime sec then some sec else none

def timespecsub (a b : Timespec) : Option Timespec :=
  (time (a.tv_sec - b.tv_sec)).bind fun sec =>
    if a.tv_nsec - b.tv_nsec < 0 then
      (time (sec - 1)).map fun sec => ⟨sec, a.tv_nsec - b.tv_nsec + 1000000000⟩
    else some ⟨sec, a.tv_nsec - b.tv_nsec⟩

def timespecadd (a b : Timespec) : Option Timespec :=
  (time (a.tv_sec + b.tv_sec)).bind fun sec =>
    if a.tv_nsec + b.tv_nsec ≥ 1000000000 then
      (time (sec + 1)).map fun sec => ⟨sec, a.tv_nsec + b.tv_nsec - 1000000000⟩
    else some ⟨sec, a.tv_nsec + b.tv_nsec⟩

def tonTs (interval : Timespec) (t : TonTs) (first now : Timespec) : Option (Bool × TonTs) :=
  let t := if t.ready then t else ⟨first, true⟩
  (timespecsub now t.start).map fun dif =>
    if timespeccmp dif interval fun x y => decide (x > y) then (true, { t with ready := false })
    else (false, t)

def getTimeRestTs (t_interval t_start now : Timespec) : Option Timespec :=
  (timespecadd t_interval t_start).bind fun sum => timespecsub sum now

def getTimeRestTmr (interval : Timespec) (tmr : TonTs) (now : Timespec) : Option Timespec :=
  if tmr.ready then getTimeRestTs interval tmr.start now else some ⟨-1, -1⟩

/-- No second of the difference overflows, before and after the borrow. -/
def FitsSub (a b : Timespec) : Prop :=
  IsTime (a.tv_sec - b.tv_sec) ∧ (a.tv_nsec - b.tv_nsec < 0 → IsTime (a.tv_sec - b.tv_sec - 1))

/-- No second of the sum overflows, before and after the carry. -/
def FitsAdd (a b : Timespec) : Prop :=
  IsTime (a.tv_sec + b.tv_sec) ∧
    (a.tv_nsec + b.tv_nsec ≥ 1000000000 → IsTime (a.tv_sec + b.tv_sec + 1))

instance (a b : Timespec) : Decidable (FitsSub a b) := inferInstanceAs (Decidable (_ ∧ _))

instance (a b : Timespec) : Decidable (FitsAdd a b) := inferInstanceAs (Decidable (_ ∧ _))

/-- A difference that is defined is that of unbounded seconds. -/
theorem timespecsub_eq (a b : Timespec) :
    timespecsub a b = if FitsSub a b then some (Regonf.timespecsub a b) else none := by
  unfold timespecsub Regonf.timespecsub FitsSub time
  by_cases h : IsTime (a.tv_sec - b.tv_sec)
  · rw [if_pos h, Option.bind_some]
    by_cases hn : a.tv_nsec - b.tv_nsec < 0
    · by_cases h' : IsTime (a.tv_sec - b.tv_sec - 1) <;> simp [h, hn, h']
    · simp [h, hn]
  · simp [h]

theorem timespecadd_eq (a b : Timespec) :
    timespecadd a b = if FitsAdd a b then some (Regonf.timespecadd a b) else none := by
  unfold timespecadd Regonf.timespecadd FitsAdd time
  by_cases h : IsTime (a.tv_sec + b.tv_sec)
  · rw [if_pos h, Option.bind_some]
    by_cases hn : a.tv_nsec + b.tv_nsec ≥ 1000000000
    · by_cases h' : IsTime (a.tv_sec + b.tv_sec + 1) <;> simp [h, hn, h']
    · simp [h, hn]
  · simp [h]

/-- Two readings of a clock that does not go below zero have a difference that fits. -/
theorem fitsSub_of_nonneg {a b : Timespec} (ha : 0 ≤ a.tv_sec ∧ IsTime a.tv_sec)
    (hb : 0 ≤ b.tv_sec ∧ IsTime b.tv_sec) : FitsSub a b := by
  unfold FitsSub IsTime at *
  omega

theorem tonTs_eq {interval : Timespec} {t : TonTs} {first now : Timespec}
    (h : FitsSub now (if t.ready then t.start else first)) :
    tonTs interval t first now = some (Regonf.tonTs interval t first now) := by
  have hstart : (if t.ready then t else ⟨first, true⟩ : TonTs).start =
      if t.ready then t.start else first := by split_ifs <;> rfl
  unfold tonTs Regonf.tonTs
  dsimp only
  rw [timespecsub_eq, hstart, if_pos h, Option.map_some, ← hstart]

end Time64

namespace TonTs

open Controller OnDelay

/-- A call of `ton_ts`. -/
def call (interval : Timespec) (t : TonTs) (c : Call Timespec) : TonTs × Bool :=
  ((tonTs interval t c.first c.now).2, (tonTs interval t c.first c.now).1)

/-- `ton_ts` does what the on-delay timer does. -/
theorem call_simulates (interval : Timespec) (t : TonTs) (c : Call Timespec) :
    (call interval t c).1.armed = (OnDelay.step (passed interval) t.armed c).1 ∧
      (call interval t c).2 = (OnDelay.step (passed interval) t.armed c).2 := by
  rw [call, tonTs_eq, OnDelay.step]
  dsimp only
  split_ifs
  · exact ⟨rfl, rfl⟩
  · exact ⟨rfl, rfl⟩

theorem armed_none {t : TonTs} (h : t.armed = none) : t.ready = false := by
  unfold armed at h
  split_ifs at h with hready
  exact Bool.eq_false_iff.mpr hready

theorem armed_some {t : TonTs} {start : Timespec} (h : t.armed = some start) :
    t = ⟨start, true⟩ := by
  obtain ⟨s, ready⟩ := t
  unfold armed at h
  split_ifs at h with hready
  cases h
  rw [show ready = true from hready]

/-- The time that is left, which is negative when the interval is over. -/
theorem getTimeRestTmr_armed {interval start now : Timespec} (hi : interval.Normalised)
    (hs : start.Normalised) (hn : now.Normalised) (ha : Time64.FitsAdd interval start)
    (hf : Time64.FitsSub (timespecadd interval start) now) :
    ∃ rest, Time64.getTimeRestTmr interval ⟨start, true⟩ now = some rest ∧ rest.Normalised ∧
      rest.ns = interval.ns - (now.ns - start.ns) := by
  refine ⟨timespecsub (timespecadd interval start) now, ?_,
    timespecsub_normalised (timespecadd_normalised hi hs) hn, ?_⟩
  · rw [Time64.getTimeRestTmr, if_pos rfl, Time64.getTimeRestTs, Time64.timespecadd_eq, if_pos ha,
      Option.bind_some, Time64.timespecsub_eq, if_pos hf]
  · rw [timespecsub_ns, timespecadd_ns]
    omega

/-- An instant that a call counts from is a reading. -/
theorem countsFrom_normalised {t : TonTs} (ht : t.ready = true → t.start.Normalised)
    {cs : List (Call Timespec)} (hcs : ∀ c ∈ cs, c.first.Normalised) {as : List Bool} {k : ℕ}
    {start : Timespec} (h : CountsFrom t.armed cs as k start) : start.Normalised := by
  rcases h with ⟨harmed, -⟩ | ⟨j, c, -, -, hc, rfl, -⟩
  · rw [armed_some harmed] at ht
    exact ht rfl
  · exact hcs c (List.mem_of_getElem? hc)

/-- A call of `ton_ts` on seconds of 64 bits. -/
def call64 (interval : Timespec) (t : TonTs) (c : Call Timespec) : Option (TonTs × List Bool) :=
  (Time64.tonTs interval t c.first c.now).map fun r => (r.2, [r.1])

/-- The readings that a call may count from. -/
def Start (t : TonTs) (cs : List (Call Timespec)) (start : Timespec) : Prop :=
  t.ready = true ∧ t.start = start ∨ ∃ c ∈ cs, c.first = start

/-- Nothing overflows in a run whose readings are not further apart than a `time_t` can say. -/
theorem run_call64 {interval : Timespec} {t : TonTs} {cs : List (Call Timespec)}
    (h : ∀ c ∈ cs, ∀ start, Start t cs start → Time64.FitsSub c.now start) :
    run (call64 interval) t cs = run (total (call interval)) t cs := by
  induction cs generalizing t with
  | nil => rfl
  | cons c cs ih =>
    have hstart : Start t (c :: cs) (if t.ready then t.start else c.first) := by
      split_ifs with hready
      · exact .inl ⟨hready, rfl⟩
      · exact .inr ⟨c, List.mem_cons_self, rfl⟩
    have hstep : call64 interval t c = total (call interval) t c := by
      rw [call64, Time64.tonTs_eq (h c List.mem_cons_self _ hstart)]
      rfl
    -- the timer counts from the same readings afterwards, if it is armed
    have hnext : ∀ start, Start (call interval t c).1 cs start → Start t (c :: cs) start := by
      rintro start (⟨hready, rfl⟩ | ⟨c', hc', rfl⟩)
      · cases hfired : (tonTs interval t c.first c.now).1 with
        | true => exact absurd hready (by simp [call, tonTs_fired_ready hfired])
        | false =>
          rw [call, tonTs_waiting hfired]
          exact hstart
      · exact .inr ⟨c', List.mem_cons_of_mem c hc', rfl⟩
    have hrun := ih fun c' hc' start hs =>
      h c' (List.mem_cons_of_mem c hc') start (hnext start hs)
    unfold run
    rw [hstep]
    unfold total
    dsimp only
    rw [hrun]
    rfl

/-- On normalised times whose seconds do not overflow the macros compute and compare the exact
instants. So a call of `ton_ts` returns 1 exactly if its reading exceeds the one it counts from by
more than the interval. Then the next call arms the timer anew, and else `getTimeRestTmr` reports
the exact rest. -/
theorem ton_ts_exact :
    (∀ a b : Timespec, a.Normalised → b.Normalised →
      (Time64.FitsSub a b →
        ∃ r, Time64.timespecsub a b = some r ∧ r.Normalised ∧ r.ns = a.ns - b.ns) ∧
      (Time64.FitsAdd a b →
        ∃ r, Time64.timespecadd a b = some r ∧ r.Normalised ∧ r.ns = a.ns + b.ns) ∧
      ∀ cmp, Comparison cmp → timespeccmp a b cmp = cmp a.ns b.ns) ∧
    ∀ (interval : Timespec) (t : TonTs) (cs : List (Call Timespec)), interval.Normalised →
      (t.ready = true → t.start.Normalised) →
      (∀ c ∈ cs, c.first.Normalised ∧ c.now.Normalised) →
      (∀ c ∈ cs, ∀ start, Start t cs start → Time64.FitsSub c.now start) →
      ∃ u as, run (call64 interval) t cs = some (u, as) ∧ as.length = cs.length ∧
        ∀ k c, cs[k]? = some c → (∃ start, CountsFrom t.armed cs as k start) ∧
          ∀ start, CountsFrom t.armed cs as k start →
            (as[k]? = some true ↔ interval.ns < c.now.ns - start.ns) ∧
            (k + 1 = cs.length →
              (as[k]? = some true → u.ready = false) ∧
              (as[k]? = some false → u = ⟨start, true⟩ ∧ ∀ now : Timespec, now.Normalised →
                Time64.FitsAdd interval start →
                Time64.FitsSub (timespecadd interval start) now →
                ∃ rest, Time64.getTimeRestTmr interval u now = some rest ∧ rest.Normalised ∧
                  rest.ns = interval.ns - (now.ns - start.ns))) := by
  constructor
  · intro a b ha hb
    refine ⟨fun h => ⟨timespecsub a b, ?_, timespecsub_normalised ha hb, timespecsub_ns a b⟩,
      fun h => ⟨timespecadd a b, ?_, timespecadd_normalised ha hb, timespecadd_ns a b⟩,
      fun cmp hcmp => timespeccmp_ns hcmp ha hb⟩
    · rw [Time64.timespecsub_eq, if_pos h]
    · rw [Time64.timespecadd_eq, if_pos h]
  · intro interval t cs hi ht hcs hfits
    -- the run is one of the on-delay timer, whose instants are the readings
    obtain ⟨u, since, as, hrun, hdelay, hu⟩ := run_total_simulates
      (S := fun (t : TonTs) since => t.armed = since)
      (fun t _ c ht => ht ▸ call_simulates interval t c) rfl cs
    have hlen := run_total_length hrun
    refine ⟨u, as, (run_call64 hfits).trans hrun, hlen, fun k c hc => ⟨?_, fun start hs => ?_⟩⟩
    · obtain ⟨hk, -⟩ := List.getElem?_eq_some_iff.mp hc
      exact exists_countsFrom t.armed hk (hlen ▸ hk.le)
    · have hstart := countsFrom_normalised ht (fun c hc => (hcs c hc).1) hs
      have hnow := (hcs c (List.mem_of_getElem? hc)).2
      obtain ⟨hfires, hlast⟩ := run_counts hdelay hc hs
      rw [hfires, Option.some.injEq, Option.some.injEq]
      refine ⟨passed_iff hi hstart hnow, fun hend => ⟨fun hp => ?_, fun hp => ?_⟩⟩
      · have hnone := hlast hend
        rw [if_pos hp] at hnone
        exact armed_none (hu.trans hnone)
      · have hsome := hlast hend
        rw [hp, if_neg Bool.false_ne_true] at hsome
        rw [armed_some (hu.trans hsome)]
        exact ⟨rfl, fun now hn ha hf => getTimeRestTmr_armed hi hstart hn ha hf⟩

/-- The last theorem for a timer of 2 s that has been touched at 10 s and 5 ns: the second call is
1 ns late enough. -/
theorem ton_ts_exact_touched : ∃ u as,
    run (call64 ⟨2, 0⟩) (tonTsTouch ⟨10, 5⟩ ⟨⟨0, 0⟩, false⟩)
        [⟨⟨12, 5⟩, ⟨12, 5⟩⟩, ⟨⟨12, 6⟩, ⟨12, 6⟩⟩] = some (u, as) ∧ as.length = 2 ∧
      (as[1]? = some true ↔ (⟨2, 0⟩ : Timespec).ns < (⟨12, 6⟩ : Timespec).ns -
        (⟨10, 5⟩ : Timespec).ns) := by
  have hfits : ∀ c ∈ [(⟨⟨12, 5⟩, ⟨12, 5⟩⟩ : Call Timespec), ⟨⟨12, 6⟩, ⟨12, 6⟩⟩], ∀ start,
      Start (tonTsTouch ⟨10, 5⟩ ⟨⟨0, 0⟩, false⟩) [⟨⟨12, 5⟩, ⟨12, 5⟩⟩, ⟨⟨12, 6⟩, ⟨12, 6⟩⟩] start →
        Time64.FitsSub c.now start := by
    intro c hc start hs
    -- all readings are seconds above zero
    have hnow : 0 ≤ c.now.tv_sec ∧ Time64.IsTime c.now.tv_sec := by
      revert c
      decide
    refine Time64.fitsSub_of_nonneg hnow ?_
    rcases hs with ⟨-, rfl⟩ | ⟨c', hc', rfl⟩
    · decide
    · revert c'
      decide
  obtain ⟨u, as, hrun, hlen, hcalls⟩ := ton_ts_exact.2 ⟨2, 0⟩ (tonTsTouch ⟨10, 5⟩ ⟨⟨0, 0⟩, false⟩)
    [⟨⟨12, 5⟩, ⟨12, 5⟩⟩, ⟨⟨12, 6⟩, ⟨12, 6⟩⟩] (by decide) (by decide) (by decide) hfits
  have has : as = [false, true] := by
    cases hrun
    rfl
  refine ⟨u, as, hrun, hlen, ((hcalls 1 _ rfl).2 ⟨10, 5⟩ (.inl ⟨rfl, fun i hi => ?_⟩)).1⟩
  obtain rfl : i = 0 := Nat.lt_one_iff.mp hi
  rw [has]
  rfl

/-- The sum of the latest second and one more is normalised, and overflows. -/
theorem timespecadd_overflows :
    ¬∀ a b : Timespec, a.Normalised → b.Normalised → Time64.IsTime a.tv_sec →
      Time64.IsTime b.tv_sec → ∃ r, Time64.timespecadd a b = some r ∧ r.ns = a.ns + b.ns := by
  intro h
  obtain ⟨r, hr, -⟩ := h ⟨2 ^ 63 - 1, 0⟩ ⟨1, 0⟩ (by decide) (by decide) (by decide) (by decide)
  exact absurd hr (by rw [Time64.timespecadd_eq, if_neg (by decide)]; simp)

end TonTs

end Regonf
