import Regonf.Pm

/-! What a swap does to the total busy times. It looks for the least worn idle pin and the most worn
busy pin, and does not compare the two. -/
namespace Regonf.PM

open Select Timespec

/-- The total busy time at `now`, in nanoseconds. -/
def wear (now : Timespec) (x : PMItem) : ℤ :=
  x.busy_time_total.ns +
    if x.busy then now.ns - x.state_time_start.ns - x.state_time_curr.ns else 0

/-- Some idle pin is not more worn than some busy pin. -/
def Lighter (now : Timespec) (d : PM) : Prop :=
  ∃ a ∈ d.item, a.idle = true ∧ ∃ b ∈ d.item, b.busy = true ∧ wear now a ≤ wear now b

/-- The times of an item are normalised. -/
structure Normal (x : PMItem) : Prop where
  total : x.busy_time_total.Normalised
  curr : x.state_time_curr.Normalised
  start : x.state_time_start.Normalised

theorem zero_normalised : Timespec.Normalised ⟨0, 0⟩ := by decide

theorem Normal.enter {x : PMItem} (h : Normal x) {now : Timespec} (hnow : now.Normalised)
    (output : ℤ) : Normal (x.enter output now) := ⟨h.total, zero_normalised, hnow⟩

theorem Normal.count {x : PMItem} (h : Normal x) {now : Timespec} (hnow : now.Normalised) :
    Normal (PM.count now x) := by
  have hnew := timespecsub_normalised hnow h.start
  refine ⟨?_, hnew, h.start⟩
  dsimp only [PM.count]
  split_ifs
  · exact timespecadd_normalised h.total (timespecsub_normalised hnew h.curr)
  · exact h.total

/-- The time monitor brings the total up to date. -/
theorem count_total (now : Timespec) (x : PMItem) :
    (count now x).busy_time_total.ns = wear now x := by
  unfold count wear
  dsimp only
  split_ifs
  · rw [timespecadd_ns, timespecsub_ns, timespecsub_ns]
  · rw [add_zero]

theorem init_normal {now : Timespec} (hnow : now.Normalised) {d : PM}
    (h : d.initialized = true → ∀ x ∈ d.item, Normal x) : ∀ x ∈ (d.init now).item, Normal x := by
  unfold init
  split_ifs with hinit
  · exact h hinit
  · intro x hx
    obtain ⟨-, -, rfl⟩ := List.mem_map.mp hx
    exact ⟨zero_normalised, zero_normalised, hnow⟩

theorem monitor_normal {now : Timespec} (hnow : now.Normalised) {d : PM}
    (h : ∀ x ∈ d.item, Normal x) : ∀ x ∈ (d.monitor now).item, Normal x := by
  intro x hx
  obtain ⟨y, hy, rfl⟩ := List.mem_map.mp hx
  exact (h y hy).count hnow

/-- A call keeps the times normalised. -/
theorem pmctl_normal {now : Timespec} (hnow : now.Normalised) {d : PM}
    (h : d.initialized = true → ∀ x ∈ d.item, Normal x) (duty_cycle : ℤ) :
    (pmctl now duty_cycle d).initialized = true →
      ∀ x ∈ (pmctl now duty_cycle d).item, Normal x := by
  unfold pmctl
  split_ifs
  · exact h
  · intro _
    have henter (x : PMItem) (output : ℤ) (hx : Normal x) : Normal (x.enter output now) :=
      hx.enter hnow output
    exact forall_power henter
      (forall_swap henter (monitor_normal hnow (init_normal hnow h))) (clamp duty_cycle)

theorem calls_normal {d : PM} (hnew : d.initialized = false) {cs : List (Timespec × ℤ)}
    (hcs : ∀ c ∈ cs, c.1.Normalised) :
    (d.calls cs).initialized = true → ∀ x ∈ (d.calls cs).item, Normal x := by
  induction cs using List.reverseRecOn with
  | nil => exact fun hinit => absurd (hnew.symm.trans hinit) Bool.false_ne_true
  | append_singleton cs c ih =>
    rw [calls_concat]
    exact pmctl_normal (hcs c (by simp)) (ih fun c hc => hcs c (by simp [hc])) c.2

/-- In the first call no pin is busy, so that none are swapped. -/
theorem swapPins_first {now : Timespec} {d : PM} (h : d.initialized = false) :
    ((d.init now).monitor now).swapPins now = none := by
  rcases hpins : ((d.init now).monitor now).swapPins now with _ | ⟨lo, hi⟩
  · rfl
  · obtain ⟨-, hhi⟩ := swapPins_best hpins
    obtain ⟨y, hy, hbusy⟩ := List.mem_map.mp hhi.mem
    rw [init, h, if_neg Bool.false_ne_true] at hy
    obtain ⟨-, -, rfl⟩ := List.mem_map.mp hy
    have hprop := hhi.prop
    rw [← hbusy] at hprop
    exact absurd (of_decide_eq_true hprop) (by decide : PM_IDLE ≠ PM_BUSY)

/-- The pins that a swap exchanges, on a PM with normalised times. -/
theorem swapPins_le_iff {now : Timespec} (hnow : now.Normalised) {d : PM}
    (h : ∀ x ∈ d.item, Normal x) {lo hi : ℕ × PMItem}
    (hpins : (d.monitor now).swapPins now = some (lo, hi)) :
    lo.2.busy_time_total.ns ≤ hi.2.busy_time_total.ns ↔ Lighter now d := by
  obtain ⟨hlo, hhi⟩ := swapPins_best hpins
  have hnormal := monitor_normal hnow h
  constructor
  · intro hle
    -- the two pins that are exchanged are a witness themselves
    obtain ⟨a, ha, hlo'⟩ := List.mem_map.mp hlo.mem
    obtain ⟨b, hb, hhi'⟩ := List.mem_map.mp hhi.mem
    have hidle := hlo.prop
    have hbusy := hhi.prop
    rw [← hlo', ← hhi', count_total, count_total] at hle
    rw [← hlo'] at hidle
    rw [← hhi'] at hbusy
    exact ⟨a, ha, hidle, b, hb, hbusy, hle⟩
  · -- the idle pin is at most as worn as `a`, and the busy pin at least as worn as `b`
    rintro ⟨a, ha, hidle, b, hb, hbusy, hle⟩
    have ha' : count now a ∈ (d.monitor now).item := List.mem_map_of_mem ha
    have hb' : count now b ∈ (d.monitor now).item := List.mem_map_of_mem hb
    have hleast := timespeccmp_gt_iff (hnormal _ hlo.mem).total (hnormal _ ha').total
    have hmost := timespeccmp_lt_iff (hnormal _ hhi.mem).total (hnormal _ hb').total
    have hlo' := hlo.best _ ha' hidle
    have hhi' := hhi.best _ hb' hbusy
    rw [timespeccmpGt, ← Bool.not_eq_true, hleast, not_lt, count_total] at hlo'
    rw [timespeccmpLt, ← Bool.not_eq_true, hmost, not_lt, count_total] at hhi'
    exact hlo'.trans (hle.trans hhi')

/-- A swap makes a pin busy that is not more worn than the one it makes idle, exactly if some idle
pin is not more worn than some busy pin. -/
theorem swap_evens_iff {d : PM} (hnew : d.initialized = false) {cs : List (Timespec × ℤ)}
    (hcs : ∀ c ∈ cs, c.1.Normalised) {now : Timespec} (hnow : now.Normalised)
    {lo hi : ℕ × PMItem}
    (hpins : (((d.calls cs).init now).monitor now).swapPins now = some (lo, hi)) :
    lo.2.busy_time_total.ns ≤ hi.2.busy_time_total.ns ↔ Lighter now (d.calls cs) := by
  cases hinit : (d.calls cs).initialized with
  | false =>
    rw [swapPins_first hinit] at hpins
    exact absurd hpins (by simp)
  | true =>
    have hsame : (d.calls cs).init now = d.calls cs := if_pos hinit
    rw [hsame] at hpins
    exact swapPins_le_iff hnow (calls_normal hnew hcs hinit) hpins

/-- The second swap of two pins goes back to the pin with 10 s, from the one with 6 s. -/
theorem not_swap_evens : ∃ lo hi,
    ((((new 2 ⟨5, 0⟩).calls [(⟨0, 0⟩, 50), (⟨10, 0⟩, 50)]).init ⟨16, 0⟩).monitor ⟨16, 0⟩).swapPins
        ⟨16, 0⟩ = some (lo, hi) ∧
      lo.2.busy_time_total = ⟨10, 0⟩ ∧ hi.2.busy_time_total = ⟨6, 0⟩ :=
  ⟨(0, ⟨⟨10, 0⟩, ⟨6, 0⟩, ⟨10, 0⟩, PM_IDLE⟩), (1, ⟨⟨6, 0⟩, ⟨6, 0⟩, ⟨10, 0⟩, PM_BUSY⟩),
    by decide +kernel, rfl, rfl⟩

/-- The theorem before the last for the first swap. -/
theorem swap_evens_first :
    (⟨⟨0, 0⟩, ⟨10, 0⟩, ⟨0, 0⟩, PM_IDLE⟩ : PMItem).busy_time_total.ns ≤
        (⟨⟨10, 0⟩, ⟨10, 0⟩, ⟨0, 0⟩, PM_BUSY⟩ : PMItem).busy_time_total.ns ↔
      Lighter ⟨10, 0⟩ ((new 2 ⟨5, 0⟩).calls [(⟨0, 0⟩, 50)]) :=
  swap_evens_iff rfl (by decide) (by decide) (show
    ((((new 2 ⟨5, 0⟩).calls [(⟨0, 0⟩, 50)]).init ⟨10, 0⟩).monitor ⟨10, 0⟩).swapPins ⟨10, 0⟩ =
      some ((1, ⟨⟨0, 0⟩, ⟨10, 0⟩, ⟨0, 0⟩, PM_IDLE⟩), (0, ⟨⟨10, 0⟩, ⟨10, 0⟩, ⟨0, 0⟩, PM_BUSY⟩))
    by decide +kernel)

end Regonf.PM
