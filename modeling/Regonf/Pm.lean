import Mathlib.Algebra.Order.Floor.Ring
import Mathlib.Data.Rat.Floor
import Regonf.Lib.Select
import Regonf.Timef

/-! The parallel modulation of `lib/pm.c`: as many pins are busy as the duty cycle says, and the
work goes round. -/
namespace Regonf

open Select

/-- `LOW` -/
def PM_BUSY : ℤ := 0

/-- `HIGH` -/
def PM_IDLE : ℤ := 1

def PM_RSL : ℤ := 100

structure PMItem where
  busy_time_total : Timespec
  state_time_curr : Timespec
  state_time_start : Timespec
  output : ℤ
deriving DecidableEq, Repr

/-- `item_length` is the length of `item`. -/
structure PM where
  item : List PMItem
  initialized : Bool
  busy_pin_num : ℤ
  swap_delay : Timespec
  swap_time_start : Timespec
  busy_min : Timespec
  idle_min : Timespec
deriving DecidableEq, Repr

/-- `timespeccmp(a, b, >)` -/
def timespeccmpGt (a b : Timespec) : Bool := timespeccmp a b fun x y => decide (x > y)

/-- `timespeccmp(a, b, <)` -/
def timespeccmpLt (a b : Timespec) : Bool := timespeccmp a b fun x y => decide (x < y)

theorem timespeccmpGt_irrefl (a : Timespec) : timespeccmpGt a a = false :=
  timespeccmp_irrefl (by simp) a

theorem timespeccmpGt_trans (a b c : Timespec) (hab : timespeccmpGt a b = true)
    (hbc : timespeccmpGt b c = true) : timespeccmpGt a c = true :=
  timespeccmp_trans (by simp) (by simp only [decide_eq_true_eq]; omega) a b c hab hbc

theorem timespeccmpLt_irrefl (a : Timespec) : timespeccmpLt a a = false :=
  timespeccmp_irrefl (by simp) a

theorem timespeccmpLt_trans (a b c : Timespec) (hab : timespeccmpLt a b = true)
    (hbc : timespeccmpLt b c = true) : timespeccmpLt a c = true :=
  timespeccmp_trans (by simp) (by simp only [decide_eq_true_eq]; omega) a b c hab hbc

namespace PMItem

def busy (x : PMItem) : Bool := decide (x.output = PM_BUSY)

def idle (x : PMItem) : Bool := decide (x.output = PM_IDLE)

/-- The state begins that `output` is. -/
def enter (output : ℤ) (now : Timespec) (x : PMItem) : PMItem :=
  { x with output, state_time_curr := ⟨0, 0⟩, state_time_start := now }

end PMItem

namespace PM

def pmgetbtpimin (d : PM) : Option (ℕ × PMItem) :=
  search PMItem.idle PMItem.busy_time_total timespeccmpGt d.item

def pmgetbtpbmax (d : PM) : Option (ℕ × PMItem) :=
  search PMItem.busy PMItem.busy_time_total timespeccmpLt d.item

/-- The best pin in a state that is in it for longer than `min`, or else the one that is in it for
the longest time. -/
def bestPin (state : PMItem → Bool) (min : Timespec) (better : Timespec → Timespec → Bool)
    (d : PM) : Option (ℕ × PMItem) :=
  match search (fun x => state x && timespeccmpGt x.state_time_curr min)
      PMItem.busy_time_total better d.item with
  | some r => some r
  | none => search state PMItem.state_time_curr timespeccmpLt d.item

def pmgetbptn (d : PM) : Option (ℕ × PMItem) := d.bestPin PMItem.idle d.idle_min timespeccmpGt

def pmgetbptf (d : PM) : Option (ℕ × PMItem) := d.bestPin PMItem.busy d.busy_min timespeccmpLt

def init (now : Timespec) (d : PM) : PM :=
  if d.initialized then d
  else { d with
    item := d.item.map fun _ => ⟨⟨0, 0⟩, ⟨0, 0⟩, now, PM_IDLE⟩
    busy_pin_num := 0
    swap_time_start := now
    initialized := true }

/-- The time monitor of one item. -/
def count (now : Timespec) (x : PMItem) : PMItem :=
  let time_new := timespecsub now x.state_time_start
  let t_dif := timespecsub time_new x.state_time_curr
  { x with
    busy_time_total := if x.busy then timespecadd x.busy_time_total t_dif else x.busy_time_total
    state_time_curr := time_new }

def monitor (now : Timespec) (d : PM) : PM := { d with item := d.item.map (count now) }

/-- `swap_delay` has passed. -/
def swapDue (now : Timespec) (d : PM) : Bool :=
  timespeccmpGt (timespecsub now d.swap_time_start) d.swap_delay

/-- The idle pin and the busy pin that the swap branch exchanges. -/
def swapPins (now : Timespec) (d : PM) : Option ((ℕ × PMItem) × (ℕ × PMItem)) :=
  if d.swapDue now then
    match d.pmgetbtpimin, d.pmgetbtpbmax with
    | some lo, some hi =>
      if timespeccmpGt lo.2.state_time_curr d.idle_min &&
          timespeccmpGt hi.2.state_time_curr d.busy_min then some (lo, hi)
      else none
    | _, _ => none
  else none

def swap (now : Timespec) (d : PM) : PM :=
  { d with
    swap_time_start := if d.swapDue now then now else d.swap_time_start
    item := match d.swapPins now with
      | some (lo, hi) =>
        (d.item.set lo.1 (lo.2.enter hi.2.output now)).set hi.1 (hi.2.enter lo.2.output now)
      | none => d.item }

/-- One pin enters a state, and `busy_pin_num` changes. -/
def turn (r : ℕ × PMItem) (output : ℤ) (now : Timespec) (busy_pin_num : ℤ) (d : PM) : PM :=
  { d with item := d.item.set r.1 (r.2.enter output now), busy_pin_num }

/-- A loop of the power control: `dif` turns, each with the pin that `pick` finds. -/
def turnPins (pick : PM → Option (ℕ × PMItem)) (output : ℤ) (step : ℤ) (now : Timespec) :
    ℕ → PM → PM
  | 0, d => d
  | dif + 1, d => turnPins pick output step now dif <| match pick d with
    | some r => d.turn r output now (d.busy_pin_num + step)
    | none => d

/-- The loop that turns on. -/
def turnOn (now : Timespec) (dif : ℕ) (d : PM) : PM := turnPins pmgetbptn PM_BUSY 1 now dif d

/-- The loop that turns off. -/
def turnOff (now : Timespec) (dif : ℕ) (d : PM) : PM := turnPins pmgetbptf PM_IDLE (-1) now dif d

/-- The duty cycle normalization. -/
def clamp (duty_cycle : ℤ) : ℤ :=
  if duty_cycle < 0 then 0 else if duty_cycle > PM_RSL then PM_RSL else duty_cycle

def power (now : Timespec) (duty_cycle : ℤ) (d : PM) : PM :=
  -- not negative, so that the conversion to `int` rounds down
  let n := ⌊(duty_cycle : ℚ) / PM_RSL * d.item.length⌋
  if n > d.busy_pin_num then d.turnOn now (n - d.busy_pin_num).toNat
  else if n < d.busy_pin_num then d.turnOff now (d.busy_pin_num - n).toNat
  else d

/-- `pmctl`; `now` is the reading of the clock. -/
def pmctl (now : Timespec) (duty_cycle : ℤ) (d : PM) : PM :=
  if d.item.length = 0 then d
  else (((d.init now).monitor now).swap now).power now (clamp duty_cycle)

/-- Calls one after the other, each with its reading and its duty cycle. -/
def calls (d : PM) (cs : List (Timespec × ℤ)) : PM := cs.foldl (fun d c => pmctl c.1 c.2 d) d

theorem calls_concat (d : PM) (cs : List (Timespec × ℤ)) (c : Timespec × ℤ) :
    d.calls (cs ++ [c]) = pmctl c.1 c.2 (d.calls cs) := List.foldl_concat ..

theorem pmgetbtpimin_finds (d : PM) :
    Finds PMItem.idle PMItem.busy_time_total timespeccmpGt d.item d.pmgetbtpimin :=
  search_finds _ _ timespeccmpGt_irrefl timespeccmpGt_trans d.item

theorem pmgetbtpbmax_finds (d : PM) :
    Finds PMItem.busy PMItem.busy_time_total timespeccmpLt d.item d.pmgetbtpbmax :=
  search_finds _ _ timespeccmpLt_irrefl timespeccmpLt_trans d.item

theorem swap_item_none {now : Timespec} {d : PM} (h : d.swapPins now = none) :
    (d.swap now).item = d.item := by
  rw [swap, h]

theorem swap_item_some {now : Timespec} {d : PM} {lo hi : ℕ × PMItem}
    (h : d.swapPins now = some (lo, hi)) : (d.swap now).item =
      (d.item.set lo.1 (lo.2.enter hi.2.output now)).set hi.1 (hi.2.enter lo.2.output now) := by
  rw [swap, h]

/-- The pins of a swap are the idle pin that was busy the shortest and the busy pin that was busy
the longest. -/
theorem swapPins_best {now : Timespec} {d : PM} {lo hi : ℕ × PMItem}
    (h : d.swapPins now = some (lo, hi)) :
    Best PMItem.idle PMItem.busy_time_total timespeccmpGt d.item lo ∧
      Best PMItem.busy PMItem.busy_time_total timespeccmpLt d.item hi := by
  have hmin := d.pmgetbtpimin_finds
  have hmax := d.pmgetbtpbmax_finds
  unfold swapPins at h
  split_ifs at h
  split at h
  · rename_i lo' hi' hlo hhi
    split_ifs at h
    rw [hlo] at hmin
    rw [hhi] at hmax
    cases h
    exact ⟨hmin, hmax⟩
  · exact absurd h (by simp)

section BestPin

variable {state : PMItem → Bool} {better : Timespec → Timespec → Bool}
  (hirrefl : ∀ k, better k k = false)
  (htrans : ∀ a b c, better a b = true → better b c = true → better a c = true)
include hirrefl htrans

theorem bestPin_some {d : PM} {min : Timespec} {r : ℕ × PMItem}
    (h : d.bestPin state min better = some r) :
    d.item[r.1]? = some r.2 ∧ state r.2 = true := by
  -- the first search, and the one that is made if it finds nothing
  have hlong := search_finds (fun x => state x && timespeccmpGt x.state_time_curr min)
    PMItem.busy_time_total hirrefl htrans d.item
  have hany := search_finds state PMItem.state_time_curr timespeccmpLt_irrefl
    timespeccmpLt_trans d.item
  unfold bestPin at h
  split at h
  · rename_i r' hr
    rw [hr] at hlong
    have hp := hlong.prop
    rw [Bool.and_eq_true] at hp
    cases h
    exact ⟨hlong.get, hp.1⟩
  · rw [h] at hany
    exact ⟨hany.get, hany.prop⟩

/-- A pin in the state is found, if there is one. -/
theorem exists_bestPin {d : PM} (min : Timespec) (h : ∃ x ∈ d.item, state x = true) :
    ∃ r, d.bestPin state min better = some r ∧ d.item[r.1]? = some r.2 ∧ state r.2 = true := by
  have hany := search_finds state PMItem.state_time_curr timespeccmpLt_irrefl
    timespeccmpLt_trans d.item
  have hsome : ∃ r, d.bestPin state min better = some r := by
    unfold bestPin
    split
    · rename_i r _
      exact ⟨r, rfl⟩
    · rcases hr : search state PMItem.state_time_curr timespeccmpLt d.item with _ | r
      · rw [hr] at hany
        obtain ⟨x, hx, hstate⟩ := h
        rw [hany x hx] at hstate
        exact absurd hstate Bool.false_ne_true
      · exact ⟨r, rfl⟩
  obtain ⟨r, hr⟩ := hsome
  exact ⟨r, hr, bestPin_some hirrefl htrans hr⟩

end BestPin

/-- If every turn finds a pin and takes `I` one down, the loop takes it to 0. -/
theorem turnPins_rule {pick : PM → Option (ℕ × PMItem)} {output step : ℤ} {now : Timespec}
    {I : ℕ → PM → Prop} (hturn : ∀ dif d, I (dif + 1) d →
      ∃ r, pick d = some r ∧ I dif (d.turn r output now (d.busy_pin_num + step)))
    {dif : ℕ} {d : PM} (h : I dif d) : I 0 (turnPins pick output step now dif d) := by
  induction dif generalizing d with
  | zero => exact h
  | succ dif ih =>
    obtain ⟨r, hr, hnext⟩ := hturn dif d h
    rw [turnPins, hr]
    exact ih hnext

section Items

theorem forall_set {P : PMItem → Prop} {xs : List PMItem} (h : ∀ x ∈ xs, P x) (i : ℕ)
    {y : PMItem} (hy : P y) : ∀ x ∈ xs.set i y, P x := by
  intro x hx
  rcases List.mem_or_eq_of_mem_set hx with hx | rfl
  · exact h x hx
  · exact hy

variable {P : PMItem → Prop} {now : Timespec} (henter : ∀ x output, P x → P (x.enter output now))
include henter

/-- What every item has, and keeps when it enters a state, it has after a swap. -/
theorem forall_swap {d : PM} (h : ∀ x ∈ d.item, P x) : ∀ x ∈ (d.swap now).item, P x := by
  rcases hpins : d.swapPins now with _ | ⟨lo, hi⟩
  · rwa [swap_item_none hpins]
  · obtain ⟨hlo, hhi⟩ := swapPins_best hpins
    rw [swap_item_some hpins]
    exact forall_set (forall_set h _ (henter _ _ (h _ hlo.mem))) _ (henter _ _ (h _ hhi.mem))

theorem forall_turnPins {pick : PM → Option (ℕ × PMItem)}
    (hpick : ∀ d r, pick d = some r → d.item[r.1]? = some r.2) (output step : ℤ) {d : PM}
    (h : ∀ x ∈ d.item, P x) (dif : ℕ) :
    ∀ x ∈ (turnPins pick output step now dif d).item, P x := by
  induction dif generalizing d with
  | zero => exact h
  | succ dif ih =>
    rw [turnPins]
    apply ih
    split
    · rename_i r hr
      exact forall_set h _ (henter _ _ (h _ (List.mem_of_getElem? (hpick d r hr))))
    · exact h

/-- It has it also after the power control. -/
theorem forall_power {d : PM} (h : ∀ x ∈ d.item, P x) (duty_cycle : ℤ) :
    ∀ x ∈ (d.power now duty_cycle).item, P x := by
  unfold power
  dsimp only
  split_ifs
  · exact forall_turnPins henter
      (fun d r hr => (bestPin_some timespeccmpGt_irrefl timespeccmpGt_trans hr).1) _ _ h _
  · exact forall_turnPins henter
      (fun d r hr => (bestPin_some timespeccmpLt_irrefl timespeccmpLt_trans hr).1) _ _ h _
  · exact h

end Items

/-- A PM of `n` pins before its first call. -/
def new (n : ℕ) (swap_delay : Timespec) : PM :=
  ⟨List.replicate n ⟨⟨0, 0⟩, ⟨0, 0⟩, ⟨0, 0⟩, PM_IDLE⟩, false, 0, swap_delay, ⟨0, 0⟩, ⟨0, 0⟩, ⟨0, 0⟩⟩

end PM

end Regonf
