import Regonf.Pm

/-! As many pins are busy as the duty cycle says. -/
namespace Regonf.PM

open Select

/-- The pins whose output is `PM_BUSY`. -/
def busyPins (d : PM) : ℕ := d.item.countP PMItem.busy

/-- Every output is one of the two, and `busy_pin_num` counts the busy ones. -/
structure Counted (d : PM) : Prop where
  outputs : ∀ x ∈ d.item, x.output = PM_BUSY ∨ x.output = PM_IDLE
  count : d.busy_pin_num = d.busyPins

theorem exists_busy {d : PM} (h : 0 < d.busyPins) : ∃ x ∈ d.item, x.busy = true :=
  List.countP_pos_iff.mp h

theorem Counted.exists_idle {d : PM} (hd : d.Counted) (h : d.busyPins < d.item.length) :
    ∃ x ∈ d.item, x.idle = true := by
  -- else all pins would be busy
  by_contra hnone
  refine absurd (List.countP_eq_length.mpr fun x hx => ?_) h.ne
  rcases hd.outputs x hx with hbusy | hidle
  · exact decide_eq_true hbusy
  · exact absurd ⟨x, hx, decide_eq_true hidle⟩ hnone

/-- One pin in a new state. -/
theorem countP_enter {xs : List PMItem} {i : ℕ} {x : PMItem} (h : xs[i]? = some x) (output : ℤ)
    (now : Timespec) :
    (xs.set i (x.enter output now)).countP PMItem.busy + (if x.busy then 1 else 0) =
      xs.countP PMItem.busy + if output = PM_BUSY then 1 else 0 := by
  obtain ⟨hi, rfl⟩ := List.getElem?_eq_some_iff.mp h
  have hpos : (if xs[i].busy then 1 else 0) ≤ xs.countP PMItem.busy := by
    split_ifs with hbusy
    · exact List.countP_pos_iff.mpr ⟨_, List.getElem_mem hi, hbusy⟩
    · exact Nat.zero_le _
  -- the count is that of the others, and one for the pin itself if it is busy
  have hnew : (xs[i].enter output now).busy = decide (output = PM_BUSY) := rfl
  rw [List.countP_set hi, hnew]
  simp only [decide_eq_true_eq]
  omega

theorem init_counted (now : Timespec) {d : PM} (h : d.initialized = true → d.Counted) :
    (d.init now).Counted := by
  unfold init
  split_ifs with hinit
  · exact h hinit
  · constructor
    · intro x hx
      obtain ⟨-, -, rfl⟩ := List.mem_map.mp hx
      exact .inr rfl
    · have hzero : (d.item.map fun _ => (⟨⟨0, 0⟩, ⟨0, 0⟩, now, PM_IDLE⟩ : PMItem)).countP
          PMItem.busy = 0 := by
        rw [List.countP_map]
        exact List.countP_eq_zero.mpr fun x _ => by simp [PMItem.busy, PM_IDLE, PM_BUSY]
      simp only [busyPins, hzero, Nat.cast_zero]

theorem Counted.monitor {d : PM} (h : d.Counted) (now : Timespec) : (d.monitor now).Counted := by
  constructor
  · intro x hx
    obtain ⟨y, hy, rfl⟩ := List.mem_map.mp hx
    exact h.outputs y hy
  · have hsame : PMItem.busy ∘ PM.count now = PMItem.busy := rfl
    rw [busyPins, PM.monitor, List.countP_map, hsame]
    exact h.count

/-- The pins of a swap are different ones, and one is busy after it as before. -/
theorem swap_counts {d : PM} {now : Timespec} {lo hi : ℕ × PMItem}
    (h : d.swapPins now = some (lo, hi)) :
    lo.2.output = PM_IDLE ∧ hi.2.output = PM_BUSY ∧ (d.swap now).busyPins = d.busyPins := by
  obtain ⟨hlo, hhi⟩ := swapPins_best h
  have hidle : lo.2.output = PM_IDLE := of_decide_eq_true hlo.prop
  have hbusy : hi.2.output = PM_BUSY := of_decide_eq_true hhi.prop
  -- the pins are two, so that the second one is still busy when the first is on
  have hne : lo.1 ≠ hi.1 := by
    intro heq
    have hsame : lo.2 = hi.2 := Option.some.inj (hlo.get.symm.trans (heq ▸ hhi.get))
    rw [hsame, hbusy] at hidle
    exact absurd hidle (by decide)
  have hon := countP_enter hlo.get PM_BUSY now
  have hget : (d.item.set lo.1 (lo.2.enter PM_BUSY now))[hi.1]? = some hi.2 := by
    rw [List.getElem?_set_ne hne]
    exact hhi.get
  have hoff := countP_enter hget PM_IDLE now
  have hlo' : lo.2.busy = false := by rw [PMItem.busy, hidle]; decide
  rw [hlo', if_neg Bool.false_ne_true, if_pos rfl] at hon
  rw [hhi.prop, if_pos rfl, if_neg (by decide), hon] at hoff
  refine ⟨hidle, hbusy, ?_⟩
  rw [busyPins, swap_item_some h, hidle, hbusy]
  exact Nat.add_right_cancel hoff

theorem Counted.swap {d : PM} (h : d.Counted) (now : Timespec) : (d.swap now).Counted := by
  rcases hpins : d.swapPins now with _ | ⟨lo, hi⟩
  · have hitem := swap_item_none hpins
    exact ⟨by rw [hitem]; exact h.outputs, by rw [busyPins, hitem]; exact h.count⟩
  · obtain ⟨hidle, hbusy, hcount⟩ := swap_counts hpins
    refine ⟨?_, by rw [hcount]; exact h.count⟩
    rw [swap_item_some hpins, hidle, hbusy]
    exact forall_set (forall_set h.outputs _ (.inl rfl)) _ (.inr rfl)

theorem Counted.turn_on {d : PM} (h : d.Counted) {r : ℕ × PMItem}
    (hget : d.item[r.1]? = some r.2) (hidle : r.2.idle = true) (now : Timespec) :
    (d.turn r PM_BUSY now (d.busy_pin_num + 1)).Counted ∧
      (d.turn r PM_BUSY now (d.busy_pin_num + 1)).busyPins = d.busyPins + 1 := by
  have hcount : (d.turn r PM_BUSY now (d.busy_pin_num + 1)).busyPins + _ = d.busyPins + _ :=
    countP_enter hget PM_BUSY now
  have hr : r.2.busy = false := by rw [PMItem.busy, of_decide_eq_true hidle]; decide
  rw [hr, if_neg Bool.false_ne_true, if_pos rfl, Nat.add_zero] at hcount
  refine ⟨⟨forall_set h.outputs _ (.inl rfl), ?_⟩, hcount⟩
  rw [hcount, Nat.cast_succ, ← h.count]
  rfl

theorem Counted.turn_off {d : PM} (h : d.Counted) {r : ℕ × PMItem}
    (hget : d.item[r.1]? = some r.2) (hbusy : r.2.busy = true) (now : Timespec) :
    (d.turn r PM_IDLE now (d.busy_pin_num + -1)).Counted ∧
      (d.turn r PM_IDLE now (d.busy_pin_num + -1)).busyPins + 1 = d.busyPins := by
  have hcount : (d.turn r PM_IDLE now (d.busy_pin_num + -1)).busyPins + _ = d.busyPins + _ :=
    countP_enter hget PM_IDLE now
  rw [hbusy, if_pos rfl, if_neg (by decide), Nat.add_zero] at hcount
  refine ⟨⟨forall_set h.outputs _ (.inr rfl), ?_⟩, hcount⟩
  have hnum : (d.turn r PM_IDLE now (d.busy_pin_num + -1)).busy_pin_num = d.busy_pin_num + -1 := rfl
  have hall := h.count
  rw [hnum]
  omega

/-- The loop finds an idle pin in every turn. -/
theorem Counted.turnOn {d : PM} (h : d.Counted) (now : Timespec) (dif : ℕ)
    (hroom : d.busyPins + dif ≤ d.item.length) :
    (d.turnOn now dif).Counted ∧ (d.turnOn now dif).busyPins = d.busyPins + dif ∧
      (d.turnOn now dif).item.length = d.item.length := by
  refine turnPins_rule (I := fun k e => e.Counted ∧ e.busyPins + k = d.busyPins + dif ∧
    e.item.length = d.item.length) ?_ ⟨h, rfl, rfl⟩
  rintro k e ⟨he, hpins, hlen⟩
  obtain ⟨r, hfound, hget, hidle⟩ := exists_bestPin timespeccmpGt_irrefl timespeccmpGt_trans
    e.idle_min (he.exists_idle (by omega))
  obtain ⟨he', hcount⟩ := he.turn_on hget hidle now
  exact ⟨r, hfound, he', by omega, List.length_set.trans hlen⟩

/-- The loop finds a busy pin in every turn. -/
theorem Counted.turnOff {d : PM} (h : d.Counted) (now : Timespec) (dif : ℕ)
    (hroom : dif ≤ d.busyPins) :
    (d.turnOff now dif).Counted ∧ (d.turnOff now dif).busyPins + dif = d.busyPins ∧
      (d.turnOff now dif).item.length = d.item.length := by
  refine turnPins_rule (I := fun k e => e.Counted ∧ e.busyPins + dif = d.busyPins + k ∧
    e.item.length = d.item.length) ?_ ⟨h, rfl, rfl⟩
  rintro k e ⟨he, hpins, hlen⟩
  obtain ⟨r, hfound, hget, hbusy⟩ := exists_bestPin timespeccmpLt_irrefl timespeccmpLt_trans
    e.busy_min (exists_busy (d := e) (by omega))
  obtain ⟨he', hcount⟩ := he.turn_off hget hbusy now
  exact ⟨r, hfound, he', by omega, List.length_set.trans hlen⟩

theorem clamp_mem (duty_cycle : ℤ) : 0 ≤ clamp duty_cycle ∧ clamp duty_cycle ≤ PM_RSL := by
  unfold clamp PM_RSL
  split_ifs <;> omega

/-- The number of pins that is required of `len` pins. -/
theorem required_mem {duty_cycle : ℤ} (h0 : 0 ≤ duty_cycle) (h1 : duty_cycle ≤ PM_RSL) (len : ℕ) :
    0 ≤ ⌊(duty_cycle : ℚ) * len / PM_RSL⌋ ∧ ⌊(duty_cycle : ℚ) * len / PM_RSL⌋ ≤ len := by
  have hduty : (0 : ℚ) ≤ duty_cycle := Int.cast_nonneg h0
  have hrsl : (0 : ℚ) < PM_RSL := by norm_num [PM_RSL]
  constructor
  · exact Int.floor_nonneg.mpr (div_nonneg (mul_nonneg hduty (Nat.cast_nonneg len)) hrsl.le)
  · apply Int.floor_le_iff.mpr
    have hle : (duty_cycle : ℚ) * len ≤ PM_RSL * len :=
      mul_le_mul_of_nonneg_right (Int.cast_le.mpr h1) (Nat.cast_nonneg len)
    calc (duty_cycle : ℚ) * len / PM_RSL ≤ len := (div_le_iff₀' hrsl).mpr hle
      _ < ((len : ℤ) : ℚ) + 1 := by
        rw [Int.cast_natCast]
        exact lt_add_one _

/-- After the power control as many pins are busy as are required. -/
theorem Counted.power {d : PM} (h : d.Counted) (now : Timespec) {duty_cycle : ℤ}
    (h0 : 0 ≤ duty_cycle) (h1 : duty_cycle ≤ PM_RSL) : (d.power now duty_cycle).Counted ∧
      ((d.power now duty_cycle).busyPins : ℤ) = ⌊(duty_cycle : ℚ) * d.item.length / PM_RSL⌋ ∧
      (d.power now duty_cycle).item.length = d.item.length := by
  obtain ⟨hn0, hn1⟩ := required_mem h0 h1 d.item.length
  -- the source divides first, which is the same over exact numbers
  have hn : ⌊(duty_cycle : ℚ) / PM_RSL * d.item.length⌋ =
      ⌊(duty_cycle : ℚ) * d.item.length / PM_RSL⌋ := by rw [div_mul_eq_mul_div]
  unfold PM.power
  rw [hn]
  -- only the bounds of the number are used from here on
  generalize ⌊(duty_cycle : ℚ) * d.item.length / PM_RSL⌋ = n at hn0 hn1 ⊢
  have hcount := h.count
  dsimp only
  split_ifs with hmore hless
  · obtain ⟨ht, hpins, hlen⟩ := h.turnOn now (n - d.busy_pin_num).toNat (by omega)
    exact ⟨ht, by omega, hlen⟩
  · obtain ⟨ht, hpins, hlen⟩ := h.turnOff now (d.busy_pin_num - n).toNat (by omega)
    exact ⟨ht, by omega, hlen⟩
  · exact ⟨h, by omega, rfl⟩

theorem init_length (now : Timespec) (d : PM) : (d.init now).item.length = d.item.length := by
  unfold init
  split_ifs <;> simp

theorem swap_length (now : Timespec) (d : PM) : (d.swap now).item.length = d.item.length := by
  unfold swap
  dsimp only
  split <;> simp

/-- A call makes as many pins busy as its duty cycle requires. -/
theorem pmctl_counted {d : PM} (h : d.initialized = true → d.Counted) (hitem : d.item ≠ [])
    (now : Timespec) (duty_cycle : ℤ) : (pmctl now duty_cycle d).Counted ∧
      ((pmctl now duty_cycle d).busyPins : ℤ) =
        ⌊(clamp duty_cycle : ℚ) * d.item.length / PM_RSL⌋ ∧
      (pmctl now duty_cycle d).item.length = d.item.length := by
  obtain ⟨h0, h1⟩ := clamp_mem duty_cycle
  have hlen : (((d.init now).monitor now).swap now).item.length = d.item.length := by
    rw [swap_length, monitor, List.length_map, init_length]
  have hready := ((init_counted now h).monitor now).swap now
  obtain ⟨ht, hpins, hlen'⟩ := hready.power now h0 h1
  rw [pmctl, if_neg (List.length_pos_iff.mpr hitem).ne']
  rw [hlen] at hpins hlen'
  exact ⟨ht, hpins, hlen'⟩

theorem calls_counted {d : PM} (hnew : d.initialized = false) (hitem : d.item ≠ [])
    (cs : List (Timespec × ℤ)) : ((d.calls cs).initialized = true → (d.calls cs).Counted) ∧
      (d.calls cs).item.length = d.item.length := by
  induction cs using List.reverseRecOn with
  | nil => exact ⟨fun hinit => absurd (hnew.symm.trans hinit) Bool.false_ne_true, rfl⟩
  | append_singleton cs c ih =>
    have hitem' : (d.calls cs).item ≠ [] := by
      rw [← List.length_pos_iff, ih.2]
      exact List.length_pos_iff.mpr hitem
    obtain ⟨hc, -, hlen⟩ := pmctl_counted ih.1 hitem' c.1 c.2
    rw [calls_concat]
    exact ⟨fun _ => hc, hlen.trans ih.2⟩

/-- After every call of a history the busy pins are as many as `busy_pin_num` says and as the duty
cycle of the call requires. -/
theorem pmctl_busy_pins {d : PM} (hnew : d.initialized = false) (hitem : d.item ≠ [])
    (cs : List (Timespec × ℤ)) (now : Timespec) (duty_cycle : ℤ) :
    ((d.calls (cs ++ [(now, duty_cycle)])).busyPins : ℤ) =
        (d.calls (cs ++ [(now, duty_cycle)])).busy_pin_num ∧
      (d.calls (cs ++ [(now, duty_cycle)])).busy_pin_num =
        ⌊(clamp duty_cycle : ℚ) * d.item.length / PM_RSL⌋ := by
  obtain ⟨hready, hlen⟩ := calls_counted hnew hitem cs
  have hitem' : (d.calls cs).item ≠ [] := by
    rw [← List.length_pos_iff, hlen]
    exact List.length_pos_iff.mpr hitem
  obtain ⟨hc, hpins, -⟩ := pmctl_counted hready hitem' now duty_cycle
  rw [hlen] at hpins
  rw [calls_concat]
  exact ⟨hc.count.symm, hc.count.trans hpins⟩

/-- The last theorem for three pins and a duty cycle that is out of range. -/
theorem pmctl_busy_pins_three :
    ((((new 3 ⟨5, 0⟩).calls ([(⟨1, 0⟩, 40)] ++ [(⟨2, 0⟩, 140)])).busyPins : ℤ) =
        ((new 3 ⟨5, 0⟩).calls ([(⟨1, 0⟩, 40)] ++ [(⟨2, 0⟩, 140)])).busy_pin_num ∧
      ((new 3 ⟨5, 0⟩).calls ([(⟨1, 0⟩, 40)] ++ [(⟨2, 0⟩, 140)])).busy_pin_num =
        ⌊(clamp 140 : ℚ) * (new 3 ⟨5, 0⟩).item.length / PM_RSL⌋) :=
  pmctl_busy_pins rfl (by simp [new]) [(⟨1, 0⟩, 40)] ⟨2, 0⟩ 140

end Regonf.PM
