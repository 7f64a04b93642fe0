import Regonf.RegonfhcThreshold

/-! Progress: as long as the readings ask for the other mechanism, it comes on when the change gap
is over. -/
namespace Regonf

variable {R : Type*} [Zero R] [Add R] [Sub R] [LT R] [DecidableLT R]

/-- The reading `v` asks for the mechanism to be switched on. -/
def Asks (item : RegOnfHC R) (v : R) : EMName → Prop
  | .heater => v < item.goal - item.heater.delta
  | .cooler => v > item.goal + item.cooler.delta

instance (item : RegOnfHC R) (v : R) (n : EMName) : Decidable (Asks item v n) :=
  match n with
  | .heater => inferInstanceAs (Decidable (_ < _))
  | .cooler => inferInstanceAs (Decidable (_ > _))

omit [Zero R] in
theorem asks_iff {item : RegOnfHC R} {inp : ControlInput R} {f : FTS R}
    (hf : inp.snsr.fts? = some f) (n : EMName) :
    valIsLow (readSensor ⟨item, []⟩ inp.snsr).item n = true ↔ Asks item f.value n := by
  cases n <;> simp [valIsLow, readSensor, readSensorFTS, hf, Asks]

/-- A reading that asks to leave `n` for the other mechanism, taken on a normalised clock. -/
structure Wants (item : RegOnfHC R) (n : EMName) (inp : ControlInput R) : Prop where
  reading : ∃ f, inp.snsr.fts? = some f ∧ Beyond item f.value n ∧ Asks item f.value n.other ∧
    ¬Beyond item f.value n.other
  first : inp.gapFirst.Normalised
  now : inp.gapNow.Normalised

/-- What control steps in `REG_BUSY` leave alone. -/
def SameConfig (cfg item : RegOnfHC R) : Prop :=
  item.goal = cfg.goal ∧ item.change_gap = cfg.change_gap ∧
    ∀ k, (item.em k).delta = (cfg.em k).delta ∧ (item.em k).use = (cfg.em k).use ∧
      (item.em k).em.pwm_rsl = (cfg.em k).em.pwm_rsl

omit [Zero R] [LT R] [DecidableLT R] [Add R] [Sub R] in
theorem SameConfig.trans {a b c : RegOnfHC R} (h : SameConfig a b) (h' : SameConfig b c) :
    SameConfig a c :=
  ⟨h'.1.trans h.1, h'.2.1.trans h.2.1, fun k => ⟨(h'.2.2 k).1.trans (h.2.2 k).1,
    (h'.2.2 k).2.1.trans (h.2.2 k).2.1, (h'.2.2 k).2.2.trans (h.2.2 k).2.2⟩⟩

omit [Zero R] [DecidableLT R] in
theorem SameConfig.thresholds {cfg item : RegOnfHC R} (h : SameConfig cfg item) (v : R)
    (n : EMName) : (Beyond item v n ↔ Beyond cfg v n) ∧ (Asks item v n ↔ Asks cfg v n) := by
  obtain ⟨hg, -, hk⟩ := h
  have hh := (hk .heater).1
  have hc := (hk .cooler).1
  simp only [RegOnfHC.em] at hh hc
  cases n <;> simp only [Beyond, Asks, hg, hh, hc, and_self]

omit [Zero R] [DecidableLT R] in
theorem Wants.of_same {cfg item : RegOnfHC R} {n : EMName} {inp : ControlInput R}
    (hw : Wants cfg n inp) (h : SameConfig cfg item) : Wants item n inp := by
  obtain ⟨⟨f, hf, hb, ha, hk⟩, hfirst, hnow⟩ := hw
  refine ⟨⟨f, hf, (h.thresholds f.value n).1.mpr hb, (h.thresholds f.value n.other).2.mpr ha, ?_⟩,
    hfirst, hnow⟩
  rwa [(h.thresholds f.value n.other).1]

variable [BEq R]

/-- A step of `REG_BUSY` with a reading: what it keeps, and what it does to the gap timer. -/
theorem busy_keeps {t t' : RegOnfHC R} {o : List (Request R)} {inp : ControlInput R} {n : EMName}
    (hu : Unsecured t) (hb : t.state = .regBusy) (hn : t.state_r = n.state)
    (hf : inp.snsr.fts?.isSome = true) (hs : step t (.control inp) = some (t', o)) :
    t'.state = .regBusy ∧ SameConfig t t' ∧
      t'.tmr = if valIsOut (readSensor ⟨t, []⟩ inp.snsr).item n && (t.em n.other).use
        then (tonTs t.change_gap t.tmr inp.gapFirst inp.gapNow).2
        else { t.tmr with ready := false } := by
  -- `w₁` is the regulator after the reading; the watchdog is off, so nothing follows the drive
  obtain ⟨w₁, hw₁, -, hw⟩ := controlBusy_driven hn hf
  have ha : (busyDrive (busyChange w₁ n inp) (driven t n inp)).item.secure_out.active = false := by
    simp [hw₁, readSensor, hu.1]
  simp only [step, regonfhcControl, hb, hw, Option.map_some, Option.some.injEq, Prod.mk.injEq,
    busySecure_inactive ha] at hs
  obtain ⟨rfl, -⟩ := hs
  have hem (k : EMName) : w₁.item.em k = t.em k := by rw [hw₁]; cases k <;> rfl
  have hg : w₁.item.goal = t.goal ∧ w₁.item.change_gap = t.change_gap ∧ w₁.item.tmr = t.tmr ∧
      w₁.item.state = t.state := by
    rw [hw₁]
    exact ⟨rfl, rfl, rfl, rfl⟩
  have hv : valIsOut w₁.item n = valIsOut (readSensor ⟨t, []⟩ inp.snsr).item n :=
    (thresholds_congr (by rw [hw₁]; rfl) (by rw [hw₁]; rfl)
      (fun k => by rw [hw₁]; cases k <;> rfl) n).1
  refine ⟨by simp [hg, hb], ⟨by simp [hg], by simp [hg], fun k => ?_⟩, ?_⟩
  · rw [← hem k]
    simp
  -- the timer is that of the handover check
  rw [← hv, ← hem n.other, ← hg.2.1, ← hg.2.2.1]
  simp only [busyDrive_frame]
  rcases busyChange_cases w₁ n inp with ⟨h₁, h₂, -, he⟩ | ⟨h₁, h₂, -, he⟩ | ⟨h₁, he⟩
  · simp [he, h₁, h₂]
  · simp [he, h₁, h₂]
  · rw [he, if_neg (by simpa using h₁)]
    rfl

/-- On the way from `n` to the other mechanism: the gap timer runs since `start`, or the other one
has been handed over to. -/
def Heading (n : EMName) (start : Timespec) (item : RegOnfHC R) : Prop :=
  item.state_r = n.state ∧ item.tmr = ⟨start, true⟩ ∨
    item.state_r = n.other.state ∧ item.state_onf = .regDo

/-- What holds while `REG_BUSY` regulates. -/
structure Busy (cfg item : RegOnfHC R) (h : List (Request R)) : Prop where
  state : item.state = .regBusy
  onf : item.state_onf = .regDo ∨ item.state_onf = .regWait
  unsecured : Unsecured item
  tracked : EMTracked item h
  same : SameConfig cfg item

section
variable {cfg t : RegOnfHC R} {h : List (Request R)} {n : EMName} {inp : ControlInput R}

/-- A step with a reading that asks for `m`, where `m` is driven. -/
theorem Busy.step {m : EMName} (hb : Busy cfg t h) (hn : t.state_r = n.state)
    (hf : inp.snsr.fts?.isSome = true) :
    ∃ t' o, Regonf.step t (.control inp) = some (t', o) ∧ Busy cfg t' (h ++ o) ∧
      t'.state_r = (driven t n inp).state ∧
      (∀ k, commanded k (h ++ o) =
        if k = driven t n inp ∧ (t.em k).use = true ∧ t.state_onf = .regDo
        then (t.em k).em.pwm_rsl else 0) ∧
      (driven t n inp = m → valIsOut (readSensor ⟨t, []⟩ inp.snsr).item m = false →
        valIsLow (readSensor ⟨t, []⟩ inp.snsr).item m = true → t'.state_onf = .regDo) ∧
      t'.tmr = if valIsOut (readSensor ⟨t, []⟩ inp.snsr).item n && (t.em n.other).use
        then (tonTs t.change_gap t.tmr inp.gapFirst inp.gapNow).2
        else { t.tmr with ready := false } := by
  obtain ⟨t', o, hs, hr, hc, ho⟩ := busy_outputs hb.tracked hb.state hn hb.onf hf
  obtain ⟨hst, hsame, htmr⟩ := busy_keeps hb.unsecured hb.state hn hf hs
  have honf : t'.state_onf = .regDo ∨ t'.state_onf = .regWait := by
    rw [ho]
    split_ifs <;> simp
  refine ⟨t', o, hs, ⟨hst, honf, step_unsecured hb.unsecured hs, step_tracked hb.tracked hs,
    hb.same.trans hsame⟩, hr, hc, fun hm hout hlow => ?_, htmr⟩
  rw [ho, hm, hout, hlow]
  simp

/-- Before the handover a step starts the timer or finds it running, and hands over when the gap is
over. -/
theorem Busy.step_before (hb : Busy cfg t h) (hn : t.state_r = n.state)
    (hu : (cfg.em n.other).use = true) (hw : Wants cfg n inp) (hg : cfg.change_gap.Normalised)
    (hs : (t.tmr.armed.getD inp.gapFirst).Normalised) :
    ∃ t' o, Regonf.step t (.control inp) = some (t', o) ∧ Busy cfg t' (h ++ o) ∧
      if cfg.change_gap.ns < inp.gapNow.ns - (t.tmr.armed.getD inp.gapFirst).ns
      then t'.state_r = n.other.state ∧ t'.state_onf = .regDo
      else t'.state_r = n.state ∧ t'.tmr = ⟨t.tmr.armed.getD inp.gapFirst, true⟩ := by
  obtain ⟨⟨f, hf, hout, hlow, hkeep⟩, hfirst, hnow⟩ := hw.of_same hb.same
  rw [← beyond_iff hf] at hout hkeep
  rw [← asks_iff hf] at hlow
  obtain ⟨t', o, hstep, hb', hr, -, ho, htmr⟩ :=
    hb.step (m := n.other) hn (by rw [hf]; rfl)
  have huse : (t.em n.other).use = true := (hb.same.2.2 n.other).2.1.trans hu
  have hgap : t.change_gap = cfg.change_gap := hb.same.2.1
  have hpassed := TonTs.passed_iff hg hs hnow
  have hton := tonTs_eq cfg.change_gap t.tmr inp.gapFirst inp.gapNow
  refine ⟨t', o, hstep, hb', ?_⟩
  rw [hout, huse, hgap] at htmr
  -- the timer fires in this step, or runs on
  split_ifs with hlate
  · rw [if_pos (hpassed.mpr hlate)] at hton
    have hd : driven t n inp = n.other := by
      simp [driven, handsOver, hout, huse, hgap, hton]
    exact ⟨by rw [hr, hd], ho hd (by simpa using hkeep) hlow⟩
  · rw [if_neg (mt hpassed.mp hlate)] at hton
    have hd : driven t n inp = n := by
      simp [driven, handsOver, hton, hgap]
    exact ⟨by rw [hr, hd], by simpa [hton] using htmr⟩

/-- After the handover a step drives the other mechanism. -/
theorem Busy.step_after (hb : Busy cfg t h) (hn : t.state_r = n.other.state)
    (ho : t.state_onf = .regDo) (hu : (cfg.em n.other).use = true) (hw : Wants cfg n inp) :
    ∃ t' o, Regonf.step t (.control inp) = some (t', o) ∧ Busy cfg t' (h ++ o) ∧
      t'.state_r = n.other.state ∧ t'.state_onf = .regDo ∧
      commanded n.other (h ++ o) = (cfg.em n.other).em.pwm_rsl ∧ commanded n (h ++ o) = 0 := by
  obtain ⟨⟨f, hf, -, hlow, hkeep⟩, -, -⟩ := hw.of_same hb.same
  rw [← beyond_iff hf, Bool.not_eq_true] at hkeep
  rw [← asks_iff hf] at hlow
  obtain ⟨t', o, hstep, hb', hr, hc, honf, -⟩ :=
    hb.step (m := n.other) hn (by rw [hf]; rfl)
  -- the reading keeps to the threshold of the other mechanism, so it is not handed back
  have hd : driven t n.other inp = n.other := by
    simp [driven, handsOver, hkeep]
  obtain ⟨-, huse, hrsl⟩ := hb.same.2.2 n.other
  refine ⟨t', o, hstep, hb', by rw [hr, hd], honf hd hkeep hlow, ?_, ?_⟩
  · rw [hc, hd, if_pos ⟨rfl, huse.trans hu, ho⟩, hrsl]
  · rw [hc, hd, if_neg fun hk => EMName.other_ne n hk.1.symm]

/-- A step on the way. -/
theorem Busy.step_heading {start : Timespec} (hb : Busy cfg t h) (hh : Heading n start t)
    (hu : (cfg.em n.other).use = true) (hw : Wants cfg n inp) (hg : cfg.change_gap.Normalised)
    (hs : start.Normalised) :
    ∃ t' o, Regonf.step t (.control inp) = some (t', o) ∧ Busy cfg t' (h ++ o) ∧
      Heading n start t' ∧ (cfg.change_gap.ns < inp.gapNow.ns - start.ns →
        t'.state_r = n.other.state ∧ t'.state_onf = .regDo) := by
  -- before the handover, and after it
  rcases hh with ⟨hn, htmr⟩ | ⟨hn, ho⟩
  · have harmed : t.tmr.armed.getD inp.gapFirst = start := by
      rw [htmr]
      rfl
    obtain ⟨t', o, hstep, hb', hcase⟩ := hb.step_before hn hu hw hg (harmed ▸ hs)
    rw [harmed] at hcase
    refine ⟨t', o, hstep, hb', ?_, fun hlate => by rwa [if_pos hlate] at hcase⟩
    split_ifs at hcase
    · exact Or.inr hcase
    · exact Or.inl hcase
  · obtain ⟨t', o, hstep, hb', hn', ho', -⟩ := hb.step_after hn ho hu hw
    exact ⟨t', o, hstep, hb', Or.inr ⟨hn', ho'⟩, fun _ => ⟨hn', ho'⟩⟩

/-- A run on the way, to its end. -/
theorem Busy.run_heading {start : Timespec} {is : List (ControlInput R)} (hb : Busy cfg t h)
    (hh : Heading n start t) (hu : (cfg.em n.other).use = true) (hw : ∀ inp ∈ is, Wants cfg n inp)
    (hg : cfg.change_gap.Normalised) (hs : start.Normalised) :
    ∃ t' o, Controller.run Regonf.step t (is.map .control) = some (t', o) ∧ Busy cfg t' (h ++ o) ∧
      Heading n start t' := by
  induction is generalizing t h with
  | nil => exact ⟨t, [], rfl, by rwa [List.append_nil], hh⟩
  | cons inp is ih =>
    obtain ⟨hwi, hw⟩ := List.forall_mem_cons.mp hw
    obtain ⟨t₁, o₁, hstep, hb₁, hh₁, -⟩ := hb.step_heading hh hu hwi hg hs
    obtain ⟨t', o, hrun, hb', hh'⟩ := ih hb₁ hh₁ hw
    exact ⟨t', o₁ ++ o, Controller.run_cons_some.mpr ⟨t₁, o₁, o, hstep, hrun, rfl⟩,
      by rwa [← List.append_assoc], hh'⟩

/-- A run after the handover. -/
theorem Busy.run_after {is : List (ControlInput R)} (hb : Busy cfg t h)
    (hn : t.state_r = n.other.state) (ho : t.state_onf = .regDo)
    (hu : (cfg.em n.other).use = true) (hw : ∀ inp ∈ is, Wants cfg n inp) (hne : is ≠ []) :
    ∃ t' o, Controller.run Regonf.step t (is.map .control) = some (t', o) ∧
      commanded n.other (h ++ o) = (cfg.em n.other).em.pwm_rsl ∧ commanded n (h ++ o) = 0 := by
  induction is generalizing t h with
  | nil => exact absurd rfl hne
  | cons inp is ih =>
    obtain ⟨hwi, hw⟩ := List.forall_mem_cons.mp hw
    obtain ⟨t₁, o₁, hstep, hb₁, hn₁, ho₁, hc⟩ := hb.step_after hn ho hu hwi
    -- the last step is the one whose commands stand
    cases is with
    | nil =>
      exact ⟨t₁, o₁, Controller.run_cons_some.mpr ⟨t₁, o₁, [], hstep, rfl, by simp⟩, hc⟩
    | cons inp' is =>
      obtain ⟨t', o, hrun, hc'⟩ := ih hb₁ hn₁ ho₁ hw (List.cons_ne_nil _ _)
      refine ⟨t', o₁ ++ o, Controller.run_cons_some.mpr ⟨t₁, o₁, o, hstep, hrun, rfl⟩, ?_⟩
      rwa [← List.append_assoc]

end

theorem run_unsecured {item t : RegOnfHC R} {h : List (Request R)} {is : List (Input R)}
    (hl : Loaded item) (ha : item.secure_out.active = false)
    (hr : Controller.run step item is = some (t, h)) : Unsecured t :=
  Controller.run_invariant (P := fun _ => True) (I := fun t _ => Unsecured t)
    (fun _ _ _ _ _ hu _ hs => step_unsecured hu hs) (hl.unsecured ha) (fun _ _ => trivial)
    (h := []) hr

/-- While `n` regulates and every reading is beyond its threshold and asks for the other mechanism,
then `n` is off and the other one on, at its full output, from the step on that follows the first
one at which the change gap has passed since the first such reading. So the gap does not only keep
the two apart: it is all that the other mechanism waits for. -/
theorem other_mechanism_comes_on {item t : RegOnfHC R} {h : List (Request R)} {is : List (Input R)}
    {n : EMName} {first late : ControlInput R} {mid rest : List (ControlInput R)}
    (hl : Loaded item) (ha : item.secure_out.active = false)
    (hr : Controller.run step item is = some (t, h)) (hb : t.state = .regBusy)
    (hn : t.state_r = n.state) (hu : (t.em n.other).use = true)
    (hg : t.change_gap.Normalised)
    (ht : t.tmr.ready = true → t.tmr.start.Normalised ∧ t.tmr.start.ns ≤ first.gapFirst.ns)
    (hw : ∀ inp ∈ first :: mid ++ late :: rest, Wants t n inp) (hne : rest ≠ [])
    (hlate : t.change_gap.ns < late.gapNow.ns - first.gapFirst.ns) :
    ∃ t' o, Controller.run step t ((first :: mid ++ late :: rest).map .control) = some (t', o) ∧
      commanded n.other (h ++ o) = (t.em n.other).em.pwm_rsl ∧ commanded n (h ++ o) = 0 := by
  have hbusy : Busy t t h := ⟨hb, (run_names hl hr (Or.inl hb)).2, run_unsecured hl ha hr,
    run_tracked hl hr, rfl, rfl, fun k => ⟨rfl, rfl, rfl⟩⟩
  rw [List.cons_append, List.forall_mem_cons, List.forall_mem_append, List.forall_mem_cons] at hw
  obtain ⟨hwf, hwm, hwl, hwr⟩ := hw
  -- the timer counts from an earlier reading or from the first of these
  set start := t.tmr.armed.getD first.gapFirst with hstart
  have hs : start.Normalised ∧ start.ns ≤ first.gapFirst.ns := by
    rw [hstart, TonTs.armed_getD]
    split_ifs with hready
    · exact ht hready
    · exact ⟨hwf.first, le_rfl⟩
  obtain ⟨t₁, o₁, hstep₁, hb₁, hcase⟩ := hbusy.step_before hn hu hwf hg hs.1
  have hh₁ : Heading n start t₁ := by
    rw [← hstart] at hcase
    split_ifs at hcase
    · exact Or.inr hcase
    · exact Or.inl hcase
  obtain ⟨t₂, o₂, hrun₂, hb₂, hh₂⟩ := hb₁.run_heading hh₁ hu hwm hg hs.1
  obtain ⟨t₃, o₃, hstep₃, hb₃, -, hover⟩ := hb₂.step_heading hh₂ hu hwl hg hs.1
  -- at `late` the gap is over, whenever the timer was started
  obtain ⟨hn₃, ho₃⟩ := hover (by omega)
  obtain ⟨t₄, o₄, hrun₄, hc⟩ := hb₃.run_after hn₃ ho₃ hu hwr hne
  refine ⟨t₄, o₁ ++ (o₂ ++ (o₃ ++ o₄)), ?_, by simpa only [List.append_assoc] using hc⟩
  rw [List.cons_append, List.map_cons, List.map_append, List.map_cons]
  exact Controller.run_cons_some.mpr ⟨t₁, o₁, _, hstep₁, Controller.run_append_some.mpr ⟨t₂, o₂, _,
    hrun₂, Controller.run_cons_some.mpr ⟨t₃, o₃, _, hstep₃, hrun₄, rfl⟩, rfl⟩, rfl⟩

/-- The last theorem for a heater that is left at 26 degrees, with a gap of half an hour. -/
theorem other_mechanism_comes_on_example :
    ∃ t h, Controller.run step exampleProg [exampleControl 0 (some 240),
        exampleControl 1 (some 240), exampleControl 2 (some 240)] = some (t, h) ∧
      ∃ t' o, Controller.run step t
          ((exampleReading 3 (some 260) :: [exampleReading 900 (some 261)] ++
            exampleReading 1804 (some 262) :: [exampleReading 1805 (some 262)]).map .control) =
              some (t', o) ∧
        commanded .cooler (h ++ o) = 1000 ∧ commanded .heater (h ++ o) = 0 := by
  have hr : Controller.run step exampleProg [exampleControl 0 (some 240),
    exampleControl 1 (some 240), exampleControl 2 (some 240)] = some (_, _) := rfl
  refine ⟨_, _, hr, other_mechanism_comes_on exampleProg_loaded rfl hr rfl
    (n := .heater) rfl rfl (by decide) (by decide) (fun inp hi => ?_) (by simp) (by decide)⟩
  simp only [List.cons_append, List.nil_append, List.mem_cons, List.not_mem_nil, or_false] at hi
  rcases hi with rfl | rfl | rfl | rfl <;>
    exact ⟨⟨_, rfl, by decide, by decide, by decide⟩, by decide, by decide⟩

end Regonf
