import Regonf.DaemonEvolves

/-! Filling a program from the database: `getProgByIdFDB` and its callbacks. -/
namespace Regonf

open Script LinkedList

variable {R : Type} [Zero R] {clean stored : Prop} {v : View R} {ps : List Ptr}

/-- The regulator of a row has its outputs at 0. -/
theorem regOfRow_tracked (row : ProgRow R) (sensor : SensorFTS R) (heater cooler : EM R)
    (secure_out : Option (RegSecure R)) (green : Option (SensorFTS R)) :
    EMTracked (regOfRow row sensor heater cooler secure_out green) [] := by
  intro n
  unfold regOfRow
  dsimp only
  split_ifs <;> cases n <;> exact ⟨rfl, fun _ => rfl⟩

/-- A program that has been allocated and is not yet in the list. -/
structure Fresh (b : Block R) (id : ℤ) : Prop where
  id : b.id = id
  next : b.next = none
  mem : b.mem = .allocated
  held : b.held = false
  thread : b.thread = .absent
  unused : b.unused = true
  quiet : b.quiet
  loadable : Loadable b

/-- A program that was never started is dead. -/
theorem Fresh.dead {b : Block R} {id : ℤ} (h : Fresh b id) : Dead b :=
  ⟨by rw [h.thread]; decide, h.held, h.quiet⟩

theorem safe_dbOpen {dbl : Bool} (ha : FreedDead clean v) :
    Safely clean stored (dbOpen dbl) (fun o w => w = v ∧ (stored → o = true)) v := by
  unfold dbOpen
  split_ifs
  · exact safe_pure ha ⟨rfl, fun _ => rfl⟩
  · exact safe_attempt (f := Pure.pure) ha fun o _ hs =>
      safe_pure ha ⟨rfl, fun h => hs h (by simp)⟩

/-- A query whose callback keeps an invariant. If the query fails, the outcome of a step of
the query was admitted. -/
theorem safe_dbExec {Row : Type} {w : Fallible} {callback : Row → Main R Bool}
    {rows : List Row} {I : View R → Prop} (ha : ∀ u, I u → FreedDead clean u)
    (hcb : ∀ row ∈ rows, ∀ u, I u →
      Safely clean stored (callback row) (fun ok u' => ok = true ∧ I u') u) (hv : I v) :
    Safely clean stored (dbExec w callback rows)
      (fun o u => I u ∧ (o = false → (clean → CleanOutcome w false u.globals.prog_list) ∧
        (stored → StoredOutcome w false))) v := by
  -- a query fails at one of its steps, since its callback does not
  induction rows generalizing v with
  | nil =>
    refine safe_attempt (f := Pure.pure) (ha v hv) fun o hc hs => safe_pure (ha v hv) ⟨hv, ?_⟩
    rintro rfl
    exact ⟨hc, hs⟩
  | cons row rows ih =>
    apply safe_attempt (ha v hv)
    intro o hc hs
    cases o with
    | false => exact safe_pure (ha v hv) ⟨hv, fun _ => ⟨hc, hs⟩⟩
    | true =>
      apply (hcb row List.mem_cons_self v hv).seq
      intro ok u hu
      obtain ⟨rfl, hu⟩ := hu
      exact ih (fun r hr => hcb r (List.mem_cons_of_mem row hr)) hu

theorem safe_regGetSecureFDB {id : ℤ} (ha : FreedDead clean v) :
    Safely clean stored (regGetSecureFDB id)
      (fun r w => w = v ∧ (stored →
        r = secureOfRows (v.globals.db.secure.filter fun row => row.id = id))) v := by
  apply safe_globals ha
  have hexec : Safely clean stored
      (dbExec .secureStep (fun _ => return true)
        (v.globals.db.secure.filter fun row => row.id = id))
      (fun o u => u = v ∧ (o = false →
        (clean → CleanOutcome .secureStep false u.globals.prog_list) ∧
        (stored → StoredOutcome .secureStep false))) v :=
    safe_dbExec (fun u hu => hu ▸ ha) (fun _ _ u hu => safe_pure (hu ▸ ha) ⟨rfl, hu⟩) rfl
  apply hexec.seq
  intro o u hu
  obtain ⟨rfl, ho⟩ := hu
  cases o with
  | false =>
    refine safe_pure ha ⟨rfl, fun hs => ?_⟩
    exact absurd ((ho rfl).2 hs (by simp)) Bool.false_ne_true
  | true => exact safe_pure ha ⟨rfl, fun _ => rfl⟩

variable [Sqlite R]

theorem safe_saveTableField {id : ℤ} {c : Column R} {dbl : Bool} (ha : FreedDead clean v) :
    Safely clean stored (saveTableField id c dbl)
      (fun _ w => (w = v ∧ ¬ stored) ∨ w = { v with globals := v.globals.saved id c }) v := by
  apply (safe_dbOpen ha).seq
  intro o w hw
  obtain ⟨rfl, ho⟩ := hw
  cases o with
  | false => exact safe_pure ha (Or.inl ⟨rfl, fun hs => absurd (ho hs) Bool.false_ne_true⟩)
  | true =>
    apply safe_attempt ha
    intro o _ hs
    cases o with
    | false =>
      exact safe_pure ha
        (Or.inl ⟨rfl, fun h => absurd (hs h (by simp)) Bool.false_ne_true⟩)
    | true => exact safe_setGlobals_last ha (Or.inr rfl)

omit [Zero R] in
/-- Saving `load` keeps the ids of the table. -/
theorem saved_load_id {g : Globals R} {id x i : ℤ} :
    (∃ row ∈ (g.saved id (.load x)).db.prog.rows, row.id = i) ↔
      ∃ row ∈ g.db.prog.rows, row.id = i :=
  ProgTable.exists_id_set id i (.load x)

/-- A program keeps its row when 1 is saved, or when the row of another id is written. -/
theorem FromRow.saved_load {g : Globals R} {b : Block R} {id x : ℤ} (h : FromRow g b)
    (hx : x = 1 ∨ b.id ≠ id) : FromRow (g.saved id (.load x)) b := by
  obtain ⟨row, hrow, hid, hload, hreg⟩ := h
  refine ⟨_, ProgTable.set_mem id (.load x) hrow, ?_⟩
  -- the row of the program is the one that is written, or it is not
  split_ifs with he
  · have hx1 : x = 1 := hx.resolve_right fun hne => hne (hid.symm.trans he)
    exact ⟨hid, hx1, hreg⟩
  · exact ⟨hid, hload, hreg⟩

theorem Owned.saved_load (h : Owned clean stored v ps) {id x : ℤ}
    (hx : x = 1 ∨ ∀ p ∈ ps, (v.cell p).id ≠ id) :
    Owned clean stored { v with globals := v.globals.saved id (.load x) } ps where
  toListed :=
    { h.toListed with known := fun hs p ht => saved_load_id.mpr (h.known hs p ht) }
  live := h.live
  rows := fun hs p hp => (h.rows hs p hp).saved_load (hx.imp_right fun hne => hne p hp)

omit [Sqlite R] in
theorem safe_fillProg {p : Ptr} {id save : ℤ} {reg : RegOnfHC R} (ha : FreedDead clean v)
    (hm : (v.cell p).mem = .allocated) (hu : (v.cell p).unused = true) :
    Safely clean stored (fillProg p id reg save) (fun _ w => w = v.put p { v.cell p with
      id := id, save := save, loaded := some reg, ops := [], quiet := True }) v := by
  refine safe_access ha (fun _ => hm) fun _ b₁ _ h₁ => ?_
  cases h₁
  refine safe_access (ha.put (Or.inl hm)) (fun _ => ?_) fun _ b₂ _ h₂ => ?_
  · rw [put_cell_self]
    exact hm
  cases h₂
  rw [put_put, put_cell_self]
  refine safe_access_last (ha.put (Or.inl hm)) (fun _ => ?_) fun _ b₃ _ h₃ => ?_
  · rw [put_cell_self]
    exact hm
  cases h₃
  rw [put_put, put_cell_self]
  refine ⟨ha.put (Or.inl hm), ?_⟩
  simp only [hu, ↓reduceIte]

/-- A program being filled: the list keeps its programs, and what is settled does not change. -/
structure Filling (clean stored : Prop) (v : View R) (ps : List Ptr) (p : Ptr) (id : ℤ)
    (w : View R) : Prop where
  owned : Owned clean stored w ps
  fresh : Fresh (w.cell p) id
  ids : ∀ q ∈ ps, (w.cell q).id ≠ id
  cells : ∀ q, q ≠ p → w.cell q = v.cell q
  brk : w.brk = v.brk
  settled : w.globals.settled = v.globals.settled

omit [Sqlite R] in
theorem Filling.put {p : Ptr} {id : ℤ} {b : Block R} (h : Filling clean stored v ps p id v)
    (hp : p ∉ ps) (hb : p < v.brk) (hf : Fresh b id) :
    Filling clean stored v ps p id (v.put p b) := by
  refine ⟨?_, by rw [put_cell_self]; exact hf, fun q hq => ?_, fun q hq => put_cell_of_ne hq,
    rfl, rfl⟩
  · apply h.owned.put_other hp hb hf.held (Or.inl hf.mem) hf.loadable
    -- no thread has been created for it
    intro _ ht
    exact absurd hf.thread ht
  · have hne : q ≠ p := fun he => hp (he ▸ hq)
    rw [put_cell_of_ne hne]
    exact h.ids q hq

theorem Filling.saved {p : Ptr} {id i : ℤ} {w : View R} (h : Filling clean stored v ps p id w) :
    Filling clean stored v ps p id { w with globals := w.globals.saved i (.load 1) } :=
  { h with
    owned := h.owned.saved_load (Or.inl rfl)
    settled := (settled_saved_load w.globals i 1).trans h.settled }

theorem safe_getProgCallback {p : Ptr} {id : ℤ} {row : ProgRow R}
    (h : Filling clean stored v ps p id v) (hp : p ∉ ps) (hb : p < v.brk)
    (hrow : row ∈ v.globals.db.prog.rows) (hid : row.id = id)
    (hload : stored → Resolved v.globals row → row.load = 0 ∨ row.load = 1) :
    Safely clean stored (getProgCallback p row)
      (fun o w => Filling clean stored v ps p id w ∧ (o = true →
        AsFilled w.globals (w.cell p) ∧ (stored → FromRow w.globals (w.cell p)))) v := by
  have ha := h.owned.dead
  apply safe_globals ha
  split
  case h_2 => exact safe_pure ha ⟨h, by simp⟩
  case h_1 sensor heater cooler hs he hc =>
    apply (safe_regGetSecureFDB ha).seq
    intro secure_out u hu
    obtain ⟨rfl, hsec⟩ := hu
    let green := getSensorFTSById row.green_light_sensor_id u.globals.sensor_list
    let secure_rows := u.globals.db.secure.filter fun r => r.id = row.secure_id
    let reg := regOfRow row sensor heater cooler secure_out green
    let b : Block R :=
      { u.cell p with
        id := row.id, save := row.save, loaded := some reg, ops := [], quiet := True }
    have hset : Safely clean stored (fillProg p row.id reg row.save)
        (fun _ w => w = u.put p b) u := safe_fillProg ha h.fresh.mem h.fresh.unused
    apply hset.seq
    intro _ w hw
    subst hw
    have hfresh : Fresh b id :=
      { h.fresh with
        id := hid
        quiet := trivial
        loadable := ⟨reg, rfl, regOfRow_tracked _ _ _ _ _ _⟩ }
    have hfill := h.put hp hb hfresh
    have hcell : (u.put p b).cell p = b := put_cell_self
    have hres : Resolved u.globals row := ⟨by rw [hs]; rfl, by rw [he]; rfl, by rw [hc]; rfl⟩
    have hfilled : AsFilled (u.put p b).globals ((u.put p b).cell p) := by
      intro row' hrow' hid'
      rw [hcell] at hid' ⊢
      rw [u.globals.db.prog.row_unique hrow' hrow hid']
      exact ⟨rfl, rfl, hres, sensor, heater, cooler, secure_out, green, rfl⟩
    have hreg (hst : stored) :
        b.loaded = some (regOfRow row sensor heater cooler (secureOfRows secure_rows) green) := by
      rw [← hsec hst]
    split_ifs with hl
    · -- the flag is 0 and is set to 1
      apply (safe_saveTableField hfill.owned.dead).seq
      intro _ w hw
      rcases hw with ⟨rfl, hns⟩ | rfl
      · exact safe_pure hfill.owned.dead ⟨hfill, fun _ => ⟨hfilled, fun hst => absurd hst hns⟩⟩
      · refine safe_pure hfill.saved.owned.dead ⟨hfill.saved, fun _ => ⟨?_, fun hst => ?_⟩⟩
        · exact hfilled.congr (ProgTable.unloaded_load _ _ _) rfl rfl
        refine ⟨_, ProgTable.set_mem row.id (.load 1) hrow, ?_⟩
        rw [if_pos rfl]
        dsimp only
        rw [hcell]
        exact ⟨rfl, rfl, sensor, heater, cooler, hs, he, hc, hreg hst⟩
    · -- the flag is not 0, so it is 1 already
      refine safe_pure hfill.owned.dead ⟨hfill, fun _ => ⟨hfilled, fun hst => ?_⟩⟩
      refine ⟨row, hrow, ?_⟩
      rw [hcell]
      exact ⟨rfl, (hload hst hres).resolve_left hl, sensor, heater, cooler, hs, he, hc, hreg hst⟩

omit [Zero R] [Sqlite R] in
/-- A query for an id finds one row at most. -/
theorem filter_id (t : ProgTable R) (id : ℤ) :
    (t.rows.filter fun r => r.id = id) = [] ∨
      ∃ row ∈ t.rows, row.id = id ∧ (t.rows.filter fun r => r.id = id) = [row] := by
  have hmem {r : ProgRow R} (hr : r ∈ t.rows.filter fun r => r.id = id) :
      r ∈ t.rows ∧ r.id = id := by
    simpa using hr
  have hn : (t.rows.filter fun r => r.id = id).Nodup := t.nodup.of_map.filter _
  rcases hf : t.rows.filter fun r => r.id = id with _ | ⟨a, _ | ⟨b, l⟩⟩
  · exact Or.inl hf
  · have ha := hmem (r := a) (by simp [hf])
    exact Or.inr ⟨a, ha.1, ha.2, hf⟩
  -- two rows of one id would be the same row twice
  · rw [hf] at hn
    have ha := hmem (r := a) (by simp [hf])
    have hb := hmem (r := b) (by simp [hf])
    have hab : a = b := t.row_unique ha.1 hb.1 (ha.2.trans hb.2.symm)
    exact absurd hab (fun he => (List.nodup_cons.mp hn).1 (by simp [he]))

theorem safe_getProgByIdFDB {p : Ptr} {id : ℤ} {dbl : Bool}
    (h : Filling clean stored v ps p id v) (hp : p ∉ ps) (hb : p < v.brk) :
    Safely clean stored (getProgByIdFDB id p dbl)
      (fun o w => Filling clean stored v ps p id w ∧ (o = true →
        AsFilled w.globals (w.cell p) ∧ (stored → FromRow w.globals (w.cell p)))) v := by
  have ha := h.owned.dead
  apply (safe_dbOpen ha).seq
  intro o w hw
  obtain ⟨rfl, -⟩ := hw
  cases o with
  | false => exact safe_pure ha ⟨h, by simp⟩
  | true =>
    apply safe_lift ha trivial
    intro o rows t hal he
    cases he
    have hfound (hst : stored) : ∃ row ∈ w.globals.db.prog.rows, row.id = id ∧
        (Resolved w.globals row → row.load = 0 ∨ row.load = 1) := hal hst
    rcases filter_id w.globals.db.prog id with hf | ⟨row, hrow, hid, hf⟩
    · -- no row: the query succeeds and the program is as it was
      have hnone : ∀ row ∈ w.globals.db.prog.rows, row.id ≠ id := by
        intro row hrow hid
        have hin : row ∈ w.globals.db.prog.rows.filter fun r => r.id = id := by
          simp [hrow, hid]
        rw [hf] at hin
        cases hin
      rw [hf]
      refine safe_attempt (f := Pure.pure) ha fun o _ _ =>
        safe_pure ha ⟨h, fun _ => ⟨fun row hrow hid => ?_, fun hst => ?_⟩⟩
      · exact absurd (hid.trans h.fresh.id) (hnone row hrow)
      · obtain ⟨row, hrow, hid, -⟩ := hfound hst
        exact absurd hid (hnone row hrow)
    · have hload (hst : stored) : Resolved w.globals row → row.load = 0 ∨ row.load = 1 := by
        obtain ⟨row', hrow', hid', hl⟩ := hfound hst
        rwa [w.globals.db.prog.row_unique hrow' hrow (hid'.trans hid.symm)] at hl
      rw [hf]
      apply safe_attempt ha
      intro o _ _
      cases o with
      | false => exact safe_pure ha ⟨h, by simp⟩
      | true =>
        apply (safe_getProgCallback h hp hb hrow hid hload).seq
        intro o w hw
        cases o with
        | false => exact safe_pure hw.1.owned.dead ⟨hw.1, by simp⟩
        | true =>
          apply safe_attempt (f := Pure.pure) hw.1.owned.dead
          intro o _ _
          exact safe_pure hw.1.owned.dead ⟨hw.1, fun _ => hw.2 rfl⟩

end Regonf
