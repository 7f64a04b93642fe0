import Regonf.DaemonCommands
import Regonf.DaemonSettings

/-! The setters of `serverRun`: what each does to the view of the main thread, and that the
settings in memory and in the row stay in step. -/
namespace Regonf

open Script

variable {R : Type} [Zero R]

/-- What is assumed of the outcomes of the actions. -/
abbrev Outcomes (R : Type) := (β : Type) → Act R β → Bool → View R → Prop

/-- The judgement on a script that may assume `A` and owes nothing but its result. -/
abbrev Given (A : Outcomes R) {α : Type} (c : Main R α) (Q : α → View R → Prop) (v : View R) :
    Prop :=
  Safe (exec blockExec zeroBlock) ⟨A, fun _ _ _ => True, fun _ => True⟩ c Q v

section rules
variable {A : Outcomes R} {α β : Type} {v : View R} {Q : β → View R → Prop} {p : Ptr}

theorem Safe.given {c : Main R β} (h : Safely False False c Q v) : Given A c Q v := by
  refine h.weaken (fun β a o t _ => ?_) (fun _ _ _ _ => trivial) fun _ _ => trivial
  cases a with
  | attempt w => exact ⟨False.elim, False.elim⟩
  | selectProg id => exact False.elim
  | _ => trivial

theorem given_pure {x : β} (hq : Q x v) : Given A (Pure.pure x) Q v := safe_pure trivial hq

theorem given_attempt {w : Fallible} {f : Bool → Main R β}
    (hk : ∀ o, A Bool (.attempt w) o v → Given A (f o) Q v) : Given A (attempt w >>= f) Q v := by
  refine safe_lift trivial trivial fun o b t hal he => ?_
  cases he
  exact hk o hal

theorem given_setGlobals {f : Unit → Main R β} {g : Globals R → Globals R}
    (hk : Given A (f ()) Q { v with globals := g v.globals }) :
    Given A (setGlobals g >>= f) Q v := by
  refine safe_lift trivial trivial fun o b t _ he => ?_
  cases he
  exact hk

theorem given_access {a : CellAct R α} {f : α → Main R β}
    (hk : ∀ x b, (v.cell p).mem = .allocated →
      blockTouch v.globals.app_state α a (v.cell p) = some (x, b) →
      Given A (f x) Q (v.put p b)) : Given A (access p a >>= f) Q v := by
  refine safe_lift trivial trivial fun o x t _ he => ?_
  obtain ⟨⟨y, b⟩, hb, he⟩ := Option.map_eq_some_iff.mp he
  cases he
  simp only [blockExec, Option.ite_none_right_eq_some] at hb
  exact hk y b hb.1 hb.2

end rules

/-- The writes to the database succeed. -/
def SavingOutcome (w : Fallible) (o : Bool) : Prop := w = .dbOpen ∨ w = .save → o = true

instance (w : Fallible) (o : Bool) : Decidable (SavingOutcome w o) :=
  inferInstanceAs (Decidable (_ → _))

def Saving : Outcomes R
  | _, .attempt w, o, _ => SavingOutcome w o
  | _, _, _, _ => True

variable [Sqlite R] {v w : View R} {ps : List Ptr} {p : Ptr} {t : Setter R}

theorem given_saveTableField {id : ℤ} {c : Column R} {Q : Unit → View R → Prop}
    (hq : Q () { v with globals := v.globals.saved id c }) :
    Given Saving (saveTableField id c false) Q v := by
  refine given_attempt fun o ho => ?_
  obtain rfl : o = true := ho (Or.inl rfl)
  refine given_attempt fun o ho => ?_
  obtain rfl : o = true := ho (Or.inr rfl)
  exact given_setGlobals (f := Pure.pure) (given_pure hq)

/-- What a setter makes of the database for a program with the new `save`. -/
def Setter.onDb (t : Setter R) (save id : ℤ) (d : Db R) : Db R :=
  match t.column with
  | none => d
  | some c => if save = 0 then d else { d with prog := dbSaveTableField d.prog id c }

/-- What a setter makes of a program. -/
structure SetTo (t : Setter R) (b b' : Block R) : Prop extends SameProg b b' where
  save : b'.save = t.newSave.getD b.save
  ops : b'.ops = b.ops ++ t.ops

omit [Sqlite R] in
theorem given_ops {ops : List (Op R)} {Q : Unit → View R → Prop}
    (hq : ∀ b, SetTo ⟨ops, none, none⟩ (v.cell p) b → b.held = (v.cell p).held →
      Q () (v.put p b)) :
    Given Saving (ops.forM fun o => access p (.op o)) Q v := by
  induction ops generalizing v with
  | nil =>
    have hsame : SetTo ⟨[], none, none⟩ (v.cell p) (v.cell p) :=
      { id := rfl, next := rfl, mem := rfl, thread := rfl, loaded := rfl, save := rfl
        ops := (List.append_nil _).symm }
    have hput := hq _ hsame rfl
    rw [put_self] at hput
    exact given_pure hput
  | cons o ops ih =>
    -- the operations behind the first start from the program with it
    refine given_access fun _ b _ hb => ih fun b' hset hheld => ?_
    rw [put_cell_self] at hset hheld
    cases hb
    rw [put_put]
    refine hq b' ⟨⟨hset.id, hset.next, hset.mem, hset.thread, hset.loaded⟩, hset.save, ?_⟩ hheld
    rw [hset.ops, List.append_assoc]
    rfl

theorem given_setterBody {id : ℤ} {Q : Unit → View R → Prop}
    (hq : ∀ b, SetTo t (v.cell p) b → b.held = (v.cell p).held →
      Q () ((v.put p b).withDb (t.onDb b.save id v.globals.db))) :
    Given Saving (t.body id p) Q v := by
  -- the column is saved last, if the setter has one and the new `save` is on
  have hcolumn {b : Block R} (hset : SetTo t (v.cell p) b) (hheld : b.held = (v.cell p).held) :
      Given Saving (saveColumn id p t.column) Q (v.put p b) := by
    have hb := hq b hset hheld
    unfold Setter.onDb at hb
    cases hc : t.column with
    | none =>
      rw [hc] at hb
      exact given_pure hb
    | some c =>
      rw [hc] at hb
      refine given_access fun x b' _ hx => ?_
      cases hx
      rw [put_self, put_cell_self]
      dsimp only at hb
      split_ifs at hb ⊢ with h₀
      · exact given_pure hb
      · exact given_saveTableField hb
  have hops : Given Saving (t.ops.forM fun o => access p (.op o)) (fun _ w => ∃ b,
      SetTo ⟨t.ops, none, none⟩ (v.cell p) b ∧ b.held = (v.cell p).held ∧ w = v.put p b) v :=
    given_ops fun b hset hheld => ⟨b, hset, hheld, rfl⟩
  apply hops.seq
  intro _ w hw
  obtain ⟨b, hset, hheld, rfl⟩ := hw
  cases hs : t.newSave with
  | none =>
    exact hcolumn ⟨hset.toSameProg, by rw [hs]; exact hset.save, hset.ops⟩ hheld
  | some x =>
    refine given_access fun _ b' _ hx => ?_
    cases hx
    rw [put_put, put_cell_self]
    exact hcolumn ⟨⟨hset.id, hset.next, hset.mem, hset.thread, hset.loaded⟩, by rw [hs]; rfl,
      hset.ops⟩ hheld

omit [Zero R] [Sqlite R] in
/-- Whether a row is resolved depends on its ids alone. -/
theorem Resolved.congr {g g' : Globals R} {row row' : ProgRow R} (h : Resolved g row)
    (hg : g'.configured = g.configured)
    (hids : (row'.sensor_id, row'.heater_em_id, row'.cooler_em_id) =
      (row.sensor_id, row.heater_em_id, row.cooler_em_id)) : Resolved g' row' := by
  simp only [Globals.configured, Prod.mk.injEq] at hg hids
  unfold Resolved at h ⊢
  rw [hg.1, hg.2, hids.1, hids.2.1, hids.2.2]
  exact h

omit [Zero R] in
/-- A setter leaves the ids of a row alone. -/
theorem Setter.onRow_ids (t : Setter R) (row : ProgRow R) : (t.onRow row).id = row.id ∧
    ((t.onRow row).sensor_id, (t.onRow row).heater_em_id, (t.onRow row).cooler_em_id) =
      (row.sensor_id, row.heater_em_id, row.cooler_em_id) := by
  unfold Setter.onRow
  split
  · exact ⟨rfl, rfl⟩
  · next c _ => cases c <;> exact ⟨rfl, rfl⟩

omit [Zero R] in
/-- The rows after a setter: the one of the program is written to if its `save` is on. -/
theorem Setter.onDb_mem {e : Option Bool} (ht : t.InStep e) {save id : ℤ} {d : Db R}
    {row : ProgRow R} (hrow : row ∈ d.prog.rows) :
    (if row.id = id ∧ save ≠ 0 then t.onRow row else row) ∈ (t.onDb save id d).prog.rows := by
  unfold Setter.onDb Setter.onRow
  cases hc : t.column with
  | none =>
    dsimp only
    rwa [ite_self]
  | some c =>
    dsimp only
    by_cases hs : save = 0
    · rw [if_pos hs, if_neg fun h => h.2 hs]
      exact hrow
    · have hset : dbSaveTableField d.prog id c = d.prog.set id c := by
        cases c with
        | em_mode m => exact if_neg (ht.plain m hc)
        | _ => rfl
      rw [if_neg hs, hset]
      simpa [hs] using ProgTable.set_mem id c hrow

/-- The row of the program and the program in memory are in step: both say what `x` does. -/
structure InStep (id : ℤ) (x : Saved R) (v : View R) (ps : List Ptr) : Prop where
  owned : Owned False False v ps
  save : x.save ≠ 0
  row : ∃ row ∈ v.globals.db.prog.rows, row.id = id ∧ row.saved = x ∧
    ∀ q ∈ ps, (v.cell q).id = id → Resolved v.globals row
  progs : ∀ q ∈ ps, (v.cell q).id = id →
    (v.cell q).save = x.save ∧ (v.cell q).settings = some x.settings

/-- The setter has worked on the program of the id `i`. -/
theorem InStep.set {id i : ℤ} {x : Saved R} {e : Option Bool} {b : Block R}
    (h : InStep id x v ps) (ht : t.InStep e) (hid : (v.cell p).id = i)
    (hset : SetTo t (v.cell p) b) (hheld : b.held = false) (hmem : b.mem = .allocated)
    (hp : p ∈ ps) :
    InStep id (if i = id then x.set t e else x) ((v.put p b).withDb (t.onDb b.save i v.globals.db))
      ps := by
  obtain ⟨row, hrow, hrid, hsaved, hres⟩ := h.row
  have hrid' : row.id = i ↔ i = id := by rw [hrid]; exact eq_comm
  -- the new `save` is on, so the column is saved
  have hsave (he : i = id) : b.save = (x.set t e).save ∧ b.save ≠ 0 := by
    have hb : b.save = t.newSave.getD x.save := by
      rw [hset.save, (h.progs p hp (hid.trans he)).1]
    refine ⟨hb, ?_⟩
    rw [hb]
    cases hn : t.newSave with
    | none => exact h.save
    | some y => exact ht.save y hn
  have hcell (q : Ptr) : ((v.put p b).cell q).id = (v.cell q).id := by
    rcases eq_or_ne q p with rfl | hne
    · rw [put_cell_self, hset.id]
    · rw [put_cell_of_ne hne]
  refine ⟨(h.owned.put_same hset.toSameProg hheld hmem).withDb not_false _, ?_,
    ⟨_, Setter.onDb_mem ht hrow, ?_, ?_, fun q hq hqid => ?_⟩, fun q hq hqid => ?_⟩
  · split_ifs with he
    · rw [← (hsave he).1]
      exact (hsave he).2
    · exact h.save
  · split_ifs
    · exact (t.onRow_ids row).1.trans hrid
    · exact hrid
  · by_cases he : i = id
    · rw [if_pos ⟨hrid'.mpr he, (hsave he).2⟩, if_pos he, ht.saved, hsaved]
    · rw [if_neg fun h => he (hrid'.mp h.1), if_neg he, hsaved]
  · have hr : Resolved v.globals row := hres q hq ((hcell q).symm.trans hqid)
    split_ifs
    · exact hr.congr rfl (t.onRow_ids row).2
    · exact hr.congr rfl rfl
  -- in memory, the program at `p` has the new operations, and no other has the id
  · have hold := h.progs q hq ((hcell q).symm.trans hqid)
    rw [withDb_cell]
    rcases eq_or_ne q p with rfl | hne
    · have he : i = id := hid.symm.trans ((hcell q).symm.trans hqid)
      rw [put_cell_self, if_pos he]
      refine ⟨(hsave he).1, ?_⟩
      obtain ⟨reg, hreg, hx⟩ := Option.map_eq_some_iff.mp hold.2
      refine Option.map_eq_some_iff.mpr ⟨reg, hset.loaded.trans hreg, ?_⟩
      rw [hset.ops, List.foldl_append, hx]
      rfl
    · have he : ¬i = id := by
        intro he
        have hqi : (v.cell q).id = (v.cell p).id :=
          ((hcell q).symm.trans hqid).trans (hid.trans he).symm
        exact hne (List.inj_on_of_nodup_map h.owned.ids hq hp hqi)
      rw [put_cell_of_ne hne, if_neg he]
      exact hold

/-- One row of a request, where the program it names is in the list or not. -/
theorem given_setProg {i : ℤ} {Q : Unit → View R → Prop} (h : Owned False False v ps)
    (hnone : findProg v ps i = none → Q () v)
    (hsome : ∀ p b, findProg v ps i = some p → SetTo t (v.cell p) b → b.held = false →
      b.mem = .allocated → Q () ((v.put p b).withDb (t.onDb b.save i v.globals.db))) :
    Given Saving (do
      match ← getProgById i with
      | none => Pure.pure ()
      | some item => do
        if !(← access item .lockMutex) then return
        t.body i item
        let _ ← access item .unlockMutex) Q v := by
  apply (Safe.given (safe_getProgById h)).seq
  intro r u hu
  obtain ⟨rfl, rfl⟩ := hu
  cases hf : findProg u ps i with
  | none => exact given_pure (hnone hf)
  | some p =>
    -- the main thread holds no mutex between two rows, so the lock gives it this one
    refine given_access fun o b hm hb => ?_
    simp only [blockTouch, h.free p, Bool.not_false, Option.some.injEq, Prod.mk.injEq] at hb
    obtain ⟨rfl, rfl⟩ := hb
    apply Safe.seq (P := fun _ w => ∃ b, SetTo t (u.cell p) b ∧ b.held = true ∧
      w = (u.put p b).withDb (t.onDb b.save i u.globals.db))
    · refine given_setterBody fun b hset hheld => ⟨b, ?_, ?_, ?_⟩
      · rw [put_cell_self] at hset
        exact ⟨⟨hset.id, hset.next, hset.mem, hset.thread, hset.loaded⟩, hset.save, hset.ops⟩
      · rw [hheld, put_cell_self]
      · rw [put_put]
        rfl
    · intro _ w hw
      obtain ⟨b, hset, -, rfl⟩ := hw
      refine given_access fun _ c _ hc => ?_
      cases hc
      rw [withDb_cell, put_cell_self]
      have hput : ((u.put p b).withDb (t.onDb b.save i u.globals.db)).put p
          { b with held := false } = (u.put p { b with held := false }).withDb
            (t.onDb b.save i u.globals.db) := by
        change ((u.put p b).put p _).withDb _ = _
        rw [put_put]
      rw [hput]
      exact given_pure (hsome p _ hf
        ⟨⟨hset.id, hset.next, hset.mem, hset.thread, hset.loaded⟩, hset.save, hset.ops⟩ rfl
        (hset.mem.trans hm))

/-- The programs that a request of setters leaves behind. -/
structure SetBy (id : ℤ) (x : Saved R) (e : Option Bool) (ids : List ℤ) (v : View R)
    (ps : List Ptr) (y : Saved R) (w : View R) : Prop where
  inStep : InStep id y w ps
  sameIds : ∀ q, (w.cell q).id = (v.cell q).id
  flags : w.globals.flags = v.globals.flags
  enabled : y.enabled = if id ∈ ids then e.getD x.enabled else x.enabled

/-- Setters that are in step keep a program in step with its row. -/
theorem given_setProgs {β : Type} {setter : β → Setter R} {rows : List (ℤ × β)} {id : ℤ}
    {x : Saved R} {e : Option Bool} (hset : ∀ row ∈ rows, (setter row.2).InStep e)
    (h : InStep id x v ps) (hp : p ∈ ps) (hid : (v.cell p).id = id) :
    Given Saving (setProgs setter rows)
      (fun _ w => ∃ y, SetBy id x e (rows.map Prod.fst) v ps y w) v := by
  induction rows generalizing v x with
  | nil => exact given_pure ⟨x, h, fun _ => rfl, rfl, by simp⟩
  | cons row rows ih =>
    have hrest (u : View R) (y : Saved R) (hy : SetBy id x e [row.1] v ps y u) :
        Given Saving (setProgs setter rows)
          (fun _ w => ∃ z, SetBy id x e ((row :: rows).map Prod.fst) v ps z w) u := by
      refine (ih (fun r hr => hset r (List.mem_cons_of_mem row hr)) hy.inStep
        ((hy.sameIds p).trans hid)).mono fun _ w _ hw => ?_
      obtain ⟨z, hz⟩ := hw
      refine ⟨z, hz.inStep, fun q => (hz.sameIds q).trans (hy.sameIds q),
        hz.flags.trans hy.flags, ?_⟩
      have hmem : id ∈ (row :: rows).map Prod.fst ↔ id ∈ [row.1] ∨ id ∈ rows.map Prod.fst := by
        simp
      -- enabled by the first row, by the others, or as before
      rw [hz.enabled, hy.enabled]
      by_cases h₁ : id ∈ [row.1] <;> by_cases h₂ : id ∈ rows.map Prod.fst <;>
        simp only [hmem, h₁, h₂, or_self, or_true, true_or, if_true, if_false]
      cases e <;> rfl
    have hone : Given Saving _ (fun _ u => ∃ y, SetBy id x e [row.1] v ps y u) v :=
      given_setProg (t := setter row.2) (i := row.1) h.owned (fun hnone => ?_) ?_
    · exact hone.seq fun _ u hu => hu.elim fun y hy => hrest u y hy
    · -- the program of the id is in the list, so the row is not for it
      have hne : id ≠ row.1 := hid ▸ findProg_none hnone p hp
      exact ⟨x, h, fun _ => rfl, rfl, by simp [hne]⟩
    · intro q b hf hb hheld hmem
      obtain ⟨hq, hqid⟩ := findProg_mem hf
      refine ⟨_, h.set (hset row List.mem_cons_self) hqid hb hheld hmem hq, fun r => ?_, rfl, ?_⟩
      · rw [withDb_cell]
        rcases eq_or_ne r q with rfl | hne
        · rw [put_cell_self, hb.id]
        · rw [put_cell_of_ne hne]
      · rw [apply_ite Saved.enabled]
        simp only [List.mem_singleton, eq_comm (a := id)]
        rfl

end Regonf
