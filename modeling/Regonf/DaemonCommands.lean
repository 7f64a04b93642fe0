import Regonf.DaemonDelete

/-! The requests of clients: each keeps the invariant of the programs. -/
namespace Regonf

open Script LinkedList

variable {R : Type} [Zero R] {clean stored : Prop} {v w : View R} {ps : List Ptr}

theorem Keeps.dead (h : Keeps clean stored v w) : FreedDead clean w := by
  obtain ⟨qs, hq, -⟩ := h
  exact hq.dead

/-- A program is switched off under its mutex. -/
theorem safe_turnOffLocked {p : Ptr} (h : Owned clean stored v ps) (hp : p ∈ ps) :
    Safely clean stored (turnOffLocked p)
      (fun _ w => w = v.put p (v.cell p).turnedOff ∧ (v.cell p).mem = .allocated) v := by
  have hlive (hc : clean) : (v.cell p).mem = .allocated := (h.live hc p hp).1
  refine safe_access h.dead hlive fun o b₁ hm h₁ => ?_
  have hd {b : Block R} (hb : b.mem = .allocated) : FreedDead clean (v.put p b) :=
    h.dead.put (Or.inl hb)
  simp only [blockTouch, h.free p, Bool.not_false, Option.some.injEq, Prod.mk.injEq] at h₁
  obtain ⟨rfl, rfl⟩ := h₁
  refine safe_access (hd hm) (fun _ => by rw [put_cell_self]; exact hm) fun _ b₂ _ h₂ => ?_
  cases h₂
  rw [put_put, put_cell_self]
  refine safe_access (hd hm) (fun _ => by rw [put_cell_self]; exact hm) fun _ b₃ _ h₃ => ?_
  cases h₃
  rw [put_put, put_cell_self]
  refine safe_pure (hd hm) ⟨?_, hm⟩
  simp only [Block.turnedOff, Loadable, true_and, h.free p]

variable [Sqlite R]

/-- Stopping one program: it is switched off and deleted. -/
theorem safe_stopProg {id : ℤ} (h : Owned clean stored v ps) :
    Safely clean stored (do
      match ← getProgById id with
      | none => Pure.pure ()
      | some item => do
        turnOffLocked item
        let _ ← deleteProgById id) (fun _ => DeletedFrom clean stored v ps [id]) v := by
  apply (safe_getProgById h).seq
  intro r u hu
  obtain ⟨rfl, rfl⟩ := hu
  cases hf : findProg u ps id with
  | none =>
    have hnone : ∀ q ∈ ps, (u.cell q).id ∉ [id] := fun q hq hid =>
      findProg_none hf q hq (List.mem_singleton.mp hid)
    exact safe_pure h.dead ⟨ps, h, Shrinks.refl u ps, hnone⟩
  | some p =>
    obtain ⟨hp, hid⟩ := findProg_mem hf
    apply (safe_turnOffLocked h hp).seq
    intro _ t ht
    obtain ⟨rfl, hm⟩ := ht
    have hoff : Owned clean stored (u.put p (u.cell p).turnedOff) ps :=
      h.put_same ⟨rfl, rfl, rfl, rfl, rfl⟩ (h.free p) hm
    have hquiet : ∀ q ∈ ps, ((u.put p (u.cell p).turnedOff).cell q).id = id →
        ((u.put p (u.cell p).turnedOff).cell q).quiet := by
      intro q hqs hqid
      -- the ids in the list are distinct, so it is the program just switched off
      have hqp : q = p := by
        by_contra hne
        rw [put_cell_of_ne hne] at hqid
        exact hne (List.inj_on_of_nodup_map h.ids hqs hp (hqid.trans hid.symm))
      rw [hqp, put_cell_self]
      exact h.loadable p
    apply (safe_deleteProgById hoff hquiet).seq
    intro _ t ht
    obtain ⟨rs, hr, hshrink, hne⟩ := ht
    refine safe_pure hr.dead ⟨rs, hr, ⟨hshrink.settled, hshrink.subset, fun q hq => ?_⟩, hne⟩
    -- the programs that are left have not been switched off
    have hkept := hshrink.kept q hq
    have hqp : q ≠ p := by
      rintro rfl
      rw [put_cell_self] at hkept
      have hqid : (t.cell q).id = (u.cell q).id := congrArg (fun x => x.1) hkept
      exact hne q hq (List.mem_singleton.mpr (hqid.trans hid))
    rwa [put_cell_of_ne hqp] at hkept

theorem safe_progStop {ids : List ℤ} (h : Owned clean stored v ps) :
    Safely clean stored (progStop ids) (fun _ => DeletedFrom clean stored v ps ids) v := by
  induction ids generalizing v ps with
  | nil => exact safe_pure h.dead ⟨ps, h, Shrinks.refl v ps, by simp⟩
  | cons id ids ih =>
    have hone : Safely clean stored _ (fun _ => DeletedFrom clean stored v ps [id]) v :=
      safe_stopProg h
    apply hone.seq
    intro _ w hw
    obtain ⟨qs, hq, hshrink, hid⟩ := hw
    apply (ih hq).mono
    intro _ u _ hu
    obtain ⟨rs, hr, hshrink', hids⟩ := hu
    refine ⟨rs, hr, hshrink.trans hshrink', fun q hqs hmem => ?_⟩
    -- a program that is gone does not come back
    have hqid : (u.cell q).id = (w.cell q).id := congrArg (fun x => x.1) (hshrink'.kept q hqs)
    rcases List.mem_cons.mp hmem with he | hmem
    · exact hid q (hshrink'.subset hqs) (List.mem_singleton.mpr (hqid.symm.trans he))
    · exact hids q hqs hmem

theorem safe_progStart {ids : List ℤ} (h : Owned clean stored v ps) :
    Safely clean stored (progStart ids) (fun _ => Evolved clean stored v ps) v := by
  refine safe_forM ⟨ps, h, Evolves.refl v ps, rfl⟩ (fun _ => Evolved.dead) fun id _ w hw => ?_
  obtain ⟨qs, hq, hev, hflags⟩ := hw
  apply (safe_addProgById hq).seq
  intro _ u hu
  obtain ⟨rs, hr, hadd⟩ := hu
  exact safe_pure hr.dead
    ⟨rs, hr, hev.trans hadd.evolves, (settled_eq hadd.settled).1.trans hflags⟩

theorem safe_progReset {ids : List ℤ} (h : Owned clean stored v ps) :
    Safely clean stored (progReset ids) (fun _ => Evolved clean stored v ps) v := by
  apply (safe_progStop h).seq
  intro _ w hw
  obtain ⟨qs, hq, hshrink, -⟩ := hw
  apply (safe_progStart hq).mono
  intro _ u _ hu
  obtain ⟨rs, hr, hev, hflags⟩ := hu
  exact ⟨rs, hr, hshrink.evolves.trans hev, hflags.trans (settled_eq hshrink.settled).1⟩

/-- The daemon with another content of the database. -/
def Daemon.withDb {C : Type} (v : Daemon R C) (d : Db R) : Daemon R C :=
  { v with globals := { v.globals with db := d } }

omit [Zero R] [Sqlite R] in
@[simp] theorem withDb_cell {C : Type} {v : Daemon R C} {d : Db R} :
    (v.withDb d).cell = v.cell := rfl

/-- The state in which a setter works on a program: it holds the mutex, and it may have
written to the database. -/
def Setting (v : View R) (p : Ptr) (w : View R) : Prop :=
  ∃ b d, SameProg (v.cell p) b ∧ b.held = true ∧ b.mem = .allocated ∧
    w = (v.put p b).withDb d

omit [Zero R] [Sqlite R] in
theorem Setting.dead {p : Ptr} (h : Setting v p w) (hd : FreedDead clean v) :
    FreedDead clean w := by
  obtain ⟨b, d, -, -, hm, rfl⟩ := h
  exact FreedDead.put hd (Or.inl hm)

omit [Zero R] [Sqlite R] in
theorem Setting.mem {p : Ptr} (h : Setting v p w) : (w.cell p).mem = .allocated := by
  obtain ⟨b, d, -, -, hm, rfl⟩ := h
  rw [withDb_cell, put_cell_self]
  exact hm

omit [Zero R] [Sqlite R] in
/-- Writing to the program that is being set. -/
theorem Setting.put {p : Ptr} {c : Block R} (h : Setting v p w) (hc : SameProg (w.cell p) c)
    (hheld : c.held = true) : Setting v p (w.put p c) := by
  obtain ⟨b, d, hsame, -, hm, rfl⟩ := h
  rw [withDb_cell, put_cell_self] at hc
  refine ⟨c, d, ?_, hheld, hc.mem.trans hm, ?_⟩
  · exact ⟨hc.id.trans hsame.id, hc.next.trans hsame.next, hc.mem.trans hsame.mem,
      hc.thread.trans hsame.thread, hc.loaded.trans hsame.loaded⟩
  -- the earlier value of the block is overwritten
  · change ((v.put p b).put p c).withDb d = _
    rw [put_put]

omit [Zero R] [Sqlite R] in
theorem Setting.held {p : Ptr} (h : Setting v p w) : (w.cell p).held = true := by
  obtain ⟨b, d, -, hheld, -, rfl⟩ := h
  rw [withDb_cell, put_cell_self]
  exact hheld

omit [Sqlite R] in
/-- The accesses of a setter keep its state. -/
theorem safe_setting_access {p : Ptr} {a : CellAct R Unit} (hd : FreedDead clean v)
    (ha : (∃ o, a = .op o) ∨ ∃ x, a = .setSave x) (h : Setting v p w) :
    Safely clean stored (access p a) (fun _ => Setting v p) w := by
  refine safe_access_last (h.dead hd) (fun _ => ?_) fun _ c _ hc => ?_
  · rcases ha with ⟨o, rfl⟩ | ⟨x, rfl⟩
    · exact h.mem
    · exact h.mem
  have hset : Setting v p (w.put p c) := by
    rcases ha with ⟨o, rfl⟩ | ⟨x, rfl⟩
    · cases hc
      exact h.put ⟨rfl, rfl, rfl, rfl, rfl⟩ h.held
    · cases hc
      exact h.put ⟨rfl, rfl, rfl, rfl, rfl⟩ h.held
  exact ⟨hset.dead hd, hset⟩

theorem safe_saveColumn {p : Ptr} {id : ℤ} {column : Option (Column R)}
    (hd : FreedDead clean v) (h : Setting v p w) :
    Safely clean stored (saveColumn id p column) (fun _ => Setting v p) w := by
  cases column with
  | none => exact safe_pure (h.dead hd) h
  | some c =>
    refine safe_access (h.dead hd) (fun _ => h.mem) fun x b _ hb => ?_
    cases hb
    rw [put_self]
    split_ifs
    · exact safe_pure (h.dead hd) h
    · apply (safe_saveTableField (h.dead hd)).mono
      intro _ t _ ht
      rcases ht with ⟨rfl, -⟩ | rfl
      · exact h
      · obtain ⟨b, d, hsame, hheld, hm, rfl⟩ := h
        exact ⟨b, _, hsame, hheld, hm, rfl⟩

theorem safe_setterBody {p : Ptr} {id : ℤ} {t : Setter R} (hd : FreedDead clean v)
    (h : Setting v p w) :
    Safely clean stored (t.body id p) (fun _ => Setting v p) w := by
  have hops : Safely clean stored (t.ops.forM fun o => access p (.op o))
      (fun _ => Setting v p) w :=
    safe_forM h (fun _ hu => hu.dead hd)
      fun o _ u hu => safe_setting_access hd (Or.inl ⟨o, rfl⟩) hu
  apply hops.seq
  intro _ u hu
  cases t.newSave with
  | none => exact safe_saveColumn hd hu
  | some x =>
    have hsave : Safely clean stored (access p (.setSave x)) (fun _ => Setting v p) u :=
      safe_setting_access hd (Or.inr ⟨x, rfl⟩) hu
    exact hsave.seq fun _ t ht => safe_saveColumn hd ht

omit [Sqlite R] in
/-- Where nothing is assumed of the database, its content may change. -/
theorem Owned.withDb (h : Owned clean stored v ps) (hns : ¬ stored) (d : Db R) :
    Owned clean stored (v.withDb d) ps where
  toListed := { h.toListed with known := fun hs => absurd hs hns }
  live := h.live
  rows := fun hs => absurd hs hns

/-- The setters are considered where nothing is assumed of the database. -/
theorem safe_setProgs {β : Type} {setter : β → Setter R} {rows : List (ℤ × β)}
    (h : Owned clean stored v ps) (hns : ¬ stored) :
    Safely clean stored (setProgs setter rows) (fun _ => Keeps clean stored v) v := by
  refine safe_forM ⟨ps, h, rfl⟩ (fun _ => Keeps.dead) fun row _ w hw => ?_
  obtain ⟨qs, hq, hflags⟩ := hw
  apply (safe_getProgById hq).seq
  intro r u hu
  obtain ⟨rfl, rfl⟩ := hu
  cases hf : findProg u qs row.1 with
  | none => exact safe_pure hq.dead ⟨qs, hq, hflags⟩
  | some p =>
    obtain ⟨hp, -⟩ := findProg_mem hf
    refine safe_access hq.dead (fun hc => (hq.live hc p hp).1) fun o b hm hb => ?_
    simp only [blockTouch, hq.free p, Bool.not_false, Option.some.injEq, Prod.mk.injEq] at hb
    obtain ⟨rfl, rfl⟩ := hb
    have hset : Setting u p (u.put p { u.cell p with held := true }) :=
      ⟨{ u.cell p with held := true }, u.globals.db, ⟨rfl, rfl, rfl, rfl, rfl⟩, rfl, hm, rfl⟩
    apply (safe_setterBody hq.dead hset).seq
    intro _ t ht
    refine safe_access (ht.dead hq.dead) (fun _ => ht.mem) fun _ c _ hc => ?_
    cases hc
    -- the mutex is free again
    obtain ⟨b, d, hsame, -, hm, rfl⟩ := ht
    rw [withDb_cell, put_cell_self]
    have hput : ((u.put p b).withDb d).put p { b with held := false } =
        (u.put p { b with held := false }).withDb d := by
      change ((u.put p b).put p _).withDb d = _
      rw [put_put]
    have hown : Owned clean stored (u.put p { b with held := false }) qs :=
      hq.put_same ⟨hsame.id, hsame.next, hsame.mem, hsame.thread, hsame.loaded⟩ rfl hm
    rw [hput]
    exact safe_pure hown.dead ⟨qs, hown.withDb hns d, hflags⟩

/-- The requests of the application, and those that start and stop programs. -/
def Command.isProgramList : Command R → Bool
  | .appStart | .appStop | .appReset | .appExit => true
  | .progStop _ | .progStart _ | .progReset _ => true
  | _ => false

/-- What a request leaves behind: only the setters write more than `load` to the rows. -/
def ServedTo (clean stored : Prop) (c : Command R) (v : View R) (ps : List Ptr) (w : View R) :
    Prop :=
  ∃ qs, Owned clean stored w qs ∧ (c.isProgramList = true → Evolves v ps w qs) ∧
    w.globals.flags = v.globals.flags

/-- Where the database is assumed to answer, only the requests that start and stop programs
are considered. -/
theorem safe_serverRunProg {c : Command R} (h : Owned clean stored v ps)
    (hc : stored → c.isProgramList) :
    Safely clean stored (serverRunProg c) (fun _ => ServedTo clean stored c v ps) v := by
  have hid : Safely clean stored (Pure.pure ()) (fun _ => ServedTo clean stored c v ps) v :=
    safe_pure h.dead ⟨ps, h, fun _ => Evolves.refl v ps, rfl⟩
  have hevolved {w : View R} (hw : Evolved clean stored v ps w) :
      ServedTo clean stored c v ps w := by
    obtain ⟨qs, hq, hev, hflags⟩ := hw
    exact ⟨qs, hq, fun _ => hev, hflags⟩
  have hset (hf : c.isProgramList = false) {β : Type} (setter : β → Setter R)
      (rows : List (ℤ × β)) :
      Safely clean stored (setProgs setter rows) (fun _ => ServedTo clean stored c v ps) v := by
    have hns : ¬ stored := by
      intro hs
      rw [hc hs] at hf
      cases hf
    apply (safe_setProgs h hns).mono
    intro _ w _ hw
    obtain ⟨qs, hq, hflags⟩ := hw
    exact ⟨qs, hq, fun ht => absurd (hf.symm.trans ht) (by decide), hflags⟩
  cases c with
  | appStart => exact hid
  | appStop => exact hid
  | appReset => exact hid
  | appExit => exact hid
  | progStop ids =>
    apply (safe_progStop h).mono
    intro _ w _ hw
    obtain ⟨qs, hq, hshrink, -⟩ := hw
    exact ⟨qs, hq, fun _ => hshrink.evolves, (settled_eq hshrink.settled).1⟩
  | progStart ids => exact (safe_progStart h).mono fun _ _ _ => hevolved
  | progReset ids => exact (safe_progReset h).mono fun _ _ _ => hevolved
  | progEnable ids =>
    unfold serverRunProg progEnable
    exact hset rfl _ _
  | progDisable ids =>
    unfold serverRunProg progDisable
    exact hset rfl _ _
  | progSetSave rows =>
    unfold serverRunProg progSetSave
    exact hset rfl _ _
  | setHeaterPower rows =>
    unfold serverRunProg setHeaterPower
    exact hset rfl _ _
  | setCoolerPower rows =>
    unfold serverRunProg setCoolerPower
    exact hset rfl _ _
  | setGoal rows =>
    unfold serverRunProg setGoal
    exact hset rfl _ _
  | setHeaterDelta rows =>
    unfold serverRunProg setHeaterDelta
    exact hset rfl _ _
  | setCoolerDelta rows =>
    unfold serverRunProg setCoolerDelta
    exact hset rfl _ _
  | setChangeGap rows =>
    unfold serverRunProg setChangeGap
    exact hset rfl _ _
  | setEMMode rows =>
    unfold serverRunProg setEMMode
    exact hset rfl _ _

end Regonf
