import Regonf.DaemonCommands

/-! The turns of the main loop, and with them every run of the daemon. -/
namespace Regonf

open Script LinkedList

variable {R : Type} [Zero R] {clean stored : Prop} {v w : View R} {ps : List Ptr}

/-- The invariant between two turns: before the data are loaded there are no programs. -/
def Idle (clean stored : Prop) (v : View R) : Prop :=
  ∃ ps, Owned clean stored v ps ∧
    (v.globals.app_state = .appInit ∨ v.globals.app_state = .appInitData ∨
      v.globals.data_initialized = false → ps = [])

/-- The main loop changes what it goes by. -/
theorem Owned.setFlags (h : Owned clean stored v ps) {a : AppState} {d x : Bool} :
    Owned clean stored { v with globals :=
      { v.globals with app_state := a, data_initialized := d, exited := x } } ps :=
  h.setGlobals rfl rfl rfl rfl

theorem safe_freeLists (h : Owned clean stored v []) :
    Safely clean stored freeLists
      (fun _ w => Owned clean stored w [] ∧ w.globals.base = v.globals.base) v :=
  safe_setGlobals_last h.dead ⟨h.setLists [] [], rfl⟩

variable [Sqlite R]

/-- If loading fails in a clean run, no program has been added. -/
theorem safe_loadActiveProg (h : Owned clean stored v []) :
    Safely clean stored loadActiveProg (fun o w => Evolved clean stored v [] w ∧
      (o = false → clean → w.globals.prog_list.top = none)) v := by
  have htop : v.globals.prog_list.top = none := h.list
  apply (safe_dbOpen h.dead).seq
  intro o w hw
  obtain ⟨rfl, -⟩ := hw
  cases o with
  | false => exact safe_pure h.dead ⟨⟨[], h, Evolves.refl w [], rfl⟩, fun _ _ => htop⟩
  | true =>
    apply safe_globals h.dead
    refine (safe_dbExec (fun _ => Evolved.dead) (fun id _ u hu => ?_)
      ⟨[], h, Evolves.refl w [], rfl⟩).mono fun o u _ hu => ⟨hu.1, fun ho hc => ?_⟩
    · obtain ⟨qs, hq, hev, hflags⟩ := hu
      apply (safe_addProgById hq).seq
      intro _ t ht
      obtain ⟨rs, hr, hadd⟩ := ht
      exact safe_pure hr.dead
        ⟨rfl, rs, hr, hev.trans hadd.evolves, (settled_eq hadd.settled).1.trans hflags⟩
    -- a clean run has no failure of the query behind a program
    · exact (((hu.2 ho).1 hc).2 rfl).resolve_left Bool.false_ne_true

omit [Sqlite R] in
/-- The error path of `initData` frees the programs that have been loaded. -/
theorem safe_unloadProgs (h : Owned clean stored v ps)
    (hst : v.globals.app_state = .appInitData)
    (hc : clean → v.globals.prog_list.top = none) :
    Safely clean stored freeProgList
      (fun _ w => Owned clean stored w [] ∧ w.globals.base = v.globals.base) v := by
  have hnil (hcl : clean) : ps = [] := by
    have hnone : ps.head? = none := h.list.head?_eq.symm.trans (hc hcl)
    exact List.head?_eq_none_iff.mp hnone
  have hdead (d : List Ptr) (hd : d <+: ps) :
      FreedDead clean (v.mapOn d (Block.freedIn .appInitData)) := by
    apply h.dead.mapOn_free
    intro q hq hcl
    -- a clean run frees nothing here, another one is excused
    rcases hcl with hcl | hne
    · have hqs := hd.subset hq
      rw [hnil hcl] at hqs
      cases hqs
    · exact absurd rfl hne
  refine (safe_freeProgList hst h.list h.below hdead fun hcl q hq => ?_).mono
    fun _ w _ hw => ?_
  · exact (h.live hcl q hq).1
  · subst hw
    refine ⟨h.emptied rfl rfl (hdead ps (List.prefix_refl ps)) (fun q hq => ?_) fun q hq => ?_, rfl⟩
    · exact mapOn_cell_of_not_mem hq
    · dsimp only
      rw [mapOn_cell_of_mem hq]
      exact ⟨rfl, rfl, rfl⟩

theorem safe_initData (h : Owned clean stored v [])
    (hst : v.globals.app_state = .appInitData) :
    Safely clean stored initData (fun o w => ∃ qs, Owned clean stored w qs ∧
      Evolves v [] w qs ∧ (o = false → qs = []) ∧ w.globals.flags = v.globals.flags) v := by
  -- wherever it fails, the list is empty
  have hfail {w : View R} (hw : Owned clean stored w []) (hb : w.globals.base = v.globals.base) :
      ∃ qs, Owned clean stored w qs ∧ Evolves v [] w qs ∧ (false = false → qs = []) ∧
        w.globals.flags = v.globals.flags :=
    ⟨[], hw, evolves_empty (congrArg (fun x => x.2) hb), fun _ => rfl,
      congrArg (fun x => x.1) hb⟩
  apply safe_attempt h.dead
  intro o _ _
  cases o with
  | false => exact safe_pure h.dead (hfail h rfl)
  | true =>
    have hsensors : Safely clean stored configGetSensorFTSList
        (fun _ w => Owned clean stored w [] ∧ w.globals.base = v.globals.base) v := by
      apply safe_attempt h.dead
      intro o _ _
      cases o with
      | false => exact safe_pure h.dead ⟨h, rfl⟩
      | true =>
        have hs := h.setLists v.globals.db.sensors v.globals.em_list
        exact safe_setGlobals h.dead (safe_pure hs.dead ⟨hs, rfl⟩)
    apply hsensors.seq
    intro o u hu
    obtain ⟨hu, hbu⟩ := hu
    cases o with
    | false => exact safe_pure hu.dead (hfail hu hbu)
    | true =>
      have hems : Safely clean stored configGetEMList
          (fun _ w => Owned clean stored w [] ∧ w.globals.base = u.globals.base) u := by
        apply safe_attempt hu.dead
        intro o _ _
        cases o with
        | false => exact safe_pure hu.dead ⟨hu, rfl⟩
        | true =>
          have hs := hu.setLists u.globals.sensor_list u.globals.db.ems
          exact safe_setGlobals hu.dead (safe_pure hs.dead ⟨hs, rfl⟩)
      apply hems.seq
      intro o t ht
      obtain ⟨ht, hbt⟩ := ht
      have hbt : t.globals.base = v.globals.base := hbt.trans hbu
      cases o with
      | false =>
        apply (safe_freeLists ht).seq
        intro _ x hx
        exact safe_pure hx.1.dead (hfail hx.1 (hx.2.trans hbt))
      | true =>
        apply (safe_loadActiveProg ht).seq
        intro o x hx
        obtain ⟨⟨qs, hx, hev, hfx⟩, htop⟩ := hx
        have hev : Evolves v [] x qs := hev.of_empty (congrArg (fun x => x.2) hbt)
        have hflags : x.globals.flags = v.globals.flags :=
          hfx.trans (congrArg (fun x => x.1) hbt)
        cases o with
        | false =>
          have hstx : x.globals.app_state = .appInitData :=
            (congrArg Prod.fst hflags).trans hst
          have hbx : x.globals.base = v.globals.base := Prod.ext hflags hev.rows
          apply (safe_unloadProgs hx hstx (htop rfl)).seq
          intro _ y hy
          apply (safe_freeLists hy.1).seq
          intro _ z hz
          exact safe_pure hz.1.dead (hfail hz.1 (hz.2.trans (hy.2.trans hbx)))
        | true => exact safe_pure hx.dead ⟨qs, hx, hev, by simp, hflags⟩

/-- The invariant between two turns, the last of them for the request `c`. -/
def IdleFrom (clean stored : Prop) (c : Command R) (v : View R) (ps : List Ptr) (w : View R) :
    Prop :=
  ∃ qs, Owned clean stored w qs ∧ (c.isProgramList = true → Evolves v ps w qs) ∧
    (w.globals.app_state = .appInit ∨ w.globals.app_state = .appInitData ∨
      w.globals.data_initialized = false → qs = [])

omit [Sqlite R] in
/-- All programs have been freed. -/
theorem idleFrom_empty {c : Command R} {a : AppState} {d x : Bool} (h : Owned clean stored w [])
    (hb : w.globals.db.prog.unloaded = v.globals.db.prog.unloaded) :
    IdleFrom clean stored c v ps { w with globals :=
      { w.globals with app_state := a, data_initialized := d, exited := x } } :=
  ⟨[], h.setFlags, fun _ => evolves_empty hb, fun _ => rfl⟩

omit [Sqlite R] in
theorem safe_exitNicely {c : Command R} (h : Owned clean stored v ps) :
    Safely clean stored exitNicely (fun _ => IdleFrom clean stored c v ps) v := by
  apply (safe_freeData h).seq
  intro _ w hw
  exact safe_setGlobals_last hw.1.dead (idleFrom_empty hw.1 (congrArg (fun x => x.2) hw.2))

omit [Sqlite R] in
theorem safe_setAppState {c : Command R} (h : Owned clean stored v ps) {a : AppState}
    (hps : a = .appInit ∨ a = .appInitData ∨ v.globals.data_initialized = false → ps = []) :
    Safely clean stored (setAppState a) (fun _ => IdleFrom clean stored c v ps) v :=
  safe_setGlobals_last h.dead
    ⟨ps, h.setFlags, fun _ => ⟨rfl, fun _ hq => Or.inr ⟨hq, rfl, rfl⟩⟩, hps⟩

theorem safe_serverRun {c : Command R} (h : Owned clean stored v ps)
    (hrun : v.globals.app_state = .appRun)
    (hps : v.globals.data_initialized = false → ps = [])
    (hc : stored → c.isProgramList) :
    Safely clean stored (serverRun c v.globals.data_initialized)
      (fun _ => IdleFrom clean stored c v ps) v := by
  have hid : Safely clean stored (Pure.pure ()) (fun _ => IdleFrom clean stored c v ps) v :=
    safe_pure h.dead ⟨ps, h, fun _ => Evolves.refl v ps, by simpa [hrun] using hps⟩
  have hprog : Safely clean stored
      (if v.globals.data_initialized then serverRunProg c else Pure.pure ())
      (fun _ => IdleFrom clean stored c v ps) v := by
    split_ifs with hd
    · apply (safe_serverRunProg h hc).mono
      intro _ w _ hw
      obtain ⟨qs, hq, hev, hflags⟩ := hw
      have hst : w.globals.app_state = .appRun := (congrArg Prod.fst hflags).trans hrun
      have hdw : w.globals.data_initialized = true :=
        (congrArg (fun f => f.2.1) hflags).trans hd
      exact ⟨qs, hq, hev, by simp [hst, hdw]⟩
    · exact hid
  cases c with
  | appStart =>
    unfold serverRun
    dsimp only
    split_ifs with hd
    · exact hid
    · exact safe_setAppState h fun _ => hps (by simpa using hd)
  | appStop =>
    unfold serverRun
    dsimp only
    split_ifs with hd
    · exact safe_setAppState h (by simpa using hps)
    · exact hid
  | appReset => exact safe_setAppState h (by simpa using hps)
  | appExit => exact safe_setAppState h (by simpa using hps)
  | _ => exact hprog

/-- A turn of the main loop keeps the invariant; only the setters write more than `load` to the
rows, and a program that stays in the list through another request is as it was. -/
theorem safe_mainTurn_from {c : Command R} (h : Owned clean stored v ps)
    (hps : v.globals.app_state = .appInit ∨ v.globals.app_state = .appInitData ∨
      v.globals.data_initialized = false → ps = [])
    (hc : stored → c.isProgramList) :
    Safely clean stored (mainTurn c) (fun _ => IdleFrom clean stored c v ps) v := by
  apply safe_globals h.dead
  split_ifs with hexit
  · exact safe_pure h.dead ⟨ps, h, fun _ => Evolves.refl v ps, hps⟩
  cases hst : v.globals.app_state with
  | appInit =>
    -- no program has been loaded yet, so there is nothing to lose in `initApp`
    obtain rfl : ps = [] := hps (Or.inl hst)
    have hinit : Safely clean stored initApp (fun _ w => w = v) v := by
      apply safe_attempt h.dead
      intro o _ _
      cases o with
      | false => exact safe_pure h.dead rfl
      | true =>
        apply safe_attempt h.dead
        intro o _ _
        cases o with
        | false => exact safe_pure h.dead rfl
        | true => exact safe_attempt (f := Pure.pure) h.dead fun o _ _ => safe_pure h.dead rfl
    apply hinit.seq
    intro o w hw
    subst hw
    split_ifs
    · exact safe_setAppState h fun _ => rfl
    · exact safe_exitNicely h
  | appInitData =>
    obtain rfl : ps = [] := hps (Or.inr (Or.inl hst))
    apply (safe_initData h hst).seq
    intro o w hw
    obtain ⟨qs, hq, hev, ho, -⟩ := hw
    have hev' : Evolves v [] { w with globals :=
        { w.globals with data_initialized := o, app_state := .appRun } } qs :=
      hev.trans ⟨rfl, fun _ hq => Or.inr ⟨hq, rfl, rfl⟩⟩
    exact safe_setGlobals_last hq.dead ⟨qs, hq.setFlags, fun _ => hev', by simpa using ho⟩
  | appRun => exact safe_serverRun h hst (fun hd => hps (Or.inr (Or.inr hd))) hc
  | appStop =>
    apply (safe_freeData h).seq
    intro _ w hw
    exact safe_setGlobals_last hw.1.dead (idleFrom_empty hw.1 (congrArg (fun x => x.2) hw.2))
  | appReset =>
    apply (safe_freeData h).seq
    intro _ w hw
    exact safe_setGlobals_last hw.1.dead (idleFrom_empty hw.1 (congrArg (fun x => x.2) hw.2))
  | appExit => exact safe_exitNicely h

theorem safe_mainTurn {c : Command R} (h : Idle clean stored v)
    (hc : stored → c.isProgramList) :
    Safely clean stored (mainTurn c) (fun _ => Idle clean stored) v := by
  obtain ⟨ps, h, hps⟩ := h
  apply (safe_mainTurn_from h hps hc).mono
  intro _ w _ hw
  obtain ⟨qs, hq, -, hidle⟩ := hw
  exact ⟨qs, hq, hidle⟩

end Regonf
