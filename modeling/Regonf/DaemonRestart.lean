import Regonf.DaemonStarts

/-! The turns in which settings are written, and those in which a program is stopped and started
again: it stays in step with its row. -/
namespace Regonf

open Script LinkedList

variable {R : Type} [Zero R] {v w : View R} {ps qs : List Ptr} {p : Ptr} {id : ℤ} {x : Saved R}

/-- Starting and stopping programs keeps a program in step with its row. -/
theorem InStep.evolves (h : InStep id x v ps) (ho : Owned False False w qs)
    (hev : Evolves v ps w qs) : InStep id x w qs := by
  obtain ⟨row, hrow, hid, hsaved, hres⟩ := h.row
  obtain ⟨row', hrow', he⟩ := ProgTable.exists_unloaded hev.rows.symm hrow
  have hid' : row'.id = id := by
    rw [he] at hid
    exact hid
  have hsaved' : row'.saved = x := by
    rw [he] at hsaved
    exact hsaved
  -- a program that its row has filled has what the row says
  have hfilled {q : Ptr} (hf : AsFilled w.globals (w.cell q)) (hq : (w.cell q).id = id) :
      Resolved w.globals row' ∧ (w.cell q).save = x.save ∧
        (w.cell q).settings = some x.settings := by
    obtain ⟨hs, hops, hr, sensor, heater, cooler, secure_out, green, hl⟩ :=
      hf row' hrow' (hid'.trans hq.symm)
    refine ⟨hr, by rw [hs, ← hsaved']; rfl, ?_⟩
    rw [Block.settings, hl, hops, Option.map_some, List.foldl_nil, regOfRow_settings, ← hsaved']
    rfl
  -- and one that was in the list has what it had
  have hstays {q : Ptr} (hq : (w.cell q).id = id)
      (hs : q ∈ ps ∧ (w.cell q).kept = (v.cell q).kept ∧
        w.globals.configured = v.globals.configured) :
      Resolved w.globals row' ∧ (w.cell q).save = x.save ∧
        (w.cell q).settings = some x.settings := by
    obtain ⟨hqp, hk, hc⟩ := hs
    simp only [Block.kept, Prod.mk.injEq] at hk
    have hvid : (v.cell q).id = id := hk.1.symm.trans hq
    obtain ⟨hsave, hset⟩ := h.progs q hqp hvid
    refine ⟨(hres q hqp hvid).congr hc (by rw [he]), hk.2.1.trans hsave, ?_⟩
    rw [Block.settings, hk.2.2.1, hk.2.2.2]
    exact hset
  have hall (q : Ptr) (hq : q ∈ qs) (hqid : (w.cell q).id = id) :=
    (hev.progs q hq).elim (fun hf => hfilled hf hqid) (hstays hqid)
  exact ⟨ho, h.save, ⟨row', hrow', hid', hsaved', fun q hq hqid => (hall q hq hqid).1⟩,
    fun q hq hqid => (hall q hq hqid).2⟩

/-- The main loop serves requests for programs. -/
def Globals.Serving (g : Globals R) : Prop := g.flags = (.appRun, true, false)

/-- The program of the id has been stopped. -/
structure Gone (id : ℤ) (x : Saved R) (v : View R) (ps : List Ptr) : Prop where
  inStep : InStep id x v ps
  absent : ∀ q ∈ ps, (v.cell q).id ≠ id

/-- The program of the id, if it is in the list, is as its row fills it. -/
structure Restarted (id : ℤ) (x : Saved R) (v : View R) (ps : List Ptr) : Prop where
  inStep : InStep id x v ps
  filled : ∀ q ∈ ps, (v.cell q).id = id → AsFilled v.globals (v.cell q)

theorem InStep.gone {ids : List ℤ} (h : InStep id x v ps) (hmem : id ∈ ids)
    (hd : DeletedFrom False False v ps ids w) :
    ∃ qs, Gone id x w qs ∧ w.globals.settled = v.globals.settled := by
  obtain ⟨qs, hq, hshrink, hne⟩ := hd
  refine ⟨qs, ⟨h.evolves hq hshrink.evolves, fun q hqs he => ?_⟩, hshrink.settled⟩
  exact hne q hqs (he.symm ▸ hmem)

theorem Gone.restarted (h : Gone id x v ps) (ho : Owned False False w qs)
    (hev : Evolves v ps w qs) : Restarted id x w qs := by
  refine ⟨h.inStep.evolves ho hev, fun q hq hid => ?_⟩
  -- the program was not there before, so it is a new one
  refine (hev.progs q hq).resolve_right fun hs => ?_
  obtain ⟨hqp, hk, -⟩ := hs
  have hqid : (w.cell q).id = (v.cell q).id := congrArg (fun x => x.1) hk
  exact h.absent q hqp (hqid.symm.trans hid)

/-- The program was filled with the settings of its row, and enabled or disabled by it. -/
theorem Restarted.loaded (h : Restarted id x v ps) (hp : p ∈ ps) (hid : (v.cell p).id = id) :
    ∃ reg, (v.cell p).loaded = some reg ∧ (v.cell p).ops = [] ∧
      reg.state = if x.enabled = true then .regInit else .regDisable := by
  obtain ⟨row, hrow, hrid, hsaved, -⟩ := h.inStep.row
  obtain ⟨-, hops, -, sensor, heater, cooler, secure_out, green, hl⟩ :=
    h.filled p hp hid row hrow (hrid.trans hid.symm)
  refine ⟨_, hl, hops, ?_⟩
  rw [regOfRow_state, hsaved]

variable [Sqlite R]

/-- A turn of the main loop that serves a request for programs. -/
theorem given_mainTurn {A : Outcomes R} {c : Command R} {Q : Unit → View R → Prop}
    (hv : v.globals.Serving) (hc : serverRun c true = serverRunProg c)
    (h : Given A (serverRunProg c) Q v) : Given A (mainTurn c) Q v := by
  simp only [Globals.Serving, Globals.flags, Prod.mk.injEq] at hv
  refine safe_lift trivial trivial fun o g t _ he => ?_
  cases he
  -- the application runs and has its data, so the loop reads a request and serves it
  rw [if_neg (by simp [hv.2.2]), hv.1, hv.2.1]
  dsimp only
  rw [hc]
  exact h

/-- The program at `p` is in step with its row after the requests `cs`, which have been enabling
and disabling it since it was as `x` says. -/
def Served (id : ℤ) (x : Saved R) (ps : List Ptr) (p : Ptr) (cs : List (Command R)) (v : View R) :
    Prop :=
  ∃ y, InStep id y v ps ∧ (v.cell p).id = id ∧ v.globals.Serving ∧
    y.enabled = enabledAfter id x.enabled cs

theorem Command.Writes.served {ok : R → Prop} {c : Command R} (h : c.Writes ok) :
    serverRun c true = serverRunProg c := by
  cases c with
  | appStart => exact h.elim
  | appStop => exact h.elim
  | appReset => exact h.elim
  | appExit => exact h.elim
  | _ => rfl

/-- A turn in which settings are written. -/
theorem given_mainTurn_writes {c : Command R} {cs : List (Command R)}
    (hc : c.Writes fun v => Sqlite.stored v = v) (h : Served id x ps p cs v) (hp : p ∈ ps) :
    Given Saving (mainTurn c) (fun _ => Served id x ps p (cs ++ [c])) v := by
  obtain ⟨y, hstep, hid, hs, hy⟩ := h
  refine given_mainTurn hs hc.served ?_
  obtain ⟨β, setter, rows, hrun, hset, hids⟩ := serverRunProg_writes hc
  rw [hrun]
  apply (given_setProgs hset hstep hp hid).mono
  intro _ w _ hw
  obtain ⟨z, hz⟩ := hw
  refine ⟨z, hz.inStep, (hz.sameIds p).trans hid, hz.flags.trans hs, ?_⟩
  rw [hz.enabled, enabledAfter_append, hy]
  rcases hids with he | he
  · rw [he]
  -- the request enables and disables nothing
  · rw [he, Option.getD_none, ite_self, ite_self]

omit [Sqlite R] in
theorem InStep.fillable (h : InStep id x v ps) (hp : p ∈ ps) (hid : (v.cell p).id = id) :
    Fillable v.globals id := by
  obtain ⟨row, hrow, hrid, -, hres⟩ := h.row
  exact ⟨row, hrow, hrid, hres p hp hid⟩

/-- Between the stop and the start. -/
def Halted (id : ℤ) (x : Saved R) (v : View R) : Prop :=
  ∃ ps, Gone id x v ps ∧ Fillable v.globals id ∧ v.globals.Serving

omit [Sqlite R] in
theorem Halted.serving (h : Halted id x v) : v.globals.Serving := by
  obtain ⟨ps, -, -, hs⟩ := h
  exact hs

/-- Behind the start; where `S` holds, the program is in the list again. -/
def Back (S : Prop) (id : ℤ) (x : Saved R) (v : View R) : Prop :=
  ∃ ps, Restarted id x v ps ∧ (S → ∃ q ∈ ps, (v.cell q).id = id)

theorem given_progStop {A : Outcomes R} {ids : List ℤ} (h : InStep id x v ps)
    (hrow : Fillable v.globals id) (hs : v.globals.Serving) (hmem : id ∈ ids) :
    Given A (progStop ids) (fun _ => Halted id x) v := by
  apply (Safe.given (safe_progStop h.owned)).mono
  intro _ w _ hw
  obtain ⟨qs, hgone, hset⟩ := h.gone hmem hw
  exact ⟨qs, hgone, hrow.settled hset, (settled_eq hset).1.trans hs⟩

theorem given_progStart_back {S : Prop} {ids : List ℤ} (h : Halted id x v) (hmem : id ∈ ids) :
    Given (Succeeding S) (progStart ids) (fun _ => Back S id x) v := by
  obtain ⟨ps, hgone, hrow, -⟩ := h
  apply (given_progStart hgone.inStep.owned hrow).mono
  intro _ w _ hw
  obtain ⟨qs, hq, hev, hin⟩ := hw
  exact ⟨qs, hgone.restarted hq hev, fun hs => hin hs (Or.inl hmem)⟩

/-- The requests `psp` and `pst`, or `prs`, for lists of programs with the one of the id. -/
inductive Restarts (id : ℤ) : List (Command R) → Prop
  | stopStart {ids ids' : List ℤ} (h : id ∈ ids) (h' : id ∈ ids') :
    Restarts id [.progStop ids, .progStart ids']
  | reset {ids : List ℤ} (h : id ∈ ids) : Restarts id [.progReset ids]

end Regonf
