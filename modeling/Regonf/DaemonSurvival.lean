import Regonf.AcpCodec
import Regonf.DaemonRestart
import Regonf.DaemonStopped

/-! Settings survive a restart: a program that is stopped and started again has the settings that
it had in memory, and is enabled as it was told last. -/
namespace Regonf

open Script LinkedList

section runs
variable {R : Type} [Zero R] [Sqlite R] [Add R] [Sub R] [LT R] [DecidableLT R] [BEq R]
  {S : Prop} {c d : DaemonConfig R} {v : View R} {ps : List Ptr} {p : Ptr} {id : ℤ} {x : Saved R}

/-- The program of the id is in `prog_list`, at `p`. -/
def Has (s : Daemon R (Cell R)) (id : ℤ) (p : Ptr) : Prop :=
  Linked (fun q => (s.cell q).prog.next) s.globals.prog_list.top p ∧ (s.cell p).prog.id = id

omit [Sqlite R] in
/-- The main thread knows which programs are in `prog_list`. -/
theorem Sees.has {s : Daemon R (Cell R)} (h : Sees s v) (ho : Owned False False v ps) :
    Has s id p ↔ p ∈ ps ∧ (v.cell p).id = id := by
  have hnext : (fun q => (s.cell q).prog.next) = fun q => (v.cell q).next := by
    funext q
    exact (h.2.2 q).next
  rw [Has, hnext, h.1, ho.list.linked_iff, (h.2.2 p).id]

/-- The writes to the database succeed. -/
def savingStep : DaemonConfig R → DaemonLabel R → Bool
  | ⟨.act (.attempt w) _, _⟩, .main o => SavingOutcome w o
  | _, _ => true

/-- Every call succeeds, and a program is only allocated where there is room for it. -/
def succeedingStep : DaemonConfig R → DaemonLabel R → Bool
  | ⟨.act (.attempt _) _, _⟩, .main o => o
  | ⟨.act .malloc _, s⟩, .main _ => s.globals.prog_list.length < INT_MAX
  | _, _ => true

omit [Sqlite R] in
theorem savingStep_saving (β : Type) (a : Act R β) (k : β → Main R Unit) (s : Daemon R (Cell R))
    (o : Bool) (v : View R) (h : savingStep ⟨.act a k, s⟩ (.main o) = true) (_ : Sees s v) :
    Saving β a o v := by
  cases a with
  | attempt w =>
    have ho : SavingOutcome w o := of_decide_eq_true h
    exact ho
  | _ => trivial

omit [Sqlite R] in
theorem succeedingStep_succeeding (β : Type) (a : Act R β) (k : β → Main R Unit)
    (s : Daemon R (Cell R)) (o : Bool) (v : View R)
    (h : S → succeedingStep ⟨.act a k, s⟩ (.main o) = true) (hv : Sees s v) :
    Succeeding S β a o v := by
  cases a with
  | attempt w => exact h
  | malloc =>
    intro hs
    rw [← hv.1]
    exact of_decide_eq_true (h hs)
  | _ => trivial

/-- The rule for a run between two points where the daemon is idle. -/
theorem serves_given {A : Outcomes R} {P : DaemonConfig R → DaemonLabel R → Prop}
    {I : List (Command R) → View R → Prop} {cs : List (Command R)}
    (hP : ∀ (β : Type) (a : Act R β) k s o v, P ⟨.act a k, s⟩ (.main o) → Sees s v → A β a o v)
    (ht : ∀ xs y t, xs ++ [y] <+: cs → I xs t →
      Given A (mainTurn y) (fun _ => I (xs ++ [y])) t)
    (h : Serves daemonStep P c cs d) (hi : c.idle = true) (hd : d.idle = true)
    (hv : Sees c.state v) (hx : I [] v) : ∃ w, Sees d.state w ∧ I cs w := by
  refine serves_idle sees_simulates (fun c l hp => ?_) ht hv trivial hx hi hd h
  refine meets_of (fun _ _ _ _ => trivial) fun β a k s o hc hl v hv => ?_
  subst hc hl
  exact hP β a k s o v hp hv

/-- Between two turns the program of the id, if it is in the list, is in step with its row. -/
def IdleInStep (id : ℤ) (x : Saved R) (v : View R) : Prop :=
  ∃ ps, InStep id x v ps ∧
    (v.globals.app_state = .appInit ∨ v.globals.app_state = .appInitData ∨
      v.globals.data_initialized = false → ps = [])

/-- Programs are started and stopped, by a request or with the application. -/
theorem serves_load {cs : List (Command R)}
    (h : Serves daemonStep (fun _ _ => True) c cs d) (hcs : ∀ y ∈ cs, y.isProgramList = true)
    (hi : c.idle = true) (hd : d.idle = true) (hv : Sees c.state v) (hx : IdleInStep id x v) :
    ∃ w, Sees d.state w ∧ IdleInStep id x w := by
  refine serves_given (A := fun _ _ _ _ => True) (I := fun _ => IdleInStep id x)
    (fun _ _ _ _ _ _ _ _ => trivial) (fun xs y t hy ht => ?_) h hi hd hv hx
  obtain ⟨ps, hstep, hps⟩ := ht
  apply (Safe.given (safe_mainTurn_from hstep.owned hps False.elim)).mono
  intro _ w _ hw
  obtain ⟨qs, hq, hev, hqs⟩ := hw
  exact ⟨qs, hstep.evolves hq (hev (hcs y (hy.subset (by simp)))), hqs⟩

/-- Settings are written. -/
theorem serves_writes {cs : List (Command R)}
    (h : Serves daemonStep (fun c l => savingStep c l = true) c cs d)
    (hcs : ∀ y ∈ cs, y.Writes fun v => Sqlite.stored v = v) (hi : c.idle = true)
    (hd : d.idle = true) (hv : Sees c.state v) (hp : p ∈ ps) (hx : Served id x ps p [] v) :
    ∃ w, Sees d.state w ∧ Served id x ps p cs w :=
  serves_given savingStep_saving (fun _ y _ hy ht =>
    given_mainTurn_writes (hcs y (hy.subset (by simp))) ht hp) h hi hd hv hx

/-- The program is stopped and started again. -/
theorem serves_restart {P : DaemonConfig R → DaemonLabel R → Prop} {cs : List (Command R)}
    (hP : ∀ c l, P c l → S → succeedingStep c l = true) (hcs : Restarts id cs)
    (h : Serves daemonStep P c cs d) (hi : c.idle = true) (hd : d.idle = true)
    (hv : Sees c.state v) (hx : InStep id x v ps) (hrow : Fillable v.globals id)
    (hs : v.globals.Serving) : ∃ w, Sees d.state w ∧ Back S id x w := by
  have hA (β : Type) (a : Act R β) (k : β → Main R Unit) (s : Daemon R (Cell R)) (o : Bool)
      (v : View R) (hp : P ⟨.act a k, s⟩ (.main o)) (hv : Sees s v) : Succeeding S β a o v :=
    succeedingStep_succeeding β a k s o v (hP _ _ hp) hv
  cases hcs with
  | @stopStart ids ids' hid hid' =>
    -- what holds between the turns goes by the requests that have been served
    let I (xs : List (Command R)) (t : View R) : Prop :=
      (xs = [] ∧ t = v) ∨ (xs = [.progStop ids] ∧ Halted id x t) ∨
        (xs = [.progStop ids, .progStart ids'] ∧ Back S id x t)
    have hturn (xs : List (Command R)) (y : Command R) (t : View R)
        (hy : xs ++ [y] <+: [.progStop ids, .progStart ids']) (ht : I xs t) :
        Given (Succeeding S) (mainTurn y) (fun _ => I (xs ++ [y])) t := by
      rcases ht with ⟨rfl, rfl⟩ | ⟨rfl, ht⟩ | ⟨rfl, -⟩
      · obtain rfl : y = .progStop ids := by simpa using hy
        apply (given_mainTurn hs rfl (given_progStop hx hrow hs hid)).mono
        exact fun _ _ _ hw => Or.inr (Or.inl ⟨rfl, hw⟩)
      · obtain rfl : y = .progStart ids' := by simpa using hy
        apply (given_mainTurn ht.serving rfl (given_progStart_back ht hid')).mono
        exact fun _ _ _ hw => Or.inr (Or.inr ⟨rfl, hw⟩)
      · simp at hy
    obtain ⟨w, hw, hI⟩ := serves_given hA hturn h hi hd hv (Or.inl ⟨rfl, rfl⟩)
    exact ⟨w, hw, by simpa [I] using hI⟩
  -- `prs` does both in one turn
  | @reset ids hid =>
    let I (xs : List (Command R)) (t : View R) : Prop :=
      (xs = [] ∧ t = v) ∨ (xs = [.progReset ids] ∧ Back S id x t)
    have hreset : Given (Succeeding S) (progReset ids) (fun _ => Back S id x) v :=
      (given_progStop hx hrow hs hid).seq fun _ w hw => given_progStart_back hw hid
    have hturn (xs : List (Command R)) (y : Command R) (t : View R)
        (hy : xs ++ [y] <+: [.progReset ids]) (ht : I xs t) :
        Given (Succeeding S) (mainTurn y) (fun _ => I (xs ++ [y])) t := by
      rcases ht with ⟨rfl, rfl⟩ | ⟨rfl, -⟩
      · obtain rfl : y = .progReset ids := by simpa using hy
        exact (given_mainTurn hs rfl hreset).mono fun _ _ _ hw => Or.inr ⟨rfl, hw⟩
      · simp at hy
    obtain ⟨w, hw, hI⟩ := serves_given hA hturn h hi hd hv (Or.inl ⟨rfl, rfl⟩)
    exact ⟨w, hw, by simpa [I] using hI⟩

/-- A program that has been loaded with `x` and has taken only control steps since. -/
def LoadedWith (x : Saved R) (c : Cell R) : Prop :=
  c.prog.reg.settings = x.settings ∧ c.prog.save = x.save ∧
    ∃ reg, ReachedBy [] reg c ∧ reg.state = if x.enabled = true then .regInit else .regDisable

omit [Sqlite R] in
theorem Restarted.loadedWith {s : Daemon R (Cell R)} (h : Restarted id x v ps) (hv : Sees s v)
    (hp : p ∈ ps) (hid : (v.cell p).id = id) : LoadedWith x (s.cell p) := by
  obtain ⟨hsave, hset⟩ := h.inStep.progs p hp hid
  obtain ⟨reg, hl, hops, hstate⟩ := h.loaded hp hid
  have hby : ReachedBy (v.cell p).ops reg (s.cell p) := (hv.2.2 p).loaded reg hl
  rw [hops] at hby
  exact ⟨(hv.2.2 p).settings hset, (hv.2.2 p).save.trans hsave, reg, hby, hstate⟩

/-- A program is loaded from a row whose `save` is on. -/
theorem serves_loaded {db : Db R} {row : ProgRow R} {load : List (Command R)}
    (h : Reach daemonStep (fun _ _ => True) (startUp db) c) (hi : c.idle = true)
    (hrow : row ∈ c.state.globals.db.prog.rows) (hsave : row.save ≠ 0)
    (hnew : ∀ q, ¬ Has c.state row.id q)
    (hload : Serves daemonStep (fun _ _ => True) c load d)
    (hl : ∀ y ∈ load, y.isProgramList = true) (hd : d.idle = true)
    (hrun : d.state.globals.app_state = .appRun ∧ d.state.globals.exited = false)
    (hp : Has d.state row.id p) :
    ∃ w ps, Sees d.state w ∧ p ∈ ps ∧ Served row.id row.saved ps p [] w := by
  obtain ⟨v, hv, hs⟩ := reach_view (fun c l _ => any_meets c l) h
  rw [Config.idle_iff.mp hi] at hs
  obtain ⟨-, ps, hown, hps⟩ := hs
  -- before it is loaded no program has the id, so only the row has to be in step
  have habsent : ∀ q ∈ ps, (v.cell q).id ≠ row.id := fun q hq hid =>
    hnew q ((hv.has hown).mpr ⟨hq, hid⟩)
  have hstep : InStep row.id row.saved v ps := by
    refine ⟨hown, hsave, ⟨row, ?_, rfl, rfl, fun q hq hid => absurd hid (habsent q hq)⟩,
      fun q hq hid => absurd hid (habsent q hq)⟩
    rw [← hv.1]
    exact hrow
  obtain ⟨w, hw, qs, hstep', hqs⟩ := serves_load hload hl hi hd hv ⟨ps, hstep, hps⟩
  obtain ⟨hpq, hpid⟩ := (hw.has hstep'.owned).mp hp
  refine ⟨w, qs, hw, hpq, row.saved, hstep', hpid, ?_, rfl⟩
  -- with a program in the list the data are there
  rw [hw.1] at hrun
  have hdata : w.globals.data_initialized = true := by
    by_contra hn
    rw [hqs (Or.inr (Or.inr (by simpa using hn)))] at hpq
    cases hpq
  rw [Globals.Serving, Globals.flags, hrun.1, hrun.2, hdata]

/-- Settings have been written in memory and in the row, so that a restart finds them again. -/
theorem serves_survives {e : DaemonConfig R} {cs restart : List (Command R)} {w : View R}
    {P : DaemonConfig R → DaemonLabel R → Prop} (hw : Sees c.state w) (hp : p ∈ ps)
    (hx : Served id x ps p [] w) (hi : c.idle = true)
    (hcs : Serves daemonStep (fun c l => savingStep c l = true) c cs d)
    (hwrites : ∀ y ∈ cs, y.Writes fun v => Sqlite.stored v = v) (hd : d.idle = true)
    (hr : Restarts id restart) (hP : ∀ c l, P c l → S → succeedingStep c l = true)
    (hrestart : Serves daemonStep P d restart e) (he : e.idle = true) :
    Has d.state id p ∧
      (∀ q, Has e.state id q → LoadedWith ⟨(d.state.cell p).prog.reg.settings,
        (d.state.cell p).prog.save, enabledAfter id x.enabled cs⟩ (e.state.cell q)) ∧
      (S → ∃ q, Has e.state id q) := by
  obtain ⟨t, ht, y, hy, hid, hserving, hen⟩ := serves_writes hcs hwrites hi hd hw hp hx
  obtain ⟨hsave, hset⟩ := hy.progs p hp hid
  -- what is in memory just before the stop is what `y` says
  have hmem : (⟨(d.state.cell p).prog.reg.settings, (d.state.cell p).prog.save,
      enabledAfter id x.enabled cs⟩ : Saved R) = y := by
    rw [(ht.2.2 p).settings hset, (ht.2.2 p).save, hsave, ← hen]
  obtain ⟨u, hu, qs, hback, hin⟩ :=
    serves_restart hP hr hrestart hd he ht hy (hy.fillable hp hid) hserving
  have hown := hback.inStep.owned
  refine ⟨(ht.has hy.owned).mpr ⟨hp, hid⟩, fun q hq => ?_, fun hs => ?_⟩
  · obtain ⟨hqs, hqid⟩ := (hu.has hown).mp hq
    rw [hmem]
    exact hback.loadedWith hu hqs hqid
  · obtain ⟨q, hqs, hqid⟩ := hin hs
    exact ⟨q, (hu.has hown).mpr ⟨hqs, hqid⟩⟩

end runs

/-- The value that `%f` writes. -/
def printF (v : ℚ) : ℚ := roundEven (v * 1000000) / 1000000

/-- A real with at most six decimals. -/
def SixDecimals (v : ℚ) : Prop := ∃ k : ℤ, v = k / 1000000

theorem printF_eq {v : ℚ} (h : SixDecimals v) : printF v = v := by
  obtain ⟨k, rfl⟩ := h
  rw [printF, div_mul_cancel₀ _ (by norm_num), roundEven_intCast]

/-- A program that was loaded from its row, with `save` on, gets back the settings that it had in
memory when it is stopped and started again, after any requests that write settings, and it is
enabled or disabled as the last of them said. If every call succeeds, there is such a program. -/
theorem settings_survive_restart [Sqlite ℚ] (hstored : ∀ v : ℚ, Sqlite.stored v = printF v)
    {db : Db ℚ} {c c₀ c₁ c₂ : DaemonConfig ℚ} {row : ProgRow ℚ} {p : Ptr}
    {load cs restart : List (Command ℚ)}
    -- the program is loaded
    (h : Reach daemonStep (fun _ _ => True) (startUp db) c) (hi : c.idle = true)
    (hrow : row ∈ c.state.globals.db.prog.rows) (hsave : row.save ≠ 0)
    (hnew : ∀ q, ¬ Has c.state row.id q)
    (hload : Serves daemonStep (fun _ _ => True) c load c₀)
    (hl : ∀ y ∈ load, y.isProgramList = true) (hi₀ : c₀.idle = true)
    (hrun : c₀.state.globals.app_state = .appRun ∧ c₀.state.globals.exited = false)
    (hp : Has c₀.state row.id p)
    -- settings are written
    (hcs : Serves daemonStep (fun c l => savingStep c l = true) c₀ cs c₁)
    (hwrites : ∀ y ∈ cs, y.Writes SixDecimals) (hi₁ : c₁.idle = true)
    -- the program is stopped and started
    (hr : Restarts row.id restart) (hrestart : Serves daemonStep (fun _ _ => True) c₁ restart c₂)
    (hi₂ : c₂.idle = true) :
    Has c₁.state row.id p ∧
      (∀ q, Has c₂.state row.id q → LoadedWith ⟨(c₁.state.cell p).prog.reg.settings,
        (c₁.state.cell p).prog.save, enabledAfter row.id (row.enable ≠ 0) cs⟩
          (c₂.state.cell q)) ∧
      (Serves daemonStep (fun c l => succeedingStep c l = true) c₁ restart c₂ →
        ∃ q, Has c₂.state row.id q) := by
  have hok (y : Command ℚ) (hy : y ∈ cs) : y.Writes fun v => Sqlite.stored v = v :=
    (hwrites y hy).mono fun v hv => (hstored v).trans (printF_eq hv)
  obtain ⟨w, ps, hw, hps, hserved⟩ := serves_loaded h hi hrow hsave hnew hload hl hi₀ hrun hp
  -- whatever the calls return, and then for the calls that succeed
  obtain ⟨hc₁, hall, -⟩ := serves_survives (S := False) hw hps hserved hi₀ hcs hok hi₁ hr
    (fun _ _ _ => False.elim) hrestart hi₂
  refine ⟨hc₁, hall, fun hsucc => ?_⟩
  obtain ⟨-, -, hex⟩ := serves_survives (S := True) hw hps hserved hi₀ hcs hok hi₁ hr
    (fun _ _ hs _ => hs) hsucc hi₂
  exact hex trivial

/-- A database that keeps what `%f` has written. -/
instance : Sqlite ℚ where
  stored := printF
  quoted := fun _ _ t => t

/-- Program 1 of `db/sql/insert_data_example.sql`; `load` is 0. -/
def exampleRow : ProgRow ℚ :=
  ⟨1, 1, 25, 1800, "both", 1, 1 / 2, 2, 1 / 2, 1, 5, 1, 1, 1, 0⟩

def exampleRowDb : Db ℚ where
  prog := ⟨[exampleRow], List.nodup_singleton 1⟩
  secure := []
  sensors := [⟨1, 1, ⟨⟨0x7f000001, 49178⟩⟩, ⟨0, 0, ⟨0, 0⟩, 0⟩⟩]
  ems := [⟨1, 1, ⟨⟨0x7f000001, 49178⟩⟩, 0, 1000⟩, ⟨2, 2, ⟨⟨0x7f000001, 49178⟩⟩, 0, 1000⟩]

/-- A request is taken up, and `n` actions succeed. -/
def exampleServe (c : Command ℚ) (n : ℕ) : List (DaemonLabel ℚ) :=
  .turn c :: List.replicate n (.main true)

/-- The thread of the program goes around its loop, up to `t`, and its sensor does not answer. -/
def exampleLoop (t : Tick ℚ) : List (DaemonLabel ℚ) :=
  let silence : ControlInput ℚ := ⟨.timeout, .timeout, ⟨0, 0⟩, ⟨0, 0⟩, ⟨0, 0⟩, ⟨0, 0⟩⟩
  [.next, .next, .control silence, .next, .next, t].map fun t => .env (0, t)

/-- The goal is set, the program is disabled, and it is stopped and started. -/
theorem settings_survive_restart_example :
    ∃ (c₁ c₂ : DaemonConfig ℚ) (q : Ptr), (c₁.state.cell 0).prog.reg.goal = 25 / 2 ∧
      Has c₁.state 1 0 ∧ Has c₂.state 1 q ∧
      LoadedWith ⟨(c₁.state.cell 0).prog.reg.settings, (c₁.state.cell 0).prog.save, false⟩
        (c₂.state.cell q) := by
  have hrun : ((run daemonStep (fun _ _ => true) (startUp exampleRowDb)
      (exampleServe .appStart 5 ++ exampleServe .appStart 10)).bind fun c =>
      (run daemonStep (fun _ _ => true) c (exampleServe (.progStart [1]) 25)).bind fun c₀ =>
      (run daemonStep savingStep c₀ (exampleServe (.setGoal [(1, 25 / 2)]) 12 ++
        exampleLoop .next ++ exampleServe (.progDisable [1]) 11)).bind fun c₁ =>
      (run daemonStep succeedingStep c₁ (exampleServe (.progStop [1]) 14 ++
        exampleLoop .cancel ++ List.replicate 6 (.main true) ++
          exampleServe (.progStart [1]) 25)).map fun c₂ =>
      decide ((c.idle = true ∧ c.state.globals.prog_list.top = none ∧
          exampleRow ∈ c.state.globals.db.prog.rows) ∧
        (c₀.idle = true ∧ (c₀.state.globals.app_state = .appRun ∧
          c₀.state.globals.exited = false) ∧ c₀.state.globals.prog_list.top = some 0 ∧
          (c₀.state.cell 0).prog.id = 1) ∧
        (c₁.idle = true ∧ (c₁.state.cell 0).prog.reg.goal = 25 / 2) ∧ c₂.idle = true)) =
      some true := by
    decide +kernel
  obtain ⟨c, hc, hrun⟩ := Option.bind_eq_some_iff.mp hrun
  obtain ⟨c₀, hc₀, hrun⟩ := Option.bind_eq_some_iff.mp hrun
  obtain ⟨c₁, hc₁, hrun⟩ := Option.bind_eq_some_iff.mp hrun
  obtain ⟨c₂, hc₂, hrun⟩ := Option.map_eq_some_iff.mp hrun
  obtain ⟨⟨hi, htop, hrow⟩, ⟨hi₀, hst, htop₀, hid⟩, ⟨hi₁, hgoal⟩, hi₂⟩ := of_decide_eq_true hrun
  have hnew (q : Ptr) : ¬ Has c.state exampleRow.id q := by
    rintro ⟨hl, -⟩
    have hnil : IsList (fun q => (c.state.cell q).prog.next) c.state.globals.prog_list.top [] :=
      htop
    exact List.not_mem_nil (hnil.linked_iff.mp hl)
  have hcs : Serves daemonStep (fun c l => savingStep c l = true) c₀
      [.setGoal [(1, 25 / 2)], .progDisable [1]] c₁ := run_serves hc₁
  have hwrites : ∀ y ∈ [Command.setGoal [(1, (25 / 2 : ℚ))], .progDisable [1]],
      y.Writes SixDecimals := by
    refine List.forall_mem_cons.mpr ⟨?_, List.forall_mem_singleton.mpr trivial⟩
    exact List.forall_mem_singleton.mpr ⟨12500000, by norm_num⟩
  have hsucc := run_serves hc₂
  obtain ⟨hp, hall, hexists⟩ := settings_survive_restart (fun _ => rfl)
    ((run_reach hc).mono fun _ _ _ => trivial) hi
    hrow (by decide) hnew
    ((run_serves hc₀).mono fun _ _ _ => trivial) (by decide) hi₀ hst ⟨.head htop₀, hid⟩
    hcs hwrites hi₁ (.stopStart (List.mem_singleton_self 1)
      (List.mem_singleton_self 1)) (hsucc.mono fun _ _ _ => trivial) hi₂
  obtain ⟨q, hq⟩ := hexists hsucc
  exact ⟨c₁, c₂, q, hgoal, hp, hq, hall q hq⟩

end Regonf
