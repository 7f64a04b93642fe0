import Regonf.DaemonWalk

/-! What becomes of the programs when programs are started and stopped: one that stays in the
list is as it was, and a new one is as its row fills it. -/
namespace Regonf

variable {R : Type}

/-- The rows of the table up to their `load`. -/
def ProgTable.unloaded (t : ProgTable R) : List (ProgRow R) :=
  t.rows.map fun row => { row with load := 0 }

theorem ProgTable.exists_unloaded {t t' : ProgTable R} (h : t'.unloaded = t.unloaded)
    {row' : ProgRow R} (hrow : row' ∈ t'.rows) :
    ∃ row ∈ t.rows, row' = { row with load := row'.load } := by
  have hmem : ({ row' with load := 0 } : ProgRow R) ∈ t.unloaded := h ▸ List.mem_map_of_mem hrow
  obtain ⟨row, hr, he⟩ := List.mem_map.mp hmem
  refine ⟨row, hr, ?_⟩
  calc
    row' = { ({ row' with load := 0 } : ProgRow R) with load := row'.load } := rfl
    _ = { row with load := row'.load } := by rw [← he]

/-- Saving `load` changes nothing else. -/
theorem ProgTable.unloaded_load [Sqlite R] (t : ProgTable R) (id x : ℤ) :
    (dbSaveTableField t id (.load x)).unloaded = t.unloaded := by
  change (t.rows.map _).map _ = _
  rw [List.map_map]
  refine List.map_congr_left fun row _ => ?_
  dsimp only [Function.comp_apply]
  split_ifs <;> rfl

/-- What the main loop goes by. -/
def Globals.flags (g : Globals R) : AppState × Bool × Bool :=
  (g.app_state, g.data_initialized, g.exited)

/-- What a row is resolved by. -/
def Globals.configured (g : Globals R) : List (SensorFTS R) × List (EM R) :=
  (g.sensor_list, g.em_list)

/-- What starting and stopping a program leave alone. -/
def Globals.settled (g : Globals R) :
    (AppState × Bool × Bool) × (List (SensorFTS R) × List (EM R)) × List (ProgRow R) :=
  (g.flags, g.configured, g.db.prog.unloaded)

theorem settled_eq {g g' : Globals R} (h : g'.settled = g.settled) :
    g'.flags = g.flags ∧ g'.configured = g.configured ∧
      g'.db.prog.unloaded = g.db.prog.unloaded :=
  ⟨congrArg (fun x => x.1) h, congrArg (fun x => x.2.1) h, congrArg (fun x => x.2.2) h⟩

/-- What is left alone besides where the configuration is read or dropped. -/
def Globals.base (g : Globals R) : (AppState × Bool × Bool) × List (ProgRow R) :=
  (g.flags, g.db.prog.unloaded)

/-- The globals after a column of a row has been saved. -/
def Globals.saved [Sqlite R] (g : Globals R) (id : ℤ) (c : Column R) : Globals R :=
  { g with db := { g.db with prog := dbSaveTableField g.db.prog id c } }

theorem settled_saved_load [Sqlite R] (g : Globals R) (id x : ℤ) :
    (g.saved id (.load x)).settled = g.settled := by
  unfold Globals.settled
  dsimp only [Globals.saved]
  rw [g.db.prog.unloaded_load]
  rfl

/-- What is kept of a program that is neither written to nor operated on. -/
def Block.kept (b : Block R) : ℤ × ℤ × Option (RegOnfHC R) × List (Op R) :=
  (b.id, b.save, b.loaded, b.ops)

variable [Zero R]

/-- The program is as its row fills it, if it has a row. -/
def AsFilled (g : Globals R) (b : Block R) : Prop :=
  ∀ row ∈ g.db.prog.rows, row.id = b.id → b.save = row.save ∧ b.ops = [] ∧ Resolved g row ∧
    ∃ sensor heater cooler secure_out green,
      b.loaded = some (regOfRow row sensor heater cooler secure_out green)

theorem AsFilled.congr {g g' : Globals R} {b b' : Block R} (h : AsFilled g b)
    (hrows : g'.db.prog.unloaded = g.db.prog.unloaded) (hc : g'.configured = g.configured)
    (hb : b'.kept = b.kept) : AsFilled g' b' := by
  intro row' hrow' hid
  obtain ⟨hbid, hsave, hloaded, hops⟩ : b'.id = b.id ∧ b'.save = b.save ∧ b'.loaded = b.loaded ∧
      b'.ops = b.ops := by simpa [Block.kept] using hb
  obtain ⟨hs, he⟩ : g'.sensor_list = g.sensor_list ∧ g'.em_list = g.em_list := by
    simpa [Globals.configured] using hc
  -- the row has been there before, with another `load` at most, which fills nothing
  obtain ⟨row, hrow, hrow'⟩ := ProgTable.exists_unloaded hrows hrow'
  rw [hrow'] at hid ⊢
  obtain ⟨h₁, h₂, h₃, h₄⟩ := h row hrow (hid.trans hbid)
  refine ⟨hsave.trans h₁, hops.trans h₂, ?_, ?_⟩
  · unfold Resolved at h₃ ⊢
    rw [hs, he]
    exact h₃
  · obtain ⟨sensor, heater, cooler, secure_out, green, hl⟩ := h₄
    exact ⟨sensor, heater, cooler, secure_out, green, hloaded.trans hl⟩

/-- Programs have been started and stopped: the list was `ps` and is `qs`. -/
structure Evolves (v : View R) (ps : List Ptr) (w : View R) (qs : List Ptr) : Prop where
  rows : w.globals.db.prog.unloaded = v.globals.db.prog.unloaded
  progs : ∀ q ∈ qs, AsFilled w.globals (w.cell q) ∨
    (q ∈ ps ∧ (w.cell q).kept = (v.cell q).kept ∧ w.globals.configured = v.globals.configured)

theorem Evolves.refl (v : View R) (ps : List Ptr) : Evolves v ps v ps :=
  ⟨rfl, fun _ hq => Or.inr ⟨hq, rfl, rfl⟩⟩

theorem Evolves.trans {u v w : View R} {ps qs rs : List Ptr} (h : Evolves u ps v qs)
    (h' : Evolves v qs w rs) : Evolves u ps w rs where
  rows := h'.rows.trans h.rows
  progs := by
    intro q hq
    -- new in the second step, new in the first and kept since, or kept by both
    rcases h'.progs q hq with hf | ⟨hqs, hk, hc⟩
    · exact Or.inl hf
    · rcases h.progs q hqs with hf | ⟨hps, hk', hc'⟩
      · exact Or.inl (hf.congr h'.rows hc hk)
      · exact Or.inr ⟨hps, hk.trans hk', hc.trans hc'⟩

/-- An empty list has no programs to ask about. -/
theorem evolves_empty {v w : View R} {ps : List Ptr}
    (h : w.globals.db.prog.unloaded = v.globals.db.prog.unloaded) : Evolves v ps w [] :=
  ⟨h, List.forall_mem_nil _⟩

theorem Evolves.of_empty {u v w : View R} {ps qs : List Ptr}
    (h : v.globals.db.prog.unloaded = u.globals.db.prog.unloaded) (h' : Evolves v [] w qs) :
    Evolves u ps w qs :=
  ⟨h'.rows.trans h, fun q hq => Or.inl ((h'.progs q hq).resolve_right
    fun hs => List.not_mem_nil hs.1)⟩

/-- Programs have been taken out of the list. -/
structure Shrinks (v : View R) (ps : List Ptr) (w : View R) (qs : List Ptr) : Prop where
  settled : w.globals.settled = v.globals.settled
  subset : qs ⊆ ps
  kept : ∀ q ∈ qs, (w.cell q).kept = (v.cell q).kept

omit [Zero R] in
theorem Shrinks.refl (v : View R) (ps : List Ptr) : Shrinks v ps v ps :=
  ⟨rfl, fun _ hq => hq, fun _ _ => rfl⟩

omit [Zero R] in
theorem Shrinks.trans {u v w : View R} {ps qs rs : List Ptr} (h : Shrinks u ps v qs)
    (h' : Shrinks v qs w rs) : Shrinks u ps w rs :=
  ⟨h'.settled.trans h.settled, fun _ hq => h.subset (h'.subset hq),
    fun q hq => (h'.kept q hq).trans (h.kept q (h'.subset hq))⟩

theorem Shrinks.evolves {v w : View R} {ps qs : List Ptr} (h : Shrinks v ps w qs) :
    Evolves v ps w qs where
  rows := (settled_eq h.settled).2.2
  progs := fun q hq => Or.inr ⟨h.subset hq, h.kept q hq, (settled_eq h.settled).2.1⟩

/-- `addProgById` has been called and its result is `o`: the program of the id is behind the
others, or the list is as it was. -/
structure Added (v : View R) (ps : List Ptr) (id : ℤ) (o : Bool) (w : View R) (qs : List Ptr) :
    Prop where
  settled : w.globals.settled = v.globals.settled
  kept : ∀ q ∈ ps, (w.cell q).kept = (v.cell q).kept
  list : (o = false ∧ qs = ps) ∨
    ∃ p, qs = ps ++ [p] ∧ (w.cell p).id = id ∧ AsFilled w.globals (w.cell p)

theorem Added.evolves {v w : View R} {ps qs : List Ptr} {id : ℤ} {o : Bool}
    (h : Added v ps id o w qs) : Evolves v ps w qs where
  rows := (settled_eq h.settled).2.2
  progs := by
    intro q hq
    have hc := (settled_eq h.settled).2.1
    rcases h.list with ⟨-, rfl⟩ | ⟨p, rfl, -, hf⟩
    · exact Or.inr ⟨hq, h.kept q hq, hc⟩
    · rcases List.mem_append.mp hq with hq | hq
      · exact Or.inr ⟨hq, h.kept q hq, hc⟩
      · rw [List.mem_singleton.mp hq]
        exact Or.inl hf

/-- The invariant holds for the list that the programs have evolved to, and what the main loop
goes by is as it was. -/
def Evolved (clean stored : Prop) (v : View R) (ps : List Ptr) (w : View R) : Prop :=
  ∃ qs, Owned clean stored w qs ∧ Evolves v ps w qs ∧ w.globals.flags = v.globals.flags

theorem Evolved.dead {clean stored : Prop} {v w : View R} {ps : List Ptr}
    (h : Evolved clean stored v ps w) : FreedDead clean w := by
  obtain ⟨qs, hq, -⟩ := h
  exact hq.dead

end Regonf
