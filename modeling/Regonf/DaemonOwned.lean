import Regonf.DaemonView
import Regonf.Lib.LinkedList

/-! What the main thread keeps true of the programs: the contract that its scripts are judged
by, and the invariant of `prog_list` between two actions. `clean` and `stored` stand for the
assumptions on the calls that may fail; where they are false nothing is assumed. -/
namespace Regonf

open Script LinkedList

variable {R : Type} [Zero R]

/-- A thread may be created once, and only a created one can be cancelled and joined. -/
def Defined : {β : Type} → CellAct R β → Block R → Prop
  | _, .create, b => b.mem = .allocated ∧ b.thread = .absent
  | _, .cancel, b => b.mem = .allocated ∧ b.thread = .created
  | _, .join, b => b.mem = .allocated ∧ b.thread = .created
  | _, _, b => b.mem = .allocated

/-- A program whose thread is not there, whose mutex the main thread does not hold and whose
mechanisms are off. -/
def Dead (b : Block R) : Prop := b.thread ≠ .created ∧ b.held = false ∧ b.quiet

/-- Every program that was freed is dead; the error path of `initData` is excepted unless
the run is clean. -/
def FreedDead (clean : Prop) (v : View R) : Prop :=
  ∀ p a, (v.cell p).mem = .freed a → clean ∨ a ≠ .appInitData → Dead (v.cell p)

/-- `pthread_create` does not fail, and the query of `loadActiveProg` does not fail once a
program is in the list. -/
def CleanOutcome (w : Fallible) (o : Bool) (list : ProgList) : Prop :=
  (w = .createMThread → o = true) ∧ (w = .loadStep → o = true ∨ list.top = none)

instance (w : Fallible) (o : Bool) (list : ProgList) : Decidable (CleanOutcome w o list) :=
  inferInstanceAs (Decidable (_ ∧ _))

/-- The accesses to the database succeed. -/
def StoredOutcome (w : Fallible) (o : Bool) : Prop :=
  w ∈ [.dbOpen, .loadStep, .progStep, .secureStep, .save] → o = true

instance (w : Fallible) (o : Bool) : Decidable (StoredOutcome w o) :=
  inferInstanceAs (Decidable (_ → _))

/-- The sensor and the mechanisms that a row names are configured. -/
def Resolved (g : Globals R) (row : ProgRow R) : Prop :=
  (getSensorFTSById row.sensor_id g.sensor_list).isSome ∧
    (getEMById row.heater_em_id g.em_list).isSome ∧
    (getEMById row.cooler_em_id g.em_list).isSome

instance (g : Globals R) (row : ProgRow R) : Decidable (Resolved g row) :=
  inferInstanceAs (Decidable (_ ∧ _))

/-- The query that fills a program finds a row, and where the program can be filled from it,
its `load` is 0 or 1. -/
def RowFound (g : Globals R) (id : ℤ) : Prop :=
  ∃ row ∈ g.db.prog.rows, row.id = id ∧ (Resolved g row → row.load = 0 ∨ row.load = 1)

instance (g : Globals R) (id : ℤ) : Decidable (RowFound g id) :=
  inferInstanceAs (Decidable (∃ row ∈ g.db.prog.rows, _))

def contract (clean stored : Prop) : Contract (Act R) Bool (View R) where
  allow
    | _, .attempt w, o, v =>
      (clean → CleanOutcome w o v.globals.prog_list) ∧ (stored → StoredOutcome w o)
    | _, .selectProg id, _, v => stored → RowFound v.globals id
    | _, _, _, _ => True
  demand
    | _, .cell p a, v => clean → Defined a (v.cell p)
    | _, .undefined, _ => ¬ clean
    | _, _, _ => True
  always := FreedDead clean

/-- The judgement on the scripts of the main thread. -/
abbrev Safely (clean stored : Prop) {α : Type} (c : Main R α) (Q : α → View R → Prop)
    (v : View R) : Prop :=
  Safe (exec blockExec zeroBlock) (contract clean stored) c Q v

/-- Put a block at an address. -/
def Daemon.put {C : Type} (v : Daemon R C) (p : Ptr) (b : C) : Daemon R C :=
  { v with cell := Function.update v.cell p b }

section put
variable {C : Type} {v : Daemon R C} {p q : Ptr} {b b' : C}

omit [Zero R]

@[simp] theorem put_globals : (v.put p b).globals = v.globals := rfl

@[simp] theorem put_brk : (v.put p b).brk = v.brk := rfl

@[simp] theorem put_cell_self : (v.put p b).cell p = b := by
  simp only [Daemon.put, Function.update_self]

theorem put_cell_of_ne (h : q ≠ p) : (v.put p b).cell q = v.cell q := by
  simp only [Daemon.put, Function.update_of_ne h]

@[simp] theorem put_put : (v.put p b).put p b' = v.put p b' := by
  simp only [Daemon.put, Function.update_idem]

@[simp] theorem put_self : v.put p (v.cell p) = v := by
  simp only [Daemon.put, Function.update_eq_self]

/-- A function of the blocks sees a `put` as an update. -/
theorem put_comp {γ : Type} (f : C → γ) :
    (fun q => f ((v.put p b).cell q)) = Function.update (fun q => f (v.cell q)) p (f b) := by
  funext q
  rcases eq_or_ne q p with rfl | hq
  · rw [put_cell_self, Function.update_self]
  · rw [put_cell_of_ne hq, Function.update_of_ne hq]

/-- What the block that is put keeps is kept everywhere. -/
theorem put_field {γ : Type} (f : C → γ) (hf : f b = f (v.cell p)) (q : Ptr) :
    f ((v.put p b).cell q) = f (v.cell q) := by
  rcases eq_or_ne q p with rfl | hq
  · rw [put_cell_self, hf]
  · rw [put_cell_of_ne hq]

end put

section rules
variable {clean stored : Prop} {α β : Type} {v : View R} {Q : β → View R → Prop}

theorem safe_globals {f : Globals R → Main R β} (ha : FreedDead clean v)
    (hk : Safely clean stored (f v.globals) Q v) :
    Safely clean stored (globals >>= f) Q v := by
  apply safe_lift ha trivial
  intro o b t _ he
  cases he
  exact hk

theorem safe_blocks {f : ℕ → Main R β} (ha : FreedDead clean v)
    (hk : Safely clean stored (f v.brk) Q v) : Safely clean stored (blocks >>= f) Q v := by
  apply safe_lift ha trivial
  intro o b t _ he
  cases he
  exact hk

theorem safe_setGlobals {f : Unit → Main R β} {g : Globals R → Globals R}
    (ha : FreedDead clean v)
    (hk : Safely clean stored (f ()) Q { v with globals := g v.globals }) :
    Safely clean stored (setGlobals g >>= f) Q v := by
  apply safe_lift ha trivial
  intro o b t _ he
  cases he
  exact hk

theorem safe_attempt {w : Fallible} {f : Bool → Main R β} (ha : FreedDead clean v)
    (hk : ∀ o, (clean → CleanOutcome w o v.globals.prog_list) → (stored → StoredOutcome w o) →
      Safely clean stored (f o) Q v) : Safely clean stored (attempt w >>= f) Q v := by
  apply safe_lift ha trivial
  intro o b t hal he
  cases he
  exact hk o hal.1 hal.2

/-- An access to a program, when it is defined, meets allocated memory. -/
theorem safe_access {p : Ptr} {a : CellAct R α} {f : α → Main R β} (ha : FreedDead clean v)
    (hd : clean → Defined a (v.cell p))
    (hk : ∀ x b, (v.cell p).mem = .allocated →
      blockTouch v.globals.app_state α a (v.cell p) = some (x, b) →
      Safely clean stored (f x) Q (v.put p b)) :
    Safely clean stored (access p a >>= f) Q v := by
  apply safe_lift ha hd
  intro o x t _ he
  obtain ⟨⟨y, b⟩, hb, he⟩ := Option.map_eq_some_iff.mp he
  cases he
  simp only [blockExec, Option.ite_none_right_eq_some] at hb
  exact hk y b hb.1 hb.2

theorem safe_readId {p : Ptr} {f : ℤ → Main R β} (ha : FreedDead clean v)
    (hd : clean → (v.cell p).mem = .allocated)
    (hk : (v.cell p).mem = .allocated → Safely clean stored (f (v.cell p).id) Q v) :
    Safely clean stored (access p .id >>= f) Q v := by
  refine safe_access ha hd fun x b hmem hb => ?_
  cases hb
  rw [put_self]
  exact hk hmem

theorem safe_readNext {p : Ptr} {f : Option Ptr → Main R β} (ha : FreedDead clean v)
    (hd : clean → (v.cell p).mem = .allocated)
    (hk : (v.cell p).mem = .allocated → Safely clean stored (f (v.cell p).next) Q v) :
    Safely clean stored (access p .next >>= f) Q v := by
  refine safe_access ha hd fun x b hmem hb => ?_
  cases hb
  rw [put_self]
  exact hk hmem

/-- The rules for an action at the end of a script. -/
theorem safe_access_last {p : Ptr} {a : CellAct R α} {Q : α → View R → Prop}
    (ha : FreedDead clean v) (hd : clean → Defined a (v.cell p))
    (hk : ∀ x b, (v.cell p).mem = .allocated →
      blockTouch v.globals.app_state α a (v.cell p) = some (x, b) →
      FreedDead clean (v.put p b) ∧ Q x (v.put p b)) :
    Safely clean stored (access p a) Q v :=
  safe_access (f := Pure.pure) ha hd fun x b hmem hb =>
    safe_pure (hk x b hmem hb).1 (hk x b hmem hb).2

theorem safe_setGlobals_last {g : Globals R → Globals R} {Q : Unit → View R → Prop}
    (ha : FreedDead clean v) (hk : Q () { v with globals := g v.globals }) :
    Safely clean stored (setGlobals g) Q v :=
  safe_setGlobals (f := Pure.pure) ha (safe_pure ha hk)

end rules

omit [Zero R] in
/-- Writing to allocated memory keeps the freed programs dead. -/
theorem FreedDead.put {clean : Prop} {v : View R} (h : FreedDead clean v) {p : Ptr}
    {b : Block R} (hb : b.mem = .allocated ∨ Dead b) : FreedDead clean (v.put p b) := by
  intro q a hq hc
  rcases eq_or_ne q p with rfl | hne
  -- the block just written
  · rw [put_cell_self] at hq ⊢
    rcases hb with hb | hb
    · rw [hb] at hq
      cases hq
    · exact hb
  · rw [put_cell_of_ne hne] at hq ⊢
    exact h q a hq hc

/-- The program was filled from the row of its id, whose `load` is 1 now. -/
def FromRow (g : Globals R) (b : Block R) : Prop :=
  ∃ row ∈ g.db.prog.rows, row.id = b.id ∧ row.load = 1 ∧
    ∃ sensor heater cooler, getSensorFTSById row.sensor_id g.sensor_list = some sensor ∧
      getEMById row.heater_em_id g.em_list = some heater ∧
      getEMById row.cooler_em_id g.em_list = some cooler ∧
      b.loaded = some (regOfRow row sensor heater cooler
        (secureOfRows (g.db.secure.filter fun r => r.id = row.secure_id))
        (getSensorFTSById row.green_light_sensor_id g.sensor_list))

/-- A regulator that a program may be started with. -/
def Loadable (b : Block R) : Prop := ∃ reg ∈ b.loaded, EMTracked reg []

/-- `prog_list` holds the programs at `ps`, none of them locked by the main thread. -/
structure Listed (clean stored : Prop) (v : View R) (ps : List Ptr) : Prop where
  list : IsList (fun p => (v.cell p).next) v.globals.prog_list.top ps
  last : v.globals.prog_list.last = ps.getLast?
  length : v.globals.prog_list.length = ps.length
  ids : (ps.map fun p => (v.cell p).id).Nodup
  below : ∀ p ∈ ps, p < v.brk
  fresh : ∀ p, v.brk ≤ p → (v.cell p).mem = .unallocated
  free : ∀ p, (v.cell p).held = false
  dead : FreedDead clean v
  loadable : ∀ p, Loadable (v.cell p)
  known : stored → ∀ p, (v.cell p).thread ≠ .absent →
    ∃ row ∈ v.globals.db.prog.rows, row.id = (v.cell p).id

/-- Besides, in a clean run the programs are alive, and in one where the database answers
they come from their rows. -/
structure Owned (clean stored : Prop) (v : View R) (ps : List Ptr) : Prop extends
    Listed clean stored v ps where
  live : clean → ∀ p ∈ ps, (v.cell p).mem = .allocated ∧ (v.cell p).thread = .created
  rows : stored → ∀ p ∈ ps, FromRow v.globals (v.cell p)

section frame
variable {clean stored : Prop} {v : View R} {ps : List Ptr} {p : Ptr} {b : Block R}

/-- A block may be written to as long as the list does not notice. -/
theorem Listed.put (h : Listed clean stored v ps)
    (hsame : p ∈ ps → b.id = (v.cell p).id ∧ b.next = (v.cell p).next)
    (hb : p < v.brk) (hheld : b.held = false) (hmem : b.mem = .allocated ∨ Dead b)
    (hl : Loadable b) (hk : stored → b.thread ≠ .absent →
      ∃ row ∈ v.globals.db.prog.rows, row.id = b.id) : Listed clean stored (v.put p b) ps where
  list := by
    apply Seg.congr h.list
    intro q hq
    rcases eq_or_ne q p with rfl | hne
    · rw [put_cell_self, (hsame hq).2]
    · rw [put_cell_of_ne hne]
  last := h.last
  length := h.length
  ids := by
    have hmap : ps.map (fun q => ((v.put p b).cell q).id) = ps.map fun q => (v.cell q).id := by
      apply List.map_congr_left
      intro q hq
      rcases eq_or_ne q p with rfl | hne
      · rw [put_cell_self, (hsame hq).1]
      · rw [put_cell_of_ne hne]
    rw [hmap]
    exact h.ids
  below := h.below
  fresh := by
    intro q hq
    have hne : q ≠ p := fun he => absurd hb (by simpa [he] using hq)
    rw [put_cell_of_ne hne]
    exact h.fresh q hq
  free := by
    intro q
    rcases eq_or_ne q p with rfl | hne
    · rw [put_cell_self, hheld]
    · rw [put_cell_of_ne hne]
      exact h.free q
  dead := h.dead.put hmem
  loadable := by
    intro q
    rcases eq_or_ne q p with rfl | hne
    · rw [put_cell_self]
      exact hl
    · rw [put_cell_of_ne hne]
      exact h.loadable q
  known := by
    intro hs q
    rcases eq_or_ne q p with rfl | hne
    · rw [put_cell_self]
      exact hk hs
    · rw [put_cell_of_ne hne]
      exact h.known hs q

/-- A block outside the list may be written to. -/
theorem Owned.put_other (h : Owned clean stored v ps) (hp : p ∉ ps)
    (hb : p < v.brk) (hheld : b.held = false) (hmem : b.mem = .allocated ∨ Dead b)
    (hl : Loadable b) (hk : stored → b.thread ≠ .absent →
      ∃ row ∈ v.globals.db.prog.rows, row.id = b.id) :
    Owned clean stored (v.put p b) ps where
  toListed := h.toListed.put (fun hmem => absurd hmem hp) hb hheld hmem hl hk
  live := by
    intro hc q hq
    have hne : q ≠ p := fun he => hp (he ▸ hq)
    rw [put_cell_of_ne hne]
    exact h.live hc q hq
  rows := by
    intro hs q hq
    have hne : q ≠ p := fun he => hp (he ▸ hq)
    rw [put_cell_of_ne hne]
    exact h.rows hs q hq

/-- What an operation under the mutex leaves as it was. -/
structure SameProg (b b' : Block R) : Prop where
  id : b'.id = b.id
  next : b'.next = b.next
  mem : b'.mem = b.mem
  thread : b'.thread = b.thread
  loaded : b'.loaded = b.loaded

/-- A program in the list may be worked on. -/
theorem Owned.put_same (h : Owned clean stored v ps) (hb : SameProg (v.cell p) b)
    (hheld : b.held = false) (hmem : b.mem = .allocated) : Owned clean stored (v.put p b) ps := by
  -- allocated memory lies below the first unused address
  have hbrk : p < v.brk := by
    by_contra hn
    have hfresh := h.fresh p (Nat.le_of_not_lt hn)
    rw [← hb.mem, hmem] at hfresh
    cases hfresh
  have hlisted : Listed clean stored (v.put p b) ps := by
    refine h.toListed.put (fun _ => ⟨hb.id, hb.next⟩) hbrk hheld (Or.inl hmem) ?_ ?_
    · unfold Loadable
      rw [hb.loaded]
      exact h.loadable p
    · rw [hb.thread, hb.id]
      exact fun hs => h.known hs p
  refine { hlisted with live := ?_, rows := ?_ }
  · intro hc q hq
    rw [put_field Block.mem hb.mem q, put_field Block.thread hb.thread q]
    exact h.live hc q hq
  · intro hs q hq
    obtain ⟨row, hrow, hid, hload, s, eh, ec, hs', hh, hcl, hreg⟩ := h.rows hs q hq
    exact ⟨row, hrow, hid.trans (put_field Block.id hb.id q).symm, hload, s, eh, ec, hs', hh, hcl,
      (put_field Block.loaded hb.loaded q).trans hreg⟩

/-- The links and the list have been rewritten, and nothing else. -/
structure Relinked (v w : View R) (l : ProgList) : Prop where
  globals : w.globals = { v.globals with prog_list := l }
  brk : w.brk = v.brk
  cell : ∀ q, ∃ x, w.cell q = { v.cell q with next := x }

omit [Zero R] in
/-- Rewriting links leaves every other field of a program. -/
theorem Relinked.field {w : View R} {l : ProgList} (hr : Relinked v w l) {γ : Type}
    (f : Block R → γ) (hf : ∀ b x, f { b with next := x } = f b) (q : Ptr) :
    f (w.cell q) = f (v.cell q) := by
  obtain ⟨x, hx⟩ := hr.cell q
  rw [hx]
  exact hf _ x

/-- The invariant for the list that the new links make. -/
theorem Relinked.listed {w : View R} {l : ProgList} {qs : List Ptr} (hr : Relinked v w l)
    (h : Listed clean stored v ps) (hd : FreedDead clean w)
    (hlist : IsList (fun q => (w.cell q).next) l.top qs) (hlast : l.last = qs.getLast?)
    (hlen : l.length = qs.length) (hids : (qs.map fun q => (v.cell q).id).Nodup)
    (hbelow : ∀ q ∈ qs, q < v.brk) : Listed clean stored w qs where
  list := by rw [hr.globals]; exact hlist
  last := by rw [hr.globals]; exact hlast
  length := by rw [hr.globals]; exact hlen
  ids := by
    rw [List.map_congr_left fun q _ => hr.field Block.id (fun _ _ => rfl) q]
    exact hids
  below := by rw [hr.brk]; exact hbelow
  fresh := by
    intro q hq
    rw [hr.brk] at hq
    rw [hr.field Block.mem (fun _ _ => rfl) q]
    exact h.fresh q hq
  free := fun q => (hr.field Block.held (fun _ _ => rfl) q).trans (h.free q)
  dead := hd
  loadable := by
    intro q
    unfold Loadable
    rw [hr.field Block.loaded (fun _ _ => rfl) q]
    exact h.loadable q
  known := by
    intro hs q ht
    rw [hr.globals]
    rw [hr.field Block.thread (fun _ _ => rfl) q] at ht
    rw [hr.field Block.id (fun _ _ => rfl) q]
    exact h.known hs q ht

theorem Relinked.live {w : View R} {l : ProgList} (hr : Relinked v w l)
    (h : Owned clean stored v ps) (hc : clean) (q : Ptr) (hq : q ∈ ps) :
    (w.cell q).mem = .allocated ∧ (w.cell q).thread = .created := by
  rw [hr.field Block.mem (fun _ _ => rfl) q, hr.field Block.thread (fun _ _ => rfl) q]
  exact h.live hc q hq

theorem Relinked.rows {w : View R} {l : ProgList} (hr : Relinked v w l)
    (h : Owned clean stored v ps) (hs : stored) (q : Ptr) (hq : q ∈ ps) :
    FromRow w.globals (w.cell q) := by
  unfold FromRow
  rw [hr.globals, hr.field Block.id (fun _ _ => rfl) q,
    hr.field Block.loaded (fun _ _ => rfl) q]
  exact h.rows hs q hq

/-- The globals that the invariant does not speak of may be written to. -/
theorem Owned.setGlobals (h : Owned clean stored v ps) {g : Globals R}
    (hl : g.prog_list = v.globals.prog_list)
    (hd : g.db = v.globals.db) (hs : g.sensor_list = v.globals.sensor_list)
    (he : g.em_list = v.globals.em_list) :
    Owned clean stored { v with globals := g } ps where
  list := by rw [hl]; exact h.list
  last := by rw [hl]; exact h.last
  length := by rw [hl]; exact h.length
  ids := h.ids
  below := h.below
  fresh := h.fresh
  free := h.free
  dead := h.dead
  loadable := h.loadable
  known := by rw [hd]; exact h.known
  live := h.live
  rows := by
    intro hst q hq
    unfold FromRow
    rw [hd, hs, he]
    exact h.rows hst q hq

/-- Once the list is empty, so are the lists of sensors and mechanisms free to change. -/
theorem Owned.setLists (h : Owned clean stored v []) (sensors : List (SensorFTS R))
    (ems : List (EM R)) :
    Owned clean stored
      { v with globals := { v.globals with sensor_list := sensors, em_list := ems } } [] where
  toListed := { h.toListed with }
  live := h.live
  rows := by
    intro _ q hq
    cases hq

end frame

end Regonf
