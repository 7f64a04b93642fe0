import Mathlib.Data.List.Find
import Regonf.DaemonAllOrNothing
import Regonf.DaemonDelete

/-! Any sequence of calls of `addProg`, `addProgById` and `deleteProgById`: `prog_list` represents
the sequence of programs that the calls make. -/
namespace Regonf

open Script LinkedList

variable {R : Type} [Zero R] {keep : List Ptr} {v : View R} {l : Attempts} {ps qs : List Ptr}

/-- The program at `p` has been taken out of the list. -/
structure Shortened (v : View R) (ps : List Ptr) (p : Ptr) (w : View R) : Prop where
  represents : w.Represents ps
  not_mem : p ∉ ps
  rewired : Rewired v w
  cell : w.cell p = v.cell p

theorem sparing_unlinkProg {stops : Bool} {p : Ptr} (h : v.Represents (ps ++ p :: qs)) :
    Sparing keep stops (unlinkProg ps.getLast? p)
      (fun _ w l' => Shortened v (ps ++ qs) p w ∧ l' = l) v l := by
  have hp : p ∈ ps ++ p :: qs := by simp
  have hlen : v.globals.prog_list.length - 1 = (ps ++ qs).length := by
    rw [h.length]
    simp
  have hmem : ∀ q ∈ ps ++ qs, (v.cell q).mem = .allocated := by
    intro q hq
    apply h.alive q
    rcases List.mem_append.mp hq with hq | hq <;> simp [hq]
  -- a list does not meet a node twice
  have hnot : p ∉ ps ++ qs :=
    (List.nodup_cons.mp (List.perm_middle.nodup_iff.mp h.list.nodup)).1
  have hlast := last_unlinked h.list.nodup
  rw [← h.last] at hlast
  refine sparing_readNext (h.alive p hp) ?_
  rcases List.eq_nil_or_concat' ps with rfl | ⟨bs, a, rfl⟩
  · -- the program is the first of the list
    have hr : Rewired v { v with globals := { v.globals with prog_list :=
        { top := (v.cell p).next
          last := if v.globals.prog_list.last = some p then none else v.globals.prog_list.last
          length := v.globals.prog_list.length - 1 } } } :=
      ⟨rfl, rfl, fun q => ⟨(v.cell q).next, (v.cell q).held, rfl, id⟩⟩
    exact sparing_setGlobals (sparing_setGlobals_last
      ⟨⟨hr.represents h h.list.2 hlast hlen hmem, hnot, hr, rfl⟩, rfl⟩)
  · have ha : a ∈ bs ++ [a] ++ p :: qs := by simp
    have hpa : p ≠ a := by
      rintro rfl
      exact hnot (by simp)
    rw [List.getLast?_concat] at hlast ⊢
    refine (sparing_relink (h.alive a ha)).seq fun _ w l' hw => ?_
    obtain ⟨rfl, rfl⟩ := hw
    have hr : Rewired v { v.put a ((v.cell a).relinked (v.cell p).next) with
        globals := { v.globals with prog_list := { v.globals.prog_list with
          last := if v.globals.prog_list.last = some p then some a
            else v.globals.prog_list.last
          length := v.globals.prog_list.length - 1 } } } := by
      refine ⟨rfl, rfl, fun q => ?_⟩
      rcases eq_or_ne q a with rfl | hne
      · exact ⟨(v.cell p).next, false, put_cell_self, nofun⟩
      · exact ⟨(v.cell q).next, (v.cell q).held, put_cell_of_ne hne, id⟩
    exact sparing_setGlobals_last ⟨⟨hr.represents h (put_unlink h.list rfl) hlast hlen hmem,
      hnot, hr, put_cell_of_ne hpa⟩, rfl⟩

/-- What is known of a deletion: no program has the id, or the first one that has it is gone. -/
def DeleteCase (v : View R) (ps : List Ptr) (id : ℤ) (o : Bool) (w : View R) : Prop :=
  (∀ q, (w.cell q).id = (v.cell q).id) ∧
    ((o = false ∧ w.Represents ps ∧ ∀ q ∈ ps, (v.cell q).id ≠ id) ∨
      (o = true ∧ ∃ as p bs, ps = as ++ p :: bs ∧ (∀ q ∈ as, (v.cell q).id ≠ id) ∧
        (v.cell p).id = id ∧ w.Represents (as ++ bs)))

variable [Sqlite R]

/-- A program that has been taken out of the list is stopped and freed. -/
theorem sparing_releaseProg {p : Ptr} {w : View R} (h : w.Represents ps) (hp : p ∉ ps)
    (hm : (w.cell p).mem = .allocated) (hl : Calm l) :
    Sparing [] true (do
      stopProgThread p
      saveTableField (← access p .id) (.load 0) false
      freeProg p
      return true) (fun o u _ => o = true ∧ u.Represents ps ∧
        ∀ q, (u.cell q).id = (w.cell q).id) w l := by
  have had {β : Type} (a : CellAct R β) : admits [] true p a = true := by simp [admits]
  have hstop : Sparing [] true (stopProgThread p)
      (fun _ u l' => u = w.put p (w.cell p).joined ∧ l' = l) w l := by
    refine sparing_access hm (had _) fun _ b hb => ?_
    simp only [blockTouch, Option.ite_none_right_eq_some] at hb
    obtain ⟨-, hb⟩ := hb
    cases hb
    rw [put_self]
    refine sparing_access (f := Pure.pure) hm (had _) fun _ b hb => ?_
    simp only [blockTouch, Option.ite_none_right_eq_some] at hb
    obtain ⟨-, hb⟩ := hb
    cases hb
    exact sparing_pure ⟨rfl, rfl⟩
  apply hstop.seq
  intro _ u l' hu
  obtain ⟨rfl, rfl⟩ := hu
  have hj : View.Represents (w.put p (w.cell p).joined) ps := h.put_same rfl rfl
  have hself : (w.put p (w.cell p).joined).cell p = (w.cell p).joined := put_cell_self
  refine sparing_readId (by rw [hself]; exact hm) ?_
  refine (sparing_saveTableField hl).seq fun _ u l' hu => ?_
  obtain ⟨⟨db, rfl⟩, -⟩ := hu
  refine sparing_access (by rw [put_cell_self]; exact hm) (had _) fun _ b hb => ?_
  cases hb
  have hlt : p < w.brk := h.lt_brk hm
  have hdb : View.Represents { w.put p (w.cell p).joined with
      globals := { w.globals with db := db } } ps := { hj with }
  refine sparing_pure ⟨rfl, hdb.put hp hlt, fun q => ?_⟩
  rw [put_field Block.id (by rw [hself])]
  exact put_field (v := w) (b := (w.cell p).joined) Block.id rfl q

/-- The loop of `deleteProgById`, with the programs it has passed at `ps`. -/
theorem sparing_deleteProgFrom {id : ℤ} {n : ℕ} (h : v.Represents (ps ++ qs))
    (hn : qs.length ≤ n) (hps : ∀ p ∈ ps, (v.cell p).id ≠ id) (hl : Calm l) :
    Sparing [] true (deleteProgFrom id n ps.getLast? qs.head?)
      (fun o w _ => DeleteCase v (ps ++ qs) id o w) v l := by
  -- on the programs still to come; those at `ps` have other ids
  induction qs generalizing n ps with
  | nil =>
    have hnone : DeleteCase v (ps ++ []) id false v :=
      ⟨fun _ => rfl, Or.inl ⟨rfl, h, by simpa using hps⟩⟩
    cases n <;> exact sparing_pure hnone
  | cons p qs ih =>
    have hm : (v.cell p).mem = .allocated := h.alive p (by simp)
    cases n with
    | zero => exact absurd hn (by simp)
    | succ n =>
      apply sparing_readId hm
      split_ifs with hid
      · -- the program is there: its predecessor is the last of those passed
        refine (sparing_unlinkProg h).seq fun _ w l' hw => ?_
        obtain ⟨hw, rfl⟩ := hw
        have hmw : (w.cell p).mem = .allocated := by
          rw [hw.cell]
          exact hm
        apply (sparing_releaseProg hw.represents hw.not_mem hmw hl).mono
        rintro o ⟨u, l''⟩ - ⟨ho, hu, hids⟩
        exact ⟨fun q => (hids q).trans (hw.rewired.field Block.id (fun _ _ _ => rfl) q),
          Or.inr ⟨ho, ps, p, qs, rfl, hps, hid, hu⟩⟩
      · apply sparing_readNext hm
        rw [(IsList.next_getLast h.list).head?_eq]
        have hap : ps ++ [p] ++ qs = ps ++ p :: qs := (List.append_cons ps p qs).symm
        have hpassed : ∀ q ∈ ps ++ [p], (v.cell q).id ≠ id :=
          List.forall_mem_append.mpr ⟨hps, List.forall_mem_singleton.mpr hid⟩
        have hv : v.Represents (ps ++ [p] ++ qs) := by
          rw [hap]
          exact h
        have hrest := ih hv (Nat.le_of_succ_le_succ hn) hpassed
        rwa [List.getLast?_concat, hap] at hrest

theorem sparing_deleteProgById {id : ℤ} (h : v.Represents ps) (hl : Calm l) :
    Sparing [] true (deleteProgById id) (fun o w _ => DeleteCase v ps id o w) v l := by
  refine sparing_blocks (sparing_globals ?_)
  rw [h.list.head?_eq]
  have hv : v.Represents ([] ++ ps) := h
  exact sparing_deleteProgFrom hv (length_le_brk h.list h.below) (List.forall_mem_nil _) hl

omit [Zero R] [Sqlite R] in
/-- The last program of the list has no successor, and an empty list has no ends. -/
theorem Represents.ends {C : Type} {next : C → Option Ptr} {mem : C → Memory} {v : Daemon R C}
    (h : Represents next mem v ps) :
    (∀ p, v.globals.prog_list.last = some p → next (v.cell p) = none) ∧
      (v.globals.prog_list.length = 0 →
        v.globals.prog_list.top = none ∧ v.globals.prog_list.last = none) := by
  constructor
  · intro p hp
    rw [h.last] at hp
    obtain ⟨qs, rfl⟩ := List.getLast?_eq_some_iff.mp hp
    exact IsList.next_getLast h.list
  · intro h0
    have hnil : ps = [] := List.length_eq_zero_iff.mp (h.length.symm.trans h0)
    subst hnil
    exact ⟨h.list, h.last⟩

/-- The calls that change the list. `p` is a program that the caller has set up, with the id
`id`. -/
inductive ListCall where
  | addProg (p : Ptr) (id : ℤ)
  | addProgById (id : ℤ) (dbl : Bool)
  | deleteProgById (id : ℤ)
deriving DecidableEq, Repr

def ListCall.script : ListCall → Main R Bool
  | .addProg p _ => Regonf.addProg p
  | .addProgById id dbl => Regonf.addProgById id dbl
  | .deleteProgById id => Regonf.deleteProgById id

/-- The sequence of the programs in the list, each with its id. -/
abbrev ProgSeq := List (Ptr × ℤ)

/-- What a call is to make of the sequence; `o` is its result. -/
def ListCall.Makes : ListCall → Bool → ProgSeq → ProgSeq → Prop
  | .addProg p id, true, xs, ys => ys = xs ++ [(p, id)]
  | .addProgById id _, true, xs, ys => (∀ x ∈ xs, x.2 ≠ id) ∧ ∃ p, ys = xs ++ [(p, id)]
  | .deleteProgById id, o, xs, ys =>
    ys = xs.eraseP (fun x => x.2 = id) ∧ (o = true ↔ ∃ x ∈ xs, x.2 = id)
  | _, false, xs, ys => ys = xs

/-- The sequence that the calls, each with its result, make of the empty one. -/
inductive Follows : List (ListCall × Bool) → ProgSeq → Prop where
  | nil : Follows [] []
  | snoc {cs : List (ListCall × Bool)} {xs ys : ProgSeq} {c : ListCall} {o : Bool}
      (h : Follows cs xs) (hc : c.Makes o xs ys) : Follows (cs ++ [(c, o)]) ys

/-- Calls that refuse an id already present keep the ids distinct. -/
theorem Follows.nodup {cs : List (ListCall × Bool)} {xs : ProgSeq} (h : Follows cs xs)
    (hn : ∀ p id o, (ListCall.addProg p id, o) ∉ cs) : (xs.map Prod.snd).Nodup := by
  -- on the calls: an id is appended only where it is new
  induction h with
  | nil => exact List.nodup_nil
  | @snoc cs xs ys c o h hc ih =>
    have hnd := ih fun p id o hmem => hn p id o (List.mem_append_left _ hmem)
    cases c with
    | addProg p id =>
      have hmem : (ListCall.addProg p id, o) ∈ cs ++ [(ListCall.addProg p id, o)] := by simp
      exact absurd hmem (hn p id o)
    | addProgById id dbl =>
      cases o with
      | false =>
        cases hc
        exact hnd
      | true =>
        obtain ⟨hid, p, rfl⟩ := hc
        rw [List.map_append, List.map_singleton]
        refine List.Nodup.append hnd (List.nodup_singleton id) fun i hi hi' => ?_
        obtain ⟨x, hx, rfl⟩ := List.mem_map.mp hi
        exact hid x hx (List.mem_singleton.mp hi')
    | deleteProgById id =>
      cases hc.1
      exact hnd.sublist (List.eraseP_sublist.map Prod.snd)

/-- `prog_list` holds the programs of the sequence. -/
structure Daemon.Holds (s : Daemon R (Cell R)) (xs : ProgSeq) : Prop where
  lists : s.Lists (xs.map Prod.fst)
  ids : ∀ x ∈ xs, (s.cell x.1).prog.id = x.2
  coherent : Coherent s

/-- What a caller of `addProg` provides: a program that is not in the list and has no
successor. -/
def ListCall.Ready (s : Daemon R (Cell R)) : ListCall → Prop
  | .addProg p id =>
    ¬ Linked (fun q => (s.cell q).prog.next) s.globals.prog_list.top p ∧
      (s.cell p).mem = .allocated ∧ (s.cell p).prog.next = none ∧ (s.cell p).prog.id = id
  | _ => True

/-- What happens between two calls: the list and the links and ids of its programs stay. -/
structure Aside (s t : Daemon R (Cell R)) : Prop where
  list : t.globals.prog_list = s.globals.prog_list
  node : ∀ p, Linked (fun q => (s.cell q).prog.next) s.globals.prog_list.top p →
    (t.cell p).prog.next = (s.cell p).prog.next ∧ (t.cell p).prog.id = (s.cell p).prog.id ∧
      (t.cell p).mem = (s.cell p).mem
  fresh : ∀ p, t.brk ≤ p → (t.cell p).mem = .unallocated
  coherent : Coherent t

omit [Zero R] [Sqlite R] in
theorem Aside.holds {s t : Daemon R (Cell R)} {xs : ProgSeq} (ha : Aside s t)
    (h : s.Holds xs) : t.Holds xs := by
  have hnode (q : Ptr) (hq : q ∈ xs.map Prod.fst) := ha.node q (.of_seg h.lists.list hq)
  refine ⟨h.lists.congr ha.list (fun q hq => (hnode q hq).1) (fun q hq => ?_) ha.fresh,
    fun x hx => ?_, ha.coherent⟩
  · rw [(hnode q hq).2.2]
    exact h.lists.alive q hq
  · rw [(hnode x.1 (List.mem_map_of_mem hx)).2.1]
    exact h.ids x hx

variable [Add R] [Sub R] [LT R] [DecidableLT R] [BEq R]

/-- The daemon's steps within a call. -/
abbrev CallRuns {α : Type} (c : Main R α) (s : Daemon R (Cell R)) (l : Attempts)
    (d : Main R α) (t : Daemon R (Cell R)) : Prop :=
  Runs (exec cellExec zeroCell) threadStep noteAttempt c s l d t

/-- Any number of calls from `s`. Of a call that returns 0 it is only asked that the creation of
a thread has not failed. -/
inductive Calls (s : Daemon R (Cell R)) : List (ListCall × Bool) → Daemon R (Cell R) → Prop where
  | nil : Calls s [] s
  | aside {cs : List (ListCall × Bool)} {t u : Daemon R (Cell R)} (h : Calls s cs t)
      (ha : Aside t u) : Calls s cs u
  | call {cs : List (ListCall × Bool)} {t u : Daemon R (Cell R)} {c : ListCall} {o : Bool}
      {l : Attempts} (h : Calls s cs t) (hc : c.Ready t) (hr : CallRuns c.script t l (.pure o) u)
      (hl : o = false → (Fallible.createMThread, false) ∉ l) : Calls s (cs ++ [(c, o)]) u

section step
variable {s t : Daemon R (Cell R)} {xs ys : ProgSeq} {p : Ptr} {id : ℤ} {dbl o : Bool}

omit [Sqlite R] in
/-- What the main thread knows at the end of a run, or in its middle. -/
theorem runs_view {α : Type} {c d : Main R α} {stops : Bool} {Q : α → View R → Attempts → Prop}
    (hc : Coherent s) (h : CallRuns c s l d t) (hs : Sparing keep stops c Q s.view []) :
    ∃ w, Sees t w ∧ Sparing keep stops d Q w l := by
  obtain ⟨w, hw, hd, -⟩ := Runs.safe sees_simulates (fun _ _ _ _ => trivial)
    (P := fun _ => True) (fun _ _ _ _ _ => trivial) (fun _ _ _ _ _ _ _ _ _ _ _ => trivial) h
    (sees_view hc) trivial hs
  exact ⟨w, hw, hd⟩

omit [Sqlite R] in
theorem Sees.holds {w : View R} (hw : Sees t w) (hr : w.Represents (ys.map Prod.fst))
    (hi : ∀ y ∈ ys, (w.cell y.1).id = y.2) : t.Holds ys :=
  ⟨hw.lists hr, fun y hy => (hw.2.2 y.1).id.trans (hi y hy), hw.coherent⟩

omit [Zero R] [Sqlite R] [Add R] [Sub R] [LT R] [DecidableLT R] [BEq R] in
theorem Daemon.Holds.not_mem (h : s.Holds xs)
    (hp : ¬ Linked (fun q => (s.cell q).prog.next) s.globals.prog_list.top p) :
    p ∉ xs.map Prod.fst := fun hmem => hp (.of_seg h.lists.list hmem)

omit [Sqlite R] in
theorem holds_addProg (h : s.Holds xs) (hp : (ListCall.addProg p id).Ready s)
    (hr : CallRuns (addProg p) s l (.pure o) t) :
    ∃ ys, (ListCall.addProg p id).Makes o xs ys ∧ t.Holds ys := by
  obtain ⟨hlinked, hmem, hnext, hid⟩ := hp
  have hsafe : Sparing [] true (addProg p) _ s.view [] :=
    sparing_addProg h.lists.view (h.not_mem hlinked) hmem hnext
  obtain ⟨w, hw, -, -, hq⟩ := runs_view h.coherent hr hsafe
  rcases hq with ⟨rfl, rfl, -⟩ | ⟨rfl, hlen⟩
  · exact ⟨xs, rfl, hw.holds h.lists.view h.ids⟩
  · refine ⟨xs ++ [(p, id)], rfl, hw.holds ?_ fun y hy => ?_⟩
    · rw [List.map_append]
      exact hlen.represents
    · rw [hlen.rewired.field Block.id (fun _ _ _ => rfl)]
      rcases List.mem_append.mp hy with hy | hy
      · exact h.ids y hy
      · rw [List.mem_singleton.mp hy]
        exact hid

theorem holds_addProgById (h : s.Holds xs) (hr : CallRuns (addProgById id dbl) s l (.pure o) t)
    (hl : o = false → (Fallible.createMThread, false) ∉ l) :
    ∃ ys, (ListCall.addProgById id dbl).Makes o xs ys ∧ t.Holds ys := by
  obtain ⟨w, hw, hcase, hspared⟩ := addProgById_case h.lists h.coherent hr
  have hids (y : Ptr × ℤ) (hy : y ∈ xs) : (w.cell y.1).id = y.2 := by
    rw [← (hw.2.2 y.1).id, (hspared.kept y.1 (List.mem_map_of_mem hy)).2.id]
    exact h.ids y hy
  cases hcase with
  | refused calm list cell represents => exact ⟨xs, rfl, hw.holds represents hids⟩
  | added calm ids held represents new thread =>
    refine ⟨xs ++ [(s.brk, id)], ⟨fun x hx => ?_, s.brk, rfl⟩, hw.holds ?_ fun y hy => ?_⟩
    · rw [← h.ids x hx]
      exact ids x.1 (List.mem_map_of_mem hx)
    · rw [List.map_append]
      exact represents
    · rcases List.mem_append.mp hy with hy | hy
      · exact hids y hy
      · rw [List.mem_singleton.mp hy]
        exact new
  -- the creation of the thread has failed
  | dangling failed length => exact absurd (hl rfl) failed

theorem holds_deleteProgById (h : s.Holds xs)
    (hr : CallRuns (deleteProgById id) s l (.pure o) t) :
    ∃ ys, (ListCall.deleteProgById id).Makes o xs ys ∧ t.Holds ys := by
  obtain ⟨w, hw, -, hids, hq⟩ := runs_view h.coherent hr
    (sparing_deleteProgById h.lists.view (by simp [Calm]))
  have hid (y : Ptr × ℤ) (hy : y ∈ xs) : (w.cell y.1).id = y.2 := (hids y.1).trans (h.ids y hy)
  rcases hq with ⟨rfl, hrep, hne⟩ | ⟨rfl, as, p, bs, hps, hne, hp, hrep⟩
  · -- no program has the id
    have hnone : ∀ x ∈ xs, ¬ x.2 = id := by
      intro x hx
      rw [← h.ids x hx]
      exact hne x.1 (List.mem_map_of_mem hx)
    refine ⟨xs, ⟨?_, ?_⟩, hw.holds hrep hid⟩
    · exact (List.eraseP_of_forall_not (by simpa using hnone)).symm
    · refine iff_of_false Bool.false_ne_true fun hex => ?_
      obtain ⟨x, hx, he⟩ := hex
      exact hnone x hx he
  · -- the programs in front of it have other ids
    obtain ⟨xs₁, xs₂, rfl, rfl, h₂⟩ := List.map_eq_append_iff.mp hps
    obtain ⟨x, ys, rfl, rfl, rfl⟩ := List.map_eq_cons_iff.mp h₂
    have hx : x.2 = id := (h.ids x (by simp)).symm.trans hp
    have hnone : ∀ y ∈ xs₁, ¬ y.2 = id := by
      intro y hy
      rw [← h.ids y (by simp [hy])]
      exact hne y.1 (List.mem_map_of_mem hy)
    refine ⟨xs₁ ++ ys, ⟨?_, iff_of_true rfl ⟨x, by simp, hx⟩⟩, hw.holds ?_ fun y hy => ?_⟩
    · rw [List.eraseP_append_right _ (by simpa using hnone),
        List.eraseP_cons_of_pos (by simpa using hx)]
    · rw [List.map_append]
      exact hrep
    · apply hid y
      rcases List.mem_append.mp hy with hy | hy <;> simp [hy]

/-- One call makes of the sequence what it is to make. -/
theorem holds_call {c : ListCall} (h : s.Holds xs) (hc : c.Ready s)
    (hr : CallRuns c.script s l (.pure o) t)
    (hl : o = false → (Fallible.createMThread, false) ∉ l) :
    ∃ ys, c.Makes o xs ys ∧ t.Holds ys := by
  cases c with
  | addProg p id => exact holds_addProg h hc hr
  | addProgById id dbl => exact holds_addProgById h hr hl
  | deleteProgById id => exact holds_deleteProgById h hr

/-- No call runs into a null pointer or does not come to the end of the list. -/
theorem call_defined {c : ListCall} {d : Main R Bool} (h : s.Holds xs) (hc : c.Ready s)
    (hr : CallRuns c.script s l d t) (k : Empty → Main R Bool) : d ≠ .act .undefined k := by
  rintro rfl
  cases c with
  | addProg p id =>
    have hsafe : Sparing [] true (addProg p) _ s.view [] :=
      sparing_addProg h.lists.view (h.not_mem hc.1) hc.2.1 hc.2.2.1
    obtain ⟨w, -, hd⟩ := runs_view h.coherent hr hsafe
    exact hd.2.1
  | addProgById id dbl =>
    have hsafe : Sparing _ true (addProgById id dbl) _ s.view [] :=
      sparing_addProgById h.lists.view (by simp [Calm])
    obtain ⟨w, -, hd⟩ := runs_view h.coherent hr hsafe
    exact hd.2.1
  | deleteProgById id =>
    obtain ⟨w, -, hd⟩ := runs_view h.coherent hr
      (sparing_deleteProgById h.lists.view (by simp [Calm]))
    exact hd.2.1

omit [Sqlite R] in
/-- `getProgById` finds the first program of the id. -/
theorem holds_getProgById {r : Option Ptr} (h : s.Holds xs)
    (hr : CallRuns (getProgById id) s l (.pure r) t) :
    r = (xs.find? fun x => x.2 = id).map Prod.fst := by
  have hsafe : Sparing [] true (getProgById id) _ s.view [] := sparing_getProgById h.lists.view
  obtain ⟨w, -, -, -, -, rfl⟩ := runs_view h.coherent hr hsafe
  rw [findProg, List.find?_map]
  congr 1
  apply List.find?_congr
  intro x hx
  simp only [Function.comp_apply, decide_eq_decide]
  rw [← h.ids x hx]
  rfl

end step

/-- After any sequence of calls `prog_list` represents the sequence of programs that they are to
make: its nodes are linked in order, `last` has no successor, and `length` is their number. If
all programs have been added by `addProgById` the ids are distinct. `getProgById` finds a program
if and only if it is there. -/
theorem prog_list_sequence {s t : Daemon R (Cell R)} {cs : List (ListCall × Bool)}
    (hs : s.Holds []) (h : Calls s cs t) :
    ∃ xs, Follows cs xs ∧ t.Holds xs ∧
      (∀ p, t.globals.prog_list.last = some p → (t.cell p).prog.next = none) ∧
      (t.globals.prog_list.length = 0 →
        t.globals.prog_list.top = none ∧ t.globals.prog_list.last = none) ∧
      ((∀ p id o, (ListCall.addProg p id, o) ∉ cs) → (xs.map Prod.snd).Nodup) ∧
      (∀ id l r u, CallRuns (getProgById id) t l (.pure r) u →
        r = (xs.find? fun x => x.2 = id).map Prod.fst) ∧
      ∀ c : ListCall, c.Ready t → ∀ l d u, CallRuns c.script t l d u →
        ∀ k, d ≠ .act .undefined k := by
  -- on the calls: each makes of the sequence what it is to make
  have hrun : ∃ xs, Follows cs xs ∧ t.Holds xs := by
    induction h with
    | nil => exact ⟨[], .nil, hs⟩
    | aside _ ha ih =>
      obtain ⟨xs, hf, hx⟩ := ih
      exact ⟨xs, hf, ha.holds hx⟩
    | call _ hc hr hl ih =>
      obtain ⟨xs, hf, hx⟩ := ih
      obtain ⟨ys, hm, hy⟩ := holds_call hx hc hr hl
      exact ⟨ys, hf.snoc hm, hy⟩
  obtain ⟨xs, hf, hx⟩ := hrun
  obtain ⟨hlast, hempty⟩ := hx.lists.ends
  exact ⟨xs, hf, hx, hlast, hempty, hf.nodup, fun id l r u hr => holds_getProgById hx hr,
    fun c hc l d u hr k => call_defined hx hc hr k⟩

/-- Programs 1, 2 and 3 are added, program 1 is refused because it is there, and program 2 is
deleted from the middle of the list. -/
theorem prog_list_sequence_example :
    let cs := [(.addProgById 1 false, true), (.addProgById 2 false, true),
      (.addProgById 3 false, true), (.addProgById 1 false, false), (.deleteProgById 2, true)]
    ∃ t xs, Calls (readyDaemon threeDb) cs t ∧ Follows cs xs ∧ t.Holds xs := by
  have hrun : ((eval (exec cellExec zeroCell) threadStep noteAttempt (addProgById 1 false)
      (readyDaemon threeDb) (List.replicate 24 (.inl true))).bind fun r₁ =>
      (eval (exec cellExec zeroCell) threadStep noteAttempt (addProgById 2 false) r₁.2.1
        (List.replicate 28 (.inl true))).bind fun r₂ =>
      (eval (exec cellExec zeroCell) threadStep noteAttempt (addProgById 3 false) r₂.2.1
        (List.replicate 30 (.inl true))).bind fun r₃ =>
      (eval (exec cellExec zeroCell) threadStep noteAttempt (addProgById 1 false) r₃.2.1
        (List.replicate 3 (.inl true))).bind fun r₄ =>
      (eval (exec cellExec zeroCell) threadStep noteAttempt (deleteProgById 2) r₄.2.1
        (List.replicate 11 (.inl true) ++ [.next, .next, .control (exampleReading 0 (some 240)),
          .next, .next, .cancel].map (fun t => .inr (1, t)) ++
            List.replicate 6 (.inl true))).map fun r₅ =>
        ([r₁.1, r₂.1, r₃.1, r₄.1, r₅.1], r₄.2.2)) =
      some ([true, true, true, false, true], []) := by
    decide +kernel
  obtain ⟨⟨o₁, t₁, l₁⟩, h₁, hrun⟩ := Option.bind_eq_some_iff.mp hrun
  obtain ⟨⟨o₂, t₂, l₂⟩, h₂, hrun⟩ := Option.bind_eq_some_iff.mp hrun
  obtain ⟨⟨o₃, t₃, l₃⟩, h₃, hrun⟩ := Option.bind_eq_some_iff.mp hrun
  obtain ⟨⟨o₄, t₄, l₄⟩, h₄, hrun⟩ := Option.bind_eq_some_iff.mp hrun
  obtain ⟨⟨o₅, t₅, l₅⟩, h₅, hrun⟩ := Option.map_eq_some_iff.mp hrun
  simp only [Prod.mk.injEq, List.cons.injEq, and_true] at hrun
  obtain ⟨⟨rfl, rfl, rfl, rfl, rfl⟩, rfl⟩ := hrun
  -- every call that has come to the creation of a thread has returned 1
  have h := ((((Calls.nil (s := readyDaemon threeDb)).call (c := .addProgById 1 false) trivial
    (eval_returns h₁) fun h => by cases h).call (c := .addProgById 2 false) trivial
    (eval_returns h₂) fun h => by cases h).call (c := .addProgById 3 false) trivial
    (eval_returns h₃) fun h => by cases h).call (c := .addProgById 1 false) trivial
    (eval_returns h₄) fun _ => List.not_mem_nil
  have hcalls := h.call (c := .deleteProgById 2) trivial (eval_returns h₅) fun h => by cases h
  obtain ⟨xs, hf, hx, -⟩ := prog_list_sequence
    ⟨readyDaemon_lists _, List.forall_mem_nil _, readyDaemon_coherent _⟩ hcalls
  exact ⟨t₅, xs, hcalls, hf, hx⟩

end Regonf
