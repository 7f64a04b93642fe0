import Mathlib.Data.List.Perm.Subperm
import Regonf.DaemonOwned

/-! The walks over `prog_list`: each is bounded by the number of blocks, and a walk that
works on one program after another works on each of them once. -/
namespace Regonf

open Script LinkedList

variable {R : Type} [Zero R] {clean stored : Prop} {v : View R} {ps qs : List Ptr}

omit [Zero R] in
/-- A list of allocated addresses is no longer than the allocator's counter. -/
theorem length_le_brk {next : Ptr → Option Ptr} {p : Option Ptr} {n : ℕ}
    (h : IsList next p ps) (hb : ∀ q ∈ ps, q < n) : ps.length ≤ n := by
  have hs : ps ⊆ List.range n := fun q hq => List.mem_range.mpr (hb q hq)
  calc
    ps.length ≤ (List.range n).length := (h.nodup.subperm hs).length_le
    _ = n := List.length_range

section links
variable {next : Ptr → Option Ptr} {l : ProgList} {a p : Ptr}

omit [Zero R]

/-- Where `addProg` puts the link to the new program. -/
theorem linkProg_nil (h : IsList next l.top []) :
    linkProg (R := R) p l = setProgList fun l => { l with top := some p } := by
  have htop : l.top = none := h
  rw [linkProg, htop]

theorem linkProg_concat (h : IsList next l.top (qs ++ [a]))
    (hl : l.last = (qs ++ [a]).getLast?) : linkProg (R := R) p l = relink a (some p) := by
  have hlast : l.last = some a := by rw [hl, List.getLast?_concat]
  obtain ⟨t, htop⟩ : ∃ t, l.top = some t := by
    rw [h.head?_eq]
    cases qs <;> exact ⟨_, rfl⟩
  rw [linkProg, htop, hlast]

variable {top : Option Ptr} {b : Block R}

/-- The list once its last program links to a new one. -/
theorem put_append (h : IsList (fun q => (v.cell q).next) top (qs ++ [a])) (hp : p ∉ qs ++ [a])
    (hn : (v.cell p).next = none) (hb : b.next = some p) :
    IsList (fun q => ((v.put a b).cell q).next) top (qs ++ [a] ++ [p]) := by
  have hnext := put_comp (v := v) (p := a) (b := b) Block.next
  rw [hb] at hnext
  rw [hnext]
  exact IsList.append h hp hn

/-- The list once the program in front of `p` links to the one behind it. -/
theorem put_unlink (h : IsList (fun q => (v.cell q).next) top (ps ++ [a] ++ p :: qs))
    (hb : b.next = (v.cell p).next) :
    IsList (fun q => ((v.put a b).cell q).next) top (ps ++ [a] ++ qs) := by
  have hnext := put_comp (v := v) (p := a) (b := b) Block.next
  rw [List.append_assoc] at h ⊢
  rw [hb] at hnext
  rw [hnext]
  exact IsList.unlink h

end links

theorem safe_getProgByIdFrom {id : ℤ} {n : ℕ} {p : Option Ptr} (ha : FreedDead clean v)
    (hl : IsList (fun q => (v.cell q).next) p qs) (hn : qs.length ≤ n)
    (hc : clean → ∀ q ∈ qs, (v.cell q).mem = .allocated) :
    Safely clean stored (getProgByIdFrom id n p)
      (fun r w => w = v ∧ r = qs.find? fun q => (v.cell q).id = id) v := by
  -- the bound falls with the list, so it is never met
  induction qs generalizing n p with
  | nil =>
    cases hl
    cases n <;> exact safe_pure ha ⟨rfl, rfl⟩
  | cons q qs ih =>
    obtain ⟨rfl, hl⟩ := hl
    cases n with
    | zero => exact absurd hn (by simp)
    | succ n =>
      have hq (hcl : clean) : (v.cell q).mem = .allocated := hc hcl q List.mem_cons_self
      apply safe_readId ha hq
      intro _
      split_ifs with hid
      · exact safe_pure ha ⟨rfl, by simp [hid]⟩
      · apply safe_readNext ha hq
        intro _
        have hrest := ih hl (Nat.le_of_succ_le_succ hn)
          fun hcl r hr => hc hcl r (List.mem_cons_of_mem q hr)
        simpa [hid] using hrest

/-- The first program of the id in the list. -/
def findProg (v : View R) (ps : List Ptr) (id : ℤ) : Option Ptr :=
  ps.find? fun q => (v.cell q).id = id

omit [Zero R] in
theorem findProg_mem {p : Ptr} {id : ℤ} (h : findProg v ps id = some p) :
    p ∈ ps ∧ (v.cell p).id = id :=
  ⟨List.mem_of_find?_eq_some h, by simpa using List.find?_some h⟩

omit [Zero R] in
theorem findProg_none {id : ℤ} (h : findProg v ps id = none) (q : Ptr) (hq : q ∈ ps) :
    (v.cell q).id ≠ id := by
  simpa using List.find?_eq_none.mp h q hq

theorem safe_getProgById {id : ℤ} (h : Owned clean stored v ps) :
    Safely clean stored (getProgById id) (fun r w => w = v ∧ r = findProg v ps id) v :=
  safe_blocks h.dead (safe_globals h.dead (safe_getProgByIdFrom h.dead h.list
    (length_le_brk h.list h.below) fun hc q hq => (h.live hc q hq).1))

/-- Change the blocks at some addresses. -/
def Daemon.mapOn {C : Type} (v : Daemon R C) (d : List Ptr) (f : C → C) : Daemon R C :=
  { v with cell := fun q => if q ∈ d then f (v.cell q) else v.cell q }

section mapOn
variable {C : Type} {v : Daemon R C} {d : List Ptr} {f : C → C} {q : Ptr}

omit [Zero R]

@[simp] theorem mapOn_globals : (v.mapOn d f).globals = v.globals := rfl

@[simp] theorem mapOn_nil : v.mapOn [] f = v := by
  simp only [Daemon.mapOn, List.not_mem_nil, ↓reduceIte]

theorem mapOn_cell_of_mem (h : q ∈ d) : (v.mapOn d f).cell q = f (v.cell q) := by
  simp only [Daemon.mapOn, h, ↓reduceIte]

theorem mapOn_cell_of_not_mem (h : q ∉ d) : (v.mapOn d f).cell q = v.cell q := by
  simp only [Daemon.mapOn, h, ↓reduceIte]

theorem mapOn_put (h : q ∉ d) : (v.mapOn d f).put q (f (v.cell q)) = v.mapOn (d ++ [q]) f := by
  have hcell : Function.update (v.mapOn d f).cell q (f (v.cell q)) =
      (v.mapOn (d ++ [q]) f).cell := by
    funext r
    rcases eq_or_ne r q with rfl | hr
    · rw [Function.update_self, mapOn_cell_of_mem (by simp)]
    · rw [Function.update_of_ne hr]
      simp only [Daemon.mapOn, List.mem_append, List.mem_singleton, hr, or_false]
  rw [Daemon.put, hcell]
  rfl

end mapOn

/-- A loop of `PROG_LIST_LOOP_ST` whose body changes its own program by `f`, and not its
`next`, changes every program of the list by `f`. -/
theorem safe_progListLoopFrom {body : Ptr → Main R Unit} {f : Block R → Block R} {n : ℕ}
    {p : Option Ptr} {done : List Ptr} (hnd : (done ++ qs).Nodup)
    (hl : IsList (fun q => (v.cell q).next) p qs) (hn : qs.length ≤ n)
    (hf : ∀ b : Block R, (f b).next = b.next)
    (ha : ∀ d, d <+: done ++ qs → FreedDead clean (v.mapOn d f))
    (hc : clean → ∀ q ∈ qs, (f (v.cell q)).mem = .allocated)
    (hb : ∀ q ∈ qs, ∀ w : View R, w.cell q = v.cell q → FreedDead clean w →
      Safely clean stored (body q) (fun _ w' => w' = w.put q (f (v.cell q))) w) :
    Safely clean stored (progListLoopFrom body n p) (fun _ w => w = v.mapOn (done ++ qs) f)
      (v.mapOn done f) := by
  -- `done` has been worked on and `qs` is still to come
  induction qs generalizing n p done with
  | nil =>
    cases hl
    rw [List.append_nil]
    cases n <;> exact safe_pure (ha done (List.prefix_append done [])) rfl
  | cons q qs ih =>
    obtain ⟨rfl, hl⟩ := hl
    have hq : q ∉ done := fun hmem =>
      List.disjoint_of_nodup_append hnd hmem List.mem_cons_self
    have hap : done ++ [q] ++ qs = done ++ q :: qs := List.append_cons done q qs ▸ rfl
    have hput := mapOn_put (v := v) (f := f) hq
    have hdone : FreedDead clean (v.mapOn (done ++ [q]) f) :=
      ha _ (hap ▸ List.prefix_append (done ++ [q]) qs)
    cases n with
    | zero => exact absurd hn (by simp)
    | succ n =>
      refine Safe.seq (hb q List.mem_cons_self (v.mapOn done f) (mapOn_cell_of_not_mem hq)
        (ha done (List.prefix_append done _))) fun _ w hw => ?_
      rw [hw, hput]
      have hcell : (v.mapOn (done ++ [q]) f).cell q = f (v.cell q) :=
        mapOn_cell_of_mem (by simp)
      -- `f` keeps the link that the walk goes on by
      refine safe_readNext hdone (fun hcl => ?_) fun _ => ?_
      · rw [hcell]
        exact hc hcl q List.mem_cons_self
      · rw [hcell, hf, ← hap]
        rw [← hap] at hnd ha
        exact ih hnd hl (Nat.le_of_succ_le_succ hn) ha
          (fun hcl r hr => hc hcl r (List.mem_cons_of_mem q hr))
          fun r hr => hb r (List.mem_cons_of_mem q hr)

theorem safe_progListLoop {body : Ptr → Main R Unit} {f : Block R → Block R}
    (hl : IsList (fun q => (v.cell q).next) v.globals.prog_list.top ps)
    (hbelow : ∀ q ∈ ps, q < v.brk) (hf : ∀ b : Block R, (f b).next = b.next)
    (ha : ∀ d, d <+: ps → FreedDead clean (v.mapOn d f))
    (hc : clean → ∀ q ∈ ps, (f (v.cell q)).mem = .allocated)
    (hb : ∀ q ∈ ps, ∀ w : View R, w.cell q = v.cell q → FreedDead clean w →
      Safely clean stored (body q) (fun _ w' => w' = w.put q (f (v.cell q))) w) :
    Safely clean stored (progListLoop body) (fun _ w => w = v.mapOn ps f) v := by
  have hv : FreedDead clean v := by
    have hnil := ha [] List.nil_prefix
    rwa [mapOn_nil] at hnil
  have hloop : Safely clean stored (progListLoopFrom body v.brk v.globals.prog_list.top)
      (fun _ w => w = v.mapOn ([] ++ ps) f) (v.mapOn [] f) :=
    safe_progListLoopFrom hl.nodup hl (length_le_brk hl hbelow) hf ha hc hb
  rw [mapOn_nil] at hloop
  exact safe_blocks hv (safe_globals hv hloop)

end Regonf
