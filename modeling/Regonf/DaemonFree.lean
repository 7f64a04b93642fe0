import Regonf.DaemonEvolves

/-! `freeData`: cancel all threads, join all threads, switch all programs off, free them. -/
namespace Regonf

open Script LinkedList

variable {R : Type} [Zero R] {clean stored : Prop} {v : View R} {ps qs : List Ptr}

/-- What the join, the switching off and the freeing make of a block. -/
def Block.joined {R : Type} (b : Block R) : Block R := { b with thread := .joined }

def Block.turnedOff (b : Block R) : Block R :=
  { b with ops := b.ops ++ [.turnOff], unused := false, quiet := Loadable b }

def Block.freedIn {R : Type} (a : AppState) (b : Block R) : Block R := { b with mem := .freed a }

omit [Zero R] in
theorem FreedDead.mapOn (h : FreedDead clean v) {f : Block R → Block R} {d : List Ptr}
    (hm : ∀ b, (f b).mem = b.mem)
    (hf : ∀ q ∈ d, Dead (v.cell q) → Dead (f (v.cell q))) : FreedDead clean (v.mapOn d f) := by
  intro q a hq hc
  by_cases hd : q ∈ d
  · rw [mapOn_cell_of_mem hd] at hq ⊢
    rw [hm] at hq
    exact hf q hd (h q a hq hc)
  · rw [mapOn_cell_of_not_mem hd] at hq ⊢
    exact h q a hq hc

omit [Zero R] in
/-- Freeing dead programs. -/
theorem FreedDead.mapOn_free (h : FreedDead clean v) {a : AppState} {d : List Ptr}
    (hd : ∀ q ∈ d, clean ∨ a ≠ .appInitData → Dead (v.cell q)) :
    FreedDead clean (v.mapOn d (Block.freedIn a)) := by
  intro q a' hq hc
  by_cases hmem : q ∈ d
  · rw [mapOn_cell_of_mem hmem] at hq ⊢
    have ha : a = a' := Memory.freed.inj hq
    subst ha
    exact hd q hmem hc
  · rw [mapOn_cell_of_not_mem hmem] at hq ⊢
    exact h q a' hq hc

theorem safe_cancel {p : Ptr} (ha : FreedDead clean v)
    (hd : clean → (v.cell p).mem = .allocated ∧ (v.cell p).thread = .created) :
    Safely clean stored (access p .cancel)
      (fun _ w => w = v ∧ (v.cell p).mem = .allocated) v := by
  refine safe_access_last ha hd fun _ b hm hb => ?_
  simp only [blockTouch, Option.ite_none_right_eq_some] at hb
  obtain ⟨-, he⟩ := hb
  cases he
  rw [put_self]
  exact ⟨ha, rfl, hm⟩

/-- The main thread waits until the thread of the program is gone. -/
theorem safe_join {p : Ptr} (ha : FreedDead clean v)
    (hd : clean → (v.cell p).mem = .allocated ∧ (v.cell p).thread = .created) :
    Safely clean stored (access p .join)
      (fun _ w => w = v.put p (v.cell p).joined ∧ (v.cell p).mem = .allocated) v := by
  refine safe_access_last ha hd fun _ b hm hb => ?_
  simp only [blockTouch, Option.ite_none_right_eq_some] at hb
  obtain ⟨-, he⟩ := hb
  cases he
  exact ⟨ha.put (Or.inl hm), rfl, hm⟩

theorem safe_turnOff {p : Ptr} (ha : FreedDead clean v)
    (hd : clean → (v.cell p).mem = .allocated) :
    Safely clean stored (access p (.op .turnOff))
      (fun _ w => w = v.put p (v.cell p).turnedOff) v := by
  refine safe_access_last ha hd fun _ b hm hb => ?_
  have hoff : b = (v.cell p).turnedOff := by
    cases hb
    simp only [Block.turnedOff, Loadable, true_and]
  subst hoff
  exact ⟨ha.put (Or.inl hm), rfl⟩

theorem safe_cancelAll (h : Owned clean stored v ps) :
    Safely clean stored (progListLoop fun item => access item .cancel) (fun _ w => w = v) v := by
  have hid : v.mapOn ps (fun b => b) = v := by
    simp only [Daemon.mapOn, ite_self]
  have hloop : Safely clean stored (progListLoop fun item => access item .cancel)
      (fun _ w => w = v.mapOn ps fun b => b) v := by
    refine safe_progListLoop h.list h.below (fun _ => rfl) (fun d _ => ?_)
      (fun hc q hq => (h.live hc q hq).1) fun q hq w hw ha => ?_
    · exact h.dead.mapOn (fun _ => rfl) fun _ _ hd => hd
    · rw [← hw, put_self]
      refine (safe_cancel ha fun hc => ?_).mono fun _ u _ hu => hu.1
      rw [hw]
      exact h.live hc q hq
  rwa [hid] at hloop

theorem safe_joinAll (h : Owned clean stored v ps) :
    Safely clean stored (progListLoop fun item => access item .join)
      (fun _ w => w = v.mapOn ps Block.joined) v := by
  refine safe_progListLoop h.list h.below (fun _ => rfl) (fun d _ => ?_)
    (fun hc q hq => (h.live hc q hq).1) fun q hq w hw ha => ?_
  · exact h.dead.mapOn (fun _ => rfl) fun _ _ hd => ⟨by simp [Block.joined], hd.2⟩
  · rw [← hw]
    refine (safe_join ha fun hc => ?_).mono fun _ u _ hu => hu.1
    rw [hw]
    exact h.live hc q hq

/-- The list as `freeData` finds it after the threads have been joined. -/
structure Stopped (clean : Prop) (v : View R) (ps : List Ptr) : Prop where
  list : IsList (fun p => (v.cell p).next) v.globals.prog_list.top ps
  below : ∀ p ∈ ps, p < v.brk
  dead : FreedDead clean v
  joined : ∀ p ∈ ps, (v.cell p).thread = .joined ∧ (v.cell p).held = false
  loadable : ∀ p ∈ ps, Loadable (v.cell p)
  live : clean → ∀ p ∈ ps, (v.cell p).mem = .allocated

theorem Owned.stopped (h : Owned clean stored v ps) :
    Stopped clean (v.mapOn ps Block.joined) ps where
  list := Seg.congr h.list fun q hq => by rw [mapOn_cell_of_mem hq]; rfl
  below := h.below
  dead := h.dead.mapOn (fun _ => rfl) fun _ _ hd => ⟨by simp [Block.joined], hd.2⟩
  joined := by
    intro p hp
    rw [mapOn_cell_of_mem hp]
    exact ⟨rfl, h.free p⟩
  loadable := by
    intro p hp
    rw [mapOn_cell_of_mem hp]
    exact h.loadable p
  live := by
    intro hc p hp
    rw [mapOn_cell_of_mem hp]
    exact (h.live hc p hp).1

/-- Switching the programs off keeps them stopped, and leaves them dead. -/
theorem Stopped.secured (h : Stopped clean v ps) :
    Stopped clean (v.mapOn ps Block.turnedOff) ps where
  list := Seg.congr h.list fun q hq => by rw [mapOn_cell_of_mem hq]; rfl
  below := h.below
  dead := h.dead.mapOn (fun _ => rfl) fun q hq hd => ⟨hd.1, hd.2.1, h.loadable q hq⟩
  joined := by
    intro p hp
    rw [mapOn_cell_of_mem hp]
    exact h.joined p hp
  loadable := by
    intro p hp
    rw [mapOn_cell_of_mem hp]
    exact h.loadable p hp
  live := by
    intro hc p hp
    rw [mapOn_cell_of_mem hp]
    exact h.live hc p hp

theorem Stopped.off (h : Stopped clean v ps) {p : Ptr} (hp : p ∈ ps) :
    Dead ((v.mapOn ps Block.turnedOff).cell p) := by
  obtain ⟨hthread, hheld⟩ := h.joined p hp
  rw [mapOn_cell_of_mem hp]
  exact ⟨by simp [Block.turnedOff, hthread], hheld, h.loadable p hp⟩

theorem safe_secure (h : Stopped clean v ps) :
    Safely clean stored secure (fun _ w => w = v.mapOn ps Block.turnedOff) v := by
  refine safe_progListLoop h.list h.below (fun _ => rfl) (fun d hd => ?_) h.live
    fun q hq w hw ha => ?_
  · exact h.dead.mapOn (fun _ => rfl) fun q hq hdead =>
      ⟨hdead.1, hdead.2.1, h.loadable q (hd.subset hq)⟩
  · rw [← hw]
    apply safe_turnOff ha
    intro hc
    rw [hw]
    exact h.live hc q hq

/-- The loop of `freeProgList` reads the link before it frees the program. -/
theorem safe_freeProgListFrom {n : ℕ} {p : Option Ptr} {done : List Ptr} {a : AppState}
    (hst : v.globals.app_state = a) (hnd : (done ++ qs).Nodup)
    (hl : IsList (fun q => (v.cell q).next) p qs) (hn : qs.length ≤ n)
    (ha : ∀ d, d <+: done ++ qs → FreedDead clean (v.mapOn d (Block.freedIn a)))
    (hc : clean → ∀ q ∈ qs, (v.cell q).mem = .allocated) :
    Safely clean stored (freeProgListFrom n p)
      (fun _ w => w = v.mapOn (done ++ qs) (Block.freedIn a))
      (v.mapOn done (Block.freedIn a)) := by
  induction qs generalizing n p done with
  | nil =>
    cases hl
    rw [List.append_nil]
    cases n <;> exact safe_pure (ha done (List.prefix_append done [])) rfl
  | cons q qs ih =>
    obtain ⟨rfl, hl⟩ := hl
    have hq : q ∉ done := fun hmem =>
      List.disjoint_of_nodup_append hnd hmem List.mem_cons_self
    have hap : done ++ [q] ++ qs = done ++ q :: qs := (List.append_cons done q qs).symm
    have hput := mapOn_put (v := v) (f := Block.freedIn a) hq
    have hcell : (v.mapOn done (Block.freedIn a)).cell q = v.cell q := mapOn_cell_of_not_mem hq
    have hdone := ha done (List.prefix_append done _)
    have hlive (hcl : clean) : ((v.mapOn done (Block.freedIn a)).cell q).mem = .allocated := by
      rw [hcell]
      exact hc hcl q List.mem_cons_self
    cases n with
    | zero => exact absurd hn (by simp)
    | succ n =>
      apply safe_readNext hdone hlive
      -- the program is freed here; its link has been read
      intro _
      refine safe_access hdone hlive fun x b hmem hb => ?_
      cases hb
      rw [mapOn_globals, hst, hcell]
      change Safely clean stored _ _
        ((v.mapOn done (Block.freedIn a)).put q ((v.cell q).freedIn a))
      rw [hput, ← hap]
      rw [← hap] at hnd ha
      exact ih hnd hl (Nat.le_of_succ_le_succ hn) ha
        fun hcl r hr => hc hcl r (List.mem_cons_of_mem q hr)

/-- The globals with an empty `prog_list`. -/
def Globals.emptied {R : Type} (g : Globals R) : Globals R :=
  { g with prog_list := ⟨none, none, 0⟩ }

theorem safe_freeProgList {a : AppState} (hst : v.globals.app_state = a)
    (hl : IsList (fun q => (v.cell q).next) v.globals.prog_list.top ps)
    (hb : ∀ p ∈ ps, p < v.brk)
    (ha : ∀ d, d <+: ps → FreedDead clean (v.mapOn d (Block.freedIn a)))
    (hc : clean → ∀ q ∈ ps, (v.cell q).mem = .allocated) :
    Safely clean stored freeProgList
      (fun _ w => w = { v.mapOn ps (Block.freedIn a) with globals := v.globals.emptied }) v := by
  have hloop : Safely clean stored (freeProgListFrom v.brk v.globals.prog_list.top)
      (fun _ w => w = v.mapOn ([] ++ ps) (Block.freedIn a)) (v.mapOn [] (Block.freedIn a)) :=
    safe_freeProgListFrom hst hl.nodup hl (length_le_brk hl hb) ha hc
  have hv : FreedDead clean v := by
    have hnil := ha [] List.nil_prefix
    rwa [mapOn_nil] at hnil
  rw [mapOn_nil] at hloop
  refine safe_blocks hv (safe_globals hv (hloop.seq fun _ w hw => ?_))
  subst hw
  exact safe_setGlobals_last (ha ps (List.prefix_refl ps)) rfl

/-- The invariant after all programs of the list have been freed. -/
theorem Owned.emptied (h : Owned clean stored v ps) {w : View R}
    (hg : w.globals = v.globals.emptied) (hb : w.brk = v.brk) (hd : FreedDead clean w)
    (hsame : ∀ q, q ∉ ps → w.cell q = v.cell q)
    (hps : ∀ q ∈ ps, (w.cell q).held = (v.cell q).held ∧
      (w.cell q).loaded = (v.cell q).loaded ∧ (w.cell q).id = (v.cell q).id) :
    Owned clean stored w [] where
  list := by rw [hg]; rfl
  last := by rw [hg]; rfl
  length := by rw [hg]; rfl
  ids := List.nodup_nil
  below := by simp
  fresh := by
    intro q hq
    rw [hb] at hq
    have hnot : q ∉ ps := fun hmem => absurd (h.below q hmem) (Nat.not_lt.mpr hq)
    rw [hsame q hnot]
    exact h.fresh q hq
  free := by
    intro q
    by_cases hmem : q ∈ ps
    · rw [(hps q hmem).1]
      exact h.free q
    · rw [hsame q hmem]
      exact h.free q
  dead := hd
  loadable := by
    intro q
    unfold Loadable
    by_cases hmem : q ∈ ps
    · rw [(hps q hmem).2.1]
      exact h.loadable q
    · rw [hsame q hmem]
      exact h.loadable q
  known := by
    intro hs q hthread
    rw [hg]
    by_cases hmem : q ∈ ps
    · rw [(hps q hmem).2.2]
      -- the programs that were in the list came from rows
      obtain ⟨row, hrow, hid, -⟩ := h.rows hs q hmem
      exact ⟨row, hrow, hid⟩
    · rw [hsame q hmem] at hthread ⊢
      exact h.known hs q hthread
  live := by simp
  rows := by simp

theorem safe_freeData (h : Owned clean stored v ps) :
    Safely clean stored freeData
      (fun _ w => Owned clean stored w [] ∧ w.globals.base = v.globals.base) v := by
  have hstop : Safely clean stored stopAllProgThreads
      (fun _ w => w = v.mapOn ps Block.joined) v := by
    apply (safe_cancelAll h).seq
    intro _ w hw
    subst hw
    exact safe_joinAll h
  apply hstop.seq
  intro _ w hw
  subst hw
  have hs := h.stopped
  apply (safe_secure hs).seq
  intro _ w hw
  subst hw
  -- the programs are joined and off, so they may be freed
  let a := v.globals.app_state
  let w := (v.mapOn ps Block.joined).mapOn ps Block.turnedOff
  have hsec : Stopped clean w ps := hs.secured
  have hfreed (d : List Ptr) (hd : d <+: ps) : FreedDead clean (w.mapOn d (Block.freedIn a)) :=
    hsec.dead.mapOn_free fun q hq _ => hs.off (hd.subset hq)
  have hfree : Safely clean stored freeProgList (fun _ u => u =
      { w.mapOn ps (Block.freedIn a) with globals := v.globals.emptied }) w :=
    safe_freeProgList rfl hsec.list hsec.below hfreed hsec.live
  apply hfree.seq
  intro _ u hu
  have hd : FreedDead clean u := by
    rw [hu]
    exact hfreed ps (List.prefix_refl ps)
  have howned : Owned clean stored u [] := by
    refine h.emptied (by rw [hu]) (by rw [hu]; rfl) hd (fun q hq => ?_) fun q hq => ?_
    · rw [hu]
      dsimp only [w]
      rw [mapOn_cell_of_not_mem hq, mapOn_cell_of_not_mem hq, mapOn_cell_of_not_mem hq]
    · rw [hu]
      dsimp only [w]
      rw [mapOn_cell_of_mem hq, mapOn_cell_of_mem hq, mapOn_cell_of_mem hq]
      exact ⟨rfl, rfl, rfl⟩
  refine safe_setGlobals_last hd ⟨howned.setLists [] [], ?_⟩
  rw [hu]
  rfl

end Regonf
