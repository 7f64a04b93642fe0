import Regonf.DaemonFree
import Regonf.DaemonLoad

/-! `addProgById`: a program is allocated, filled, appended to the list and started. -/
namespace Regonf

open Script LinkedList

variable {R : Type} [Zero R] {clean stored : Prop} {v : View R} {ps : List Ptr}

/-- Rewriting a link under the mutex of the program. -/
theorem safe_relink {p : Ptr} {x : Option Ptr} (ha : FreedDead clean v)
    (hc : clean → (v.cell p).mem = .allocated) (hfree : (v.cell p).held = false) :
    Safely clean stored (relink p x) (fun _ w => (v.cell p).mem = .allocated ∧
      w = v.put p { v.cell p with next := x }) v := by
  refine safe_access ha hc fun _ b₁ hm h₁ => ?_
  cases h₁
  refine safe_access (ha.put (Or.inl hm)) (fun _ => ?_) fun _ b₂ _ h₂ => ?_
  · rw [put_cell_self]
    exact hm
  cases h₂
  rw [put_put, put_cell_self]
  refine safe_access (ha.put (Or.inl hm)) (fun _ => ?_) fun _ b₃ _ h₃ => ?_
  · rw [put_cell_self]
    exact hm
  cases h₃
  rw [put_put, put_cell_self]
  refine safe_pure (ha.put (Or.inl hm)) ⟨hm, ?_⟩
  -- locked and unlocked, the mutex is as it was
  rw [← hfree]

/-- The state in which a new program has been appended to the list, its thread not yet
created. -/
structure Appended (clean stored : Prop) (v : View R) (ps : List Ptr) (p : Ptr) (w : View R) :
    Prop where
  listed : Listed clean stored w (ps ++ [p])
  live : clean → ∀ q ∈ ps, (w.cell q).mem = .allocated ∧ (w.cell q).thread = .created
  rows : stored → ∀ q ∈ ps, FromRow w.globals (w.cell q)
  cell : w.cell p = v.cell p
  kept : ∀ q, (w.cell q).kept = (v.cell q).kept
  globals : w.globals = { v.globals with prog_list := w.globals.prog_list }

/-- What `addProg` does to the link of the last program and to the list. -/
theorem appended {p : Ptr} {id : ℤ} (h : Owned clean stored v ps) (hf : Fresh (v.cell p) id)
    (hb : p < v.brk) (hid : ∀ q ∈ ps, (v.cell q).id ≠ id) {w : View R}
    {l : ProgList} (hr : Relinked v w l) (hl : l.last = some p)
    (hlen : l.length = ps.length + 1) (hd : FreedDead clean w)
    (hlist : IsList (fun q => (w.cell q).next) l.top (ps ++ [p]))
    (hcell : w.cell p = v.cell p) : Appended clean stored v ps p w := by
  have hids : ((ps ++ [p]).map fun q => (v.cell q).id).Nodup := by
    rw [List.map_append, List.map_singleton, hf.id]
    apply List.Nodup.append h.ids (List.nodup_singleton id)
    intro x hx hx'
    obtain ⟨q, hq, rfl⟩ := List.mem_map.mp hx
    exact hid q hq (List.mem_singleton.mp hx')
  have hbelow : ∀ q ∈ ps ++ [p], q < v.brk :=
    List.forall_mem_append.mpr ⟨h.below, List.forall_mem_singleton.mpr hb⟩
  have hlisted : Listed clean stored w (ps ++ [p]) :=
    hr.listed h.toListed hd hlist (hl.trans List.getLast?_concat.symm) (by simpa using hlen)
      hids hbelow
  exact ⟨hlisted, hr.live h, hr.rows h, hcell, hr.field Block.kept fun _ _ => rfl,
    by rw [hr.globals]⟩

theorem safe_addProg {p : Ptr} {id : ℤ} (h : Owned clean stored v ps)
    (hf : Fresh (v.cell p) id) (hp : p ∉ ps) (hb : p < v.brk)
    (hid : ∀ q ∈ ps, (v.cell q).id ≠ id) :
    Safely clean stored (addProg p) (fun o w => (o = false ∧ w = v) ∨
      (o = true ∧ Appended clean stored v ps p w)) v := by
  apply safe_globals h.dead
  split_ifs with hlen
  · exact safe_pure h.dead (Or.inl ⟨rfl, rfl⟩)
  rcases List.eq_nil_or_concat' ps with rfl | ⟨qs, a, rfl⟩
  · -- the list is empty
    rw [linkProg_nil h.list]
    refine safe_setGlobals h.dead (safe_setGlobals h.dead (safe_pure h.dead (Or.inr ⟨rfl, ?_⟩)))
    refine appended h hf hb hid ⟨rfl, rfl, fun q => ⟨(v.cell q).next, rfl⟩⟩ rfl ?_ h.dead
      ⟨rfl, hf.next⟩ rfl
    simp [h.length]
  · -- the link of the last program is rewritten under its mutex
    have hpa : p ≠ a := fun he => hp (by simp [he])
    rw [linkProg_concat h.list h.last]
    refine (safe_relink h.dead (fun hc => (h.live hc a (by simp)).1) (h.free a)).seq
      fun _ w hw => ?_
    obtain ⟨hm, rfl⟩ := hw
    have hd : FreedDead clean (v.put a { v.cell a with next := some p }) :=
      h.dead.put (Or.inl hm)
    refine safe_setGlobals hd (safe_pure hd (Or.inr ⟨rfl, ?_⟩))
    refine appended h hf hb hid ⟨rfl, rfl, fun q => ?_⟩ rfl (by simp [h.length]) hd
      (put_append h.list hp hf.next rfl) (put_cell_of_ne hpa)
    rcases eq_or_ne q a with rfl | hne
    · exact ⟨some p, put_cell_self⟩
    · exact ⟨(v.cell q).next, put_cell_of_ne hne⟩

/-- The invariant holds for some list, and what the main loop goes by is as it was. -/
def Keeps (clean stored : Prop) (v w : View R) : Prop :=
  ∃ qs, Owned clean stored w qs ∧ w.globals.flags = v.globals.flags

/-- What `addProgById` leaves behind when its result is `o`. -/
def AddedTo (clean stored : Prop) (v : View R) (ps : List Ptr) (id : ℤ) (o : Bool)
    (w : View R) : Prop :=
  ∃ qs, Owned clean stored w qs ∧ Added v ps id o w qs

/-- A program that cannot be started is freed before it gets into the list. -/
theorem safe_dropProg {p : Ptr} {id : ℤ} {w : View R} (h : Filling clean stored v ps p id w)
    (hp : p ∉ ps) (hb : p < v.brk) :
    Safely clean stored (do freeProg p; return false) (AddedTo clean stored v ps id) w := by
  have hdead : Dead ((w.cell p).freedIn w.globals.app_state) := h.fresh.dead
  refine safe_access h.owned.dead (fun _ => h.fresh.mem) fun _ b _ hb' => ?_
  cases hb'
  refine safe_pure (h.owned.dead.put (Or.inr hdead))
    ⟨ps, ?_, h.settled, fun q hq => ?_, Or.inl ⟨rfl, rfl⟩⟩
  · refine h.owned.put_other hp (h.brk ▸ hb) h.fresh.held (Or.inr hdead) h.fresh.loadable ?_
    intro _ ht
    exact absurd h.fresh.thread ht
  · have hne : q ≠ p := fun he => hp (he ▸ hq)
    rw [put_cell_of_ne hne, h.cells q hne]

theorem fresh_zeroBlock : Fresh (zeroBlock : Block R) 0 where
  id := rfl
  next := rfl
  mem := rfl
  held := rfl
  thread := rfl
  unused := rfl
  quiet := trivial
  loadable := ⟨zeroReg, rfl, fun n => by cases n <;> exact ⟨rfl, fun _ => rfl⟩⟩

/-- The state after `malloc`. -/
def Daemon.grown (v : View R) : View R :=
  ({ v with brk := v.brk + 1 } : View R).put v.brk zeroBlock

theorem Owned.brk_not_mem (h : Owned clean stored v ps) : v.brk ∉ ps :=
  fun hmem => Nat.lt_irrefl _ (h.below _ hmem)

theorem Owned.grown (h : Owned clean stored v ps) : Owned clean stored v.grown ps := by
  have hcell (q : Ptr) (hq : q ≠ v.brk) : v.grown.cell q = v.cell q :=
    put_cell_of_ne hq
  have hlisted (q : Ptr) (hq : q ∈ ps) : v.grown.cell q = v.cell q :=
    hcell q fun he => h.brk_not_mem (he ▸ hq)
  have hself : v.grown.cell v.brk = zeroBlock := put_cell_self
  have hbrk : v.grown.brk = v.brk + 1 := rfl
  -- the new block is in no list and nothing is known of it but its zeros
  refine {
    list := Seg.congr h.list fun q hq => by rw [hlisted q hq]
    last := h.last
    length := h.length
    ids := ?_
    below := fun q hq => Nat.lt_succ_of_lt (h.below q hq)
    fresh := ?_, free := ?_, dead := h.dead.put (Or.inl rfl), loadable := ?_, known := ?_
    live := ?_, rows := ?_ }
  · rw [List.map_congr_left fun q hq => by rw [hlisted q hq]]
    exact h.ids
  · intro q hq
    rw [hbrk] at hq
    rw [hcell q (Nat.ne_of_gt hq)]
    exact h.fresh q (Nat.le_of_succ_le hq)
  · intro q
    rcases eq_or_ne q v.brk with rfl | hne
    · rw [hself]
      rfl
    · rw [hcell q hne]
      exact h.free q
  · intro q
    rcases eq_or_ne q v.brk with rfl | hne
    · rw [hself]
      exact fresh_zeroBlock.loadable
    · rw [hcell q hne]
      exact h.loadable q
  · intro hs q ht
    rcases eq_or_ne q v.brk with rfl | hne
    · rw [hself] at ht
      exact absurd rfl ht
    · rw [hcell q hne] at ht ⊢
      exact h.known hs q ht
  · intro hc q hq
    rw [hlisted q hq]
    exact h.live hc q hq
  · intro hs q hq
    rw [hlisted q hq]
    exact h.rows hs q hq

/-- The state after `malloc` and the first write to the program. -/
def Daemon.allocated (v : View R) (id : ℤ) : View R :=
  v.grown.put v.brk { (zeroBlock : Block R) with id := id }

theorem Owned.allocated (h : Owned clean stored v ps) {id : ℤ}
    (hid : ∀ q ∈ ps, (v.cell q).id ≠ id) :
    Filling clean stored (v.allocated id) ps v.brk id (v.allocated id) := by
  have hfresh : Fresh { (zeroBlock : Block R) with id := id } id :=
    { fresh_zeroBlock with id := rfl }
  have hcell : (v.allocated id).cell v.brk = { (zeroBlock : Block R) with id := id } :=
    put_cell_self
  refine ⟨?_, by rw [hcell]; exact hfresh, fun q hq => ?_, fun _ _ => rfl, rfl, rfl⟩
  · have hbrk : v.brk < v.grown.brk := Nat.lt_succ_self _
    apply h.grown.put_other h.brk_not_mem hbrk rfl (Or.inl rfl) hfresh.loadable
    -- no thread has been created for it
    intro _ ht
    exact absurd rfl ht
  · have hne : q ≠ v.brk := fun he => h.brk_not_mem (he ▸ hq)
    have hother : (v.allocated id).cell q = v.cell q :=
      (put_cell_of_ne hne).trans (put_cell_of_ne hne)
    rw [hother]
    exact hid q hq

/-- The thread of a program in the list is created, or its program is freed where it is. -/
theorem Appended.put {p : Ptr} {id : ℤ} {w : View R} {b : Block R}
    (h : Appended clean stored v ps p w) (hp : p ∉ ps) (hf : Fresh (v.cell p) id)
    (hrow : stored → FromRow v.globals (v.cell p)) (hid : b.id = id) (hnext : b.next = none)
    (hheld : b.held = false) (hload : b.loaded = (v.cell p).loaded)
    (hmem : b.mem = .allocated ∨ Dead b)
    (hlive : clean → b.mem = .allocated ∧ b.thread = .created) :
    Owned clean stored (w.put p b) (ps ++ [p]) := by
  have hother (q : Ptr) (hq : q ∈ ps) : (w.put p b).cell q = w.cell q :=
    put_cell_of_ne fun he => hp (he ▸ hq)
  have hfrom (hs : stored) : FromRow w.globals b := by
    unfold FromRow
    rw [h.globals, hid, hload, ← hf.id]
    exact hrow hs
  refine { h.listed.put (fun _ => ?_) (h.listed.below p (by simp)) hheld hmem ?_ fun hs _ => ?_
    with live := ?_, rows := ?_ }
  · rw [h.cell, hf.id, hf.next]
    exact ⟨hid, hnext⟩
  · unfold Loadable
    rw [hload]
    exact hf.loadable
  · obtain ⟨row, hrow, hid, -⟩ := hfrom hs
    exact ⟨row, hrow, hid⟩
  · intro hc q hq
    rcases List.mem_append.mp hq with hq | hq
    · rw [hother q hq]
      exact h.live hc q hq
    · rw [List.mem_singleton.mp hq, put_cell_self]
      exact hlive hc
  · intro hs q hq
    rcases List.mem_append.mp hq with hq | hq
    · rw [hother q hq]
      exact h.rows hs q hq
    · rw [List.mem_singleton.mp hq, put_cell_self]
      exact hfrom hs

/-- The appended program keeps what it was filled with. -/
theorem Appended.added {p : Ptr} {id : ℤ} {o : Bool} {w : View R} {b : Block R}
    (h : Appended clean stored v ps p w) (hp : p ∉ ps) (hid : (v.cell p).id = id)
    (hfilled : AsFilled v.globals (v.cell p)) (hb : b.kept = (w.cell p).kept) :
    Added v ps id o (w.put p b) (ps ++ [p]) where
  settled := by
    rw [put_globals, h.globals]
    rfl
  kept := by
    intro q hq
    have hne : q ≠ p := fun he => hp (he ▸ hq)
    rw [put_cell_of_ne hne]
    exact h.kept q
  list := by
    have hkept : b.kept = (v.cell p).kept := hb.trans (h.kept p)
    refine Or.inr ⟨p, rfl, ?_, ?_⟩
    · rw [put_cell_self]
      exact (congrArg (fun x => x.1) hkept).trans hid
    · rw [put_cell_self, put_globals, h.globals]
      exact hfilled.congr rfl rfl hkept

/-- The end of `addProgById`: the thread of the appended program is created, or it is freed
though it is in the list. -/
theorem safe_startProg {p : Ptr} {id : ℤ} {w : View R} (h : Appended clean stored v ps p w)
    (hp : p ∉ ps) (hf : Fresh (v.cell p) id) (hfilled : AsFilled v.globals (v.cell p))
    (hrow : stored → FromRow v.globals (v.cell p)) :
    Safely clean stored (do
      if !(← attempt .createMThread) then
        freeProg p
        return false
      access p .create
      return true) (AddedTo clean stored v ps id) w := by
  have hfw : Fresh (w.cell p) id := by
    rw [h.cell]
    exact hf
  have hload : (w.cell p).loaded = (v.cell p).loaded := by rw [h.cell]
  have hd := h.listed.dead
  apply safe_attempt hd
  intro o hc _
  cases o with
  | false =>
    -- a clean run does not come here
    have hnc : ¬ clean := fun hcl => absurd ((hc hcl).1 rfl) Bool.false_ne_true
    have hdead : Dead ((w.cell p).freedIn w.globals.app_state) := hfw.dead
    refine safe_access hd (fun hcl => absurd hcl hnc) fun _ b _ hb => ?_
    cases hb
    refine safe_pure (hd.put (Or.inr hdead)) ⟨ps ++ [p], ?_, h.added hp hf.id hfilled rfl⟩
    exact h.put hp hf hrow hfw.id hfw.next hfw.held hload (Or.inr hdead)
      fun hcl => absurd hcl hnc
  | true =>
    refine safe_access hd (fun _ => ⟨hfw.mem, hfw.thread⟩) fun _ b _ hb => ?_
    simp only [blockTouch, Option.ite_none_right_eq_some] at hb
    obtain ⟨-, he⟩ := hb
    cases he
    refine safe_pure (hd.put (Or.inl hfw.mem)) ⟨ps ++ [p], ?_, h.added hp hf.id hfilled rfl⟩
    exact h.put hp hf hrow hfw.id hfw.next hfw.held hload (Or.inl hfw.mem)
      fun _ => ⟨hfw.mem, rfl⟩

variable [Sqlite R]

/-- What `addProgById` does with a program that has been allocated. -/
theorem safe_fillAndAdd {p : Ptr} {id : ℤ} {dbl : Bool}
    (h : Filling clean stored v ps p id v) (hp : p ∉ ps) (hb : p < v.brk) :
    Safely clean stored (do
      if !(← getProgByIdFDB id p dbl) then
        freeProg p
        return false
      if !checkProg p then
        freeProg p
        return false
      if !(← addProg p) then
        freeProg p
        return false
      if !(← attempt .createMThread) then
        freeProg p
        return false
      access p .create
      return true) (AddedTo clean stored v ps id) v := by
  apply (safe_getProgByIdFDB h hp hb).seq
  intro o u hu
  obtain ⟨hu, hrow⟩ := hu
  cases o with
  | false => exact safe_dropProg hu hp hb
  | true =>
    have hbu : p < u.brk := hu.brk ▸ hb
    obtain ⟨hfilled, hrow⟩ := hrow rfl
    apply (safe_addProg hu.owned hu.fresh hp hbu hu.ids).seq
    intro o w hw
    rcases hw with ⟨rfl, rfl⟩ | ⟨rfl, happ⟩
    · exact safe_dropProg hu hp hb
    · apply (safe_startProg happ hp hu.fresh hfilled hrow).mono
      intro o t _ ht
      obtain ⟨qs, hq, hadd⟩ := ht
      refine ⟨qs, hq, hadd.settled.trans hu.settled, fun q hq => ?_, hadd.list⟩
      have hne : q ≠ p := fun he => hp (he ▸ hq)
      rw [hadd.kept q hq, hu.cells q hne]

theorem safe_addProgById {id : ℤ} {dbl : Bool} (h : Owned clean stored v ps) :
    Safely clean stored (addProgById id dbl) (AddedTo clean stored v ps id) v := by
  have hsame : AddedTo clean stored v ps id false v :=
    ⟨ps, h, rfl, fun _ _ => rfl, Or.inl ⟨rfl, rfl⟩⟩
  apply (safe_getProgById h).seq
  intro r w hw
  obtain ⟨rfl, rfl⟩ := hw
  cases hfind : findProg w ps id with
  | some q => exact safe_pure h.dead hsame
  | none =>
    have hid : ∀ q ∈ ps, (w.cell q).id ≠ id := findProg_none hfind
    apply safe_attempt h.dead
    intro o _ _
    cases o with
    | false => exact safe_pure h.dead hsame
    | true =>
      have hgrown := h.grown
      apply safe_lift h.dead trivial
      intro o q t _ he
      cases he
      change Safely clean stored _ _ w.grown
      have hzero : w.grown.cell w.brk = zeroBlock := put_cell_self
      refine safe_access hgrown.dead (fun _ => congrArg Block.mem hzero) fun _ b _ hb => ?_
      rw [hzero] at hb
      cases hb
      change Safely clean stored _ _ (w.allocated id)
      -- the program is not in the list yet: it is dropped until it has been filled
      have hfill := h.allocated hid
      have hp : w.brk ∉ ps := h.brk_not_mem
      have hb : w.brk < (w.allocated id).brk := Nat.lt_succ_self _
      have hbase {o : Bool} {u : View R} (hu : AddedTo clean stored (w.allocated id) ps id o u) :
          AddedTo clean stored w ps id o u := by
        obtain ⟨qs, hq, hadd⟩ := hu
        refine ⟨qs, hq, hadd.settled, fun q hqs => ?_, hadd.list⟩
        have hne : q ≠ w.brk := fun he => hp (he ▸ hqs)
        have hother : (w.allocated id).cell q = w.cell q :=
          (put_cell_of_ne hne).trans (put_cell_of_ne hne)
        rw [hadd.kept q hqs, hother]
      apply safe_attempt hfill.owned.dead
      intro o _ _
      cases o with
      | false => exact (safe_dropProg hfill hp hb).mono fun _ _ _ => hbase
      | true =>
        apply safe_attempt hfill.owned.dead
        intro o _ _
        cases o with
        | false => exact (safe_dropProg hfill hp hb).mono fun _ _ _ => hbase
        | true => exact (safe_fillAndAdd hfill hp hb).mono fun _ _ _ => hbase

end Regonf
