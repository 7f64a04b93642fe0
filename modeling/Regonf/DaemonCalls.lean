import Regonf.DaemonWalk
import Regonf.Lib.Calls

/-! Single calls of the functions of `db.c` on a daemon in any state in which `prog_list`
represents a sequence of programs, with the outcomes of the calls that may fail. -/
namespace Regonf

open Script LinkedList

variable {R : Type}

/-- What the calls that may fail have returned, in their order. -/
abbrev Attempts := List (Fallible × Bool)

def noteAttempt : Note (Act R) Bool (Fallible × Bool)
  | _, .attempt w, o => [(w, o)]
  | _, _, _ => []

/-- `top`, `last` and `length` represent the programs at `ps`, which lie in allocated memory. -/
structure Represents {C : Type} (next : C → Option Ptr) (mem : C → Memory) (v : Daemon R C)
    (ps : List Ptr) : Prop where
  list : IsList (fun p => next (v.cell p)) v.globals.prog_list.top ps
  last : v.globals.prog_list.last = ps.getLast?
  length : v.globals.prog_list.length = ps.length
  alive : ∀ p ∈ ps, mem (v.cell p) = .allocated
  fresh : ∀ p, v.brk ≤ p → mem (v.cell p) = .unallocated

section represents
variable {C : Type} {next : C → Option Ptr} {mem : C → Memory} {v : Daemon R C} {ps : List Ptr}

theorem Represents.lt_brk {p : Ptr} (h : Represents next mem v ps)
    (hm : mem (v.cell p) = .allocated) : p < v.brk := by
  by_contra hn
  rw [h.fresh p (Nat.le_of_not_lt hn)] at hm
  cases hm

theorem Represents.below (h : Represents next mem v ps) (p : Ptr) (hp : p ∈ ps) : p < v.brk :=
  h.lt_brk (h.alive p hp)

theorem Represents.brk_not_mem (h : Represents next mem v ps) : v.brk ∉ ps :=
  fun hm => Nat.lt_irrefl _ (h.below _ hm)

/-- The list depends on the links and the memory of its nodes alone. -/
theorem Represents.congr {D : Type} {next' : D → Option Ptr} {mem' : D → Memory}
    {w : Daemon R D} (h : Represents next mem v ps)
    (hl : w.globals.prog_list = v.globals.prog_list)
    (hn : ∀ p ∈ ps, next' (w.cell p) = next (v.cell p))
    (hm : ∀ p ∈ ps, mem' (w.cell p) = .allocated)
    (hf : ∀ p, w.brk ≤ p → mem' (w.cell p) = .unallocated) : Represents next' mem' w ps where
  list := by
    rw [hl]
    exact Seg.congr h.list hn
  last := by rw [hl]; exact h.last
  length := by rw [hl]; exact h.length
  alive := hm
  fresh := hf

end represents

/-- The programs that the main thread knows of. -/
abbrev View.Represents (v : View R) (ps : List Ptr) : Prop :=
  Regonf.Represents Block.next Block.mem v ps

/-- The accesses that leave a program as it is but for its link. -/
def CellAct.isLink {β : Type} : CellAct R β → Bool
  | .id => true
  | .next => true
  | .setNext _ => true
  | .lockMutex => true
  | .unlockMutex => true
  | _ => false

/-- The accesses that stop a thread. -/
def CellAct.isStop {β : Type} : CellAct R β → Bool
  | .cancel => true
  | .join => true
  | _ => false

/-- The programs at `keep` are not written to but for their links, and threads are stopped only
if `stops` says so. -/
def admits (keep : List Ptr) (stops : Bool) (p : Ptr) {β : Type} (a : CellAct R β) : Bool :=
  a.isLink || (p ∉ keep && (stops || !a.isStop))

variable [Zero R]

/-- Every outcome is admitted; allocated memory alone is touched. -/
def sparing (keep : List Ptr) (stops : Bool) : Contract (Act R) Bool (View R × Attempts) where
  allow _ _ _ _ := True
  demand
    | _, .cell p a, s => (s.1.cell p).mem = .allocated ∧ admits keep stops p a = true
    | _, .undefined, _ => False
    | _, _, _ => True
  always _ := True

abbrev Sparing (keep : List Ptr) (stops : Bool) {α : Type} (c : Main R α)
    (Q : α → View R → Attempts → Prop) (v : View R) (l : Attempts) : Prop :=
  Safe (noting noteAttempt (exec blockExec zeroBlock)) (sparing keep stops) c
    (fun x s => Q x s.1 s.2) (v, l)

section rules
variable {keep : List Ptr} {stops : Bool} {α β : Type} {v : View R} {l : Attempts}
  {Q : β → View R → Attempts → Prop}

theorem sparing_pure {x : β} (h : Q x v l) : Sparing keep stops (Pure.pure x) Q v l :=
  ⟨trivial, h⟩

/-- The rule for one action. -/
theorem sparing_act {a : Act R α} {f : α → Main R β} (hd : (sparing keep stops).demand α a (v, l))
    (hk : ∀ o b t, exec blockExec zeroBlock α a o v = some (b, t) →
      Sparing keep stops (f b) Q t (l ++ noteAttempt α a o)) :
    Sparing keep stops (lift a >>= f) Q v l := by
  apply safe_lift trivial hd
  rintro o b ⟨t, l'⟩ - he
  obtain ⟨he, hl⟩ := noting_some.mp he
  dsimp only at hl
  rw [hl]
  exact hk o b t he

theorem sparing_globals {f : Globals R → Main R β} (hk : Sparing keep stops (f v.globals) Q v l) :
    Sparing keep stops (globals >>= f) Q v l := by
  refine sparing_act trivial fun o b t he => ?_
  cases he
  rw [← List.append_nil l] at hk
  exact hk

theorem sparing_blocks {f : ℕ → Main R β} (hk : Sparing keep stops (f v.brk) Q v l) :
    Sparing keep stops (blocks >>= f) Q v l := by
  refine sparing_act trivial fun o b t he => ?_
  cases he
  rw [← List.append_nil l] at hk
  exact hk

theorem sparing_setGlobals {f : Unit → Main R β} {g : Globals R → Globals R}
    (hk : Sparing keep stops (f ()) Q { v with globals := g v.globals } l) :
    Sparing keep stops (setGlobals g >>= f) Q v l := by
  refine sparing_act trivial fun o b t he => ?_
  cases he
  rw [← List.append_nil l] at hk
  exact hk

theorem sparing_attempt {w : Fallible} {f : Bool → Main R β}
    (hk : ∀ o, Sparing keep stops (f o) Q v (l ++ [(w, o)])) :
    Sparing keep stops (attempt w >>= f) Q v l := by
  refine sparing_act trivial fun o b t he => ?_
  cases he
  exact hk o

theorem sparing_access {p : Ptr} {a : CellAct R α} {f : α → Main R β}
    (hm : (v.cell p).mem = .allocated) (hl : admits keep stops p a = true)
    (hk : ∀ x b, blockTouch v.globals.app_state α a (v.cell p) = some (x, b) →
      Sparing keep stops (f x) Q (v.put p b) l) : Sparing keep stops (access p a >>= f) Q v l := by
  refine sparing_act ⟨hm, hl⟩ fun o x t he => ?_
  obtain ⟨⟨y, b⟩, hb, he⟩ := Option.map_eq_some_iff.mp he
  cases he
  simp only [blockExec, Option.ite_none_right_eq_some] at hb
  have hrest := hk y b hb.2
  rw [← List.append_nil l] at hrest
  exact hrest

theorem sparing_readId {p : Ptr} {f : ℤ → Main R β} (hm : (v.cell p).mem = .allocated)
    (hk : Sparing keep stops (f (v.cell p).id) Q v l) :
    Sparing keep stops (access p .id >>= f) Q v l := by
  refine sparing_access hm rfl fun x b hb => ?_
  cases hb
  rw [put_self]
  exact hk

theorem sparing_readNext {p : Ptr} {f : Option Ptr → Main R β}
    (hm : (v.cell p).mem = .allocated) (hk : Sparing keep stops (f (v.cell p).next) Q v l) :
    Sparing keep stops (access p .next >>= f) Q v l := by
  refine sparing_access hm rfl fun x b hb => ?_
  cases hb
  rw [put_self]
  exact hk

theorem sparing_setGlobals_last {g : Globals R → Globals R}
    {Q : Unit → View R → Attempts → Prop} (h : Q () { v with globals := g v.globals } l) :
    Sparing keep stops (setGlobals g) Q v l :=
  sparing_setGlobals (f := Pure.pure) (sparing_pure h)

/-- The rule of sequence. -/
theorem Sparing.seq {c : Main R α} {f : α → Main R β} {P : α → View R → Attempts → Prop}
    (h : Sparing keep stops c P v l) (hf : ∀ x w l', P x w l' → Sparing keep stops (f x) Q w l') :
    Sparing keep stops (c >>= f) Q v l :=
  Safe.seq h fun x s hp => hf x s.1 s.2 hp

end rules

section calls
variable {keep : List Ptr} {stops : Bool} {v : View R} {l : Attempts} {ps qs : List Ptr}

theorem sparing_getProgByIdFrom {id : ℤ} {n : ℕ} {p : Option Ptr}
    (hl : IsList (fun q => (v.cell q).next) p qs) (hn : qs.length ≤ n)
    (hm : ∀ q ∈ qs, (v.cell q).mem = .allocated) :
    Sparing keep stops (getProgByIdFrom id n p)
      (fun r w l' => w = v ∧ l' = l ∧ r = findProg v qs id) v l := by
  -- on the nodes still to come; `n` bounds them
  induction qs generalizing n p with
  | nil =>
    cases hl
    cases n <;> exact sparing_pure ⟨rfl, rfl, rfl⟩
  | cons q qs ih =>
    obtain ⟨rfl, hl⟩ := hl
    cases n with
    | zero => exact absurd hn (by simp)
    | succ n =>
      have hq : (v.cell q).mem = .allocated := hm q List.mem_cons_self
      apply sparing_readId hq
      split_ifs with hid
      · exact sparing_pure ⟨rfl, rfl, by simp [findProg, hid]⟩
      · apply sparing_readNext hq
        have hrest := ih hl (Nat.le_of_succ_le_succ hn)
          fun r hr => hm r (List.mem_cons_of_mem q hr)
        simpa [findProg, hid] using hrest

theorem sparing_getProgById {id : ℤ} (h : v.Represents ps) :
    Sparing keep stops (getProgById id)
      (fun r w l' => w = v ∧ l' = l ∧ r = findProg v ps id) v l :=
  sparing_blocks (sparing_globals (sparing_getProgByIdFrom h.list
    (length_le_brk h.list h.below) h.alive))

/-- A block whose link has been rewritten under its mutex. -/
def Block.relinked {R : Type} (b : Block R) (x : Option Ptr) : Block R :=
  { b with next := x, held := false }

theorem sparing_relink {p : Ptr} {x : Option Ptr} (hm : (v.cell p).mem = .allocated) :
    Sparing keep stops (relink p x)
      (fun _ w l' => w = v.put p ((v.cell p).relinked x) ∧ l' = l) v l := by
  -- the mutex is locked, the link is written, the mutex is unlocked
  refine sparing_access hm rfl fun _ b₁ h₁ => ?_
  cases h₁
  refine sparing_access ?_ rfl fun _ b₂ h₂ => ?_
  · rw [put_cell_self]
    exact hm
  cases h₂
  rw [put_put, put_cell_self]
  refine sparing_access ?_ rfl fun _ b₃ h₃ => ?_
  · rw [put_cell_self]
    exact hm
  cases h₃
  rw [put_put, put_cell_self]
  exact sparing_pure ⟨rfl, rfl⟩

/-- Links and the list have been rewritten, and nothing else. -/
structure Rewired (v w : View R) : Prop where
  globals : w.globals = { v.globals with prog_list := w.globals.prog_list }
  brk : w.brk = v.brk
  cell : ∀ q, ∃ x h, w.cell q = { v.cell q with next := x, held := h } ∧
    (h = true → (v.cell q).held = true)

omit [Zero R] in
/-- Every other field of a program is as it was. -/
theorem Rewired.field {w : View R} (hr : Rewired v w) {γ : Type} (f : Block R → γ)
    (hf : ∀ b x h, f { b with next := x, held := h } = f b) (q : Ptr) :
    f (w.cell q) = f (v.cell q) := by
  obtain ⟨x, h, hq, -⟩ := hr.cell q
  rw [hq]
  exact hf _ x h

omit [Zero R] in
/-- The main thread does not hold on to a mutex. -/
theorem Rewired.held {w : View R} (hr : Rewired v w) (q : Ptr) (hh : (w.cell q).held = true) :
    (v.cell q).held = true := by
  obtain ⟨x, h, hq, hle⟩ := hr.cell q
  rw [hq] at hh
  exact hle hh

omit [Zero R] in
theorem Rewired.represents {w : View R} (hr : Rewired v w) (h : v.Represents ps)
    (hlist : IsList (fun q => (w.cell q).next) w.globals.prog_list.top qs)
    (hlast : w.globals.prog_list.last = qs.getLast?)
    (hlen : w.globals.prog_list.length = qs.length)
    (hm : ∀ q ∈ qs, (v.cell q).mem = .allocated) : w.Represents qs where
  list := hlist
  last := hlast
  length := hlen
  alive := fun q hq => (hr.field Block.mem (fun _ _ _ => rfl) q).trans (hm q hq)
  fresh := by
    intro q hq
    rw [hr.brk] at hq
    exact (hr.field Block.mem (fun _ _ _ => rfl) q).trans (h.fresh q hq)

/-- The program at `p` has been appended to the list. -/
structure Lengthened (v : View R) (ps : List Ptr) (p : Ptr) (w : View R) : Prop where
  represents : w.Represents (ps ++ [p])
  rewired : Rewired v w
  cell : w.cell p = v.cell p

/-- A list with `INT_MAX` programs is left as it is. -/
theorem sparing_addProg {p : Ptr} (h : v.Represents ps) (hp : p ∉ ps)
    (hm : (v.cell p).mem = .allocated) (hn : (v.cell p).next = none) :
    Sparing keep stops (addProg p) (fun o w l' => l' = l ∧
      ((o = false ∧ w = v ∧ INT_MAX ≤ ps.length) ∨ (o = true ∧ Lengthened v ps p w))) v l := by
  have hmem : ∀ q ∈ ps ++ [p], (v.cell q).mem = .allocated :=
    List.forall_mem_append.mpr ⟨h.alive, List.forall_mem_singleton.mpr hm⟩
  apply sparing_globals
  split_ifs with hlen
  · exact sparing_pure ⟨rfl, Or.inl ⟨rfl, rfl, h.length ▸ hlen⟩⟩
  rcases List.eq_nil_or_concat' ps with rfl | ⟨qs, a, rfl⟩
  · -- the list is empty: `top` is written
    rw [linkProg_nil h.list]
    refine sparing_setGlobals (sparing_setGlobals (sparing_pure ⟨rfl, Or.inr ⟨rfl, ?_⟩⟩))
    have hr : Rewired v { v with globals := { v.globals with prog_list :=
        { top := some p, last := some p, length := v.globals.prog_list.length + 1 } } } :=
      ⟨rfl, rfl, fun q => ⟨(v.cell q).next, (v.cell q).held, rfl, id⟩⟩
    exact ⟨hr.represents h ⟨rfl, hn⟩ rfl (by simp [h.length]) hmem, hr, rfl⟩
  · -- the link of the last program is rewritten under its mutex
    have hpa : p ≠ a := fun he => hp (by simp [he])
    rw [linkProg_concat h.list h.last]
    refine (sparing_relink (h.alive a (by simp))).seq fun _ w l' hw => ?_
    obtain ⟨rfl, rfl⟩ := hw
    refine sparing_setGlobals (sparing_pure ⟨rfl, Or.inr ⟨rfl, ?_⟩⟩)
    have hr : Rewired v { v.put a ((v.cell a).relinked (some p)) with
        globals := { v.globals with prog_list := { v.globals.prog_list with
          last := some p, length := v.globals.prog_list.length + 1 } } } := by
      refine ⟨rfl, rfl, fun q => ?_⟩
      rcases eq_or_ne q a with rfl | hne
      · exact ⟨some p, false, put_cell_self, nofun⟩
      · exact ⟨(v.cell q).next, (v.cell q).held, put_cell_of_ne hne, id⟩
    exact ⟨hr.represents h (put_append h.list hp hn rfl) List.getLast?_concat.symm
      (by simp [h.length]) hmem, hr, put_cell_of_ne hpa⟩

end calls

end Regonf
