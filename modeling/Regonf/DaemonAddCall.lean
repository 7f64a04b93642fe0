import Regonf.DaemonAdd
import Regonf.DaemonCalls

/-! One call of `addProgById` as the main thread sees it, with every way its steps can turn
out. -/
namespace Regonf

open Script LinkedList

variable {R : Type}

/-- No thread creation has failed. -/
def Calm (l : Attempts) : Prop := (Fallible.createMThread, false) ∉ l

theorem Calm.snoc {l : Attempts} {w : Fallible} {o : Bool} (h : Calm l)
    (hw : w ≠ .createMThread ∨ o = true) : Calm (l ++ [(w, o)]) := by
  intro hmem
  rcases List.mem_append.mp hmem with hmem | hmem
  · exact h hmem
  · cases List.mem_singleton.mp hmem
    rcases hw with hw | hw
    · exact hw rfl
    · cases hw

/-- The program at `p` has the id, no successor and no thread; the list and the rest of the memory
are as they were. -/
structure Fills (v : View R) (p : Ptr) (id : ℤ) (w : View R) : Prop where
  brk : w.brk = v.brk
  list : w.globals.prog_list = v.globals.prog_list
  cell : ∀ q, q ≠ p → w.cell q = v.cell q
  id : (w.cell p).id = id
  next : (w.cell p).next = none
  mem : (w.cell p).mem = .allocated
  thread : (w.cell p).thread = .absent

variable {v u : View R} {p : Ptr} {id : ℤ} {ps : List Ptr}

/-- The program itself may be written to. -/
theorem Fills.put {b : Block R} (h : Fills v p id u) (hid : b.id = id) (hn : b.next = none)
    (hm : b.mem = .allocated) (ht : b.thread = .absent) : Fills v p id (u.put p b) where
  brk := h.brk
  list := h.list
  cell := fun q hq => (put_cell_of_ne hq).trans (h.cell q hq)
  id := by rw [put_cell_self, hid]
  next := by rw [put_cell_self, hn]
  mem := by rw [put_cell_self, hm]
  thread := by rw [put_cell_self, ht]

theorem Fills.setDb (h : Fills v p id u) (db : Db R) :
    Fills v p id { u with globals := { u.globals with db := db } } := { h with }

/-- A block outside the list may be written to. -/
theorem Represents.put {b : Block R} (h : v.Represents ps) (hp : p ∉ ps) (hb : p < v.brk) :
    View.Represents (v.put p b) ps := by
  have hne (q : Ptr) (hq : q ∈ ps) : (v.put p b).cell q = v.cell q :=
    put_cell_of_ne fun he => hp (he ▸ hq)
  refine h.congr rfl (fun q hq => by rw [hne q hq]) (fun q hq => ?_) fun q hq => ?_
  · rw [hne q hq]
    exact h.alive q hq
  · have hqp : q ≠ p := fun he => absurd hb (Nat.not_lt.mpr (he ▸ hq))
    rw [put_cell_of_ne hqp]
    exact h.fresh q hq

/-- A program in the list may be written to, but for its link. -/
theorem Represents.put_same {b : Block R} (h : v.Represents ps)
    (hn : b.next = (v.cell p).next) (hm : b.mem = (v.cell p).mem) :
    View.Represents (v.put p b) ps := by
  exact h.congr rfl (fun q _ => put_field Block.next hn q)
    (fun q hq => (put_field Block.mem hm q).trans (h.alive q hq))
    fun q hq => (put_field Block.mem hm q).trans (h.fresh q hq)

/-- The list is still there. -/
theorem Fills.represents (h : Fills v p id u) (hv : v.Represents ps) (hp : p ∉ ps)
    (hb : p < v.brk) : u.Represents ps := by
  have hne (q : Ptr) (hq : q ∈ ps) : u.cell q = v.cell q := h.cell q fun he => hp (he ▸ hq)
  refine hv.congr h.list (fun q hq => by rw [hne q hq]) (fun q hq => ?_) fun q hq => ?_
  · rw [hne q hq]
    exact hv.alive q hq
  · rw [h.brk] at hq
    rw [h.cell q fun he => absurd hb (Nat.not_lt.mpr (he ▸ hq))]
    exact hv.fresh q hq

theorem Represents.grown [Zero R] (h : v.Represents ps) : v.grown.Represents ps := by
  have hne (q : Ptr) (hq : q ∈ ps) : v.grown.cell q = v.cell q :=
    put_cell_of_ne fun he => h.brk_not_mem (he ▸ hq)
  refine h.congr rfl (fun q hq => by rw [hne q hq]) (fun q hq => ?_) fun q hq => ?_
  · rw [hne q hq]
    exact h.alive q hq
  · rw [show v.grown.cell q = v.cell q from put_cell_of_ne (Nat.ne_of_gt hq)]
    exact h.fresh q (Nat.le_of_succ_le hq)

variable [Zero R] {keep : List Ptr} {stops : Bool} {l : Attempts}

section rules
variable {β : Type} {Q : β → View R → Attempts → Prop}

theorem sparing_malloc {f : Ptr → Main R β} (hk : Sparing keep stops (f v.brk) Q v.grown l) :
    Sparing keep stops (lift .malloc >>= f) Q v l := by
  refine sparing_act trivial fun o b t he => ?_
  cases he
  rw [← List.append_nil l] at hk
  exact hk

theorem sparing_selectProg {i : ℤ} {f : List (ProgRow R) → Main R β}
    (hk : Sparing keep stops (f (v.globals.db.prog.rows.filter fun r => r.id = i)) Q v l) :
    Sparing keep stops (lift (.selectProg i) >>= f) Q v l := by
  refine sparing_act trivial fun o b t he => ?_
  cases he
  rw [← List.append_nil l] at hk
  exact hk

end rules

theorem sparing_dbOpen {dbl : Bool} (hl : Calm l) :
    Sparing keep stops (dbOpen dbl) (fun _ w l' => w = v ∧ Calm l') v l := by
  unfold dbOpen
  split_ifs
  · exact sparing_pure ⟨rfl, hl⟩
  · exact sparing_attempt (f := Pure.pure) fun o =>
      sparing_pure ⟨rfl, hl.snoc (Or.inl (by decide))⟩

/-- A query whose callback keeps an invariant. -/
theorem sparing_dbExec {Row : Type} {w : Fallible} {callback : Row → Main R Bool}
    {rows : List Row} {I : View R → Prop} (hw : w ≠ .createMThread)
    (hcb : ∀ row ∈ rows, ∀ u l, I u → Calm l →
      Sparing keep stops (callback row) (fun _ u' l' => I u' ∧ Calm l') u l)
    (hv : I v) (hl : Calm l) :
    Sparing keep stops (dbExec w callback rows) (fun _ u l' => I u ∧ Calm l') v l := by
  -- on the rows still to come; the query or the callback may fail at each
  induction rows generalizing v l with
  | nil =>
    exact sparing_attempt (f := Pure.pure) fun o => sparing_pure ⟨hv, hl.snoc (Or.inl hw)⟩
  | cons row rows ih =>
    apply sparing_attempt
    intro o
    have hl' : Calm (l ++ [(w, o)]) := hl.snoc (Or.inl hw)
    cases o with
    | false => exact sparing_pure ⟨hv, hl'⟩
    | true =>
      apply (hcb row List.mem_cons_self v _ hv hl').seq
      intro ok u l'' hu
      cases ok with
      | false => exact sparing_pure hu
      | true => exact ih (fun r hr => hcb r (List.mem_cons_of_mem row hr)) hu.1 hu.2

theorem sparing_regGetSecureFDB {i : ℤ} (hl : Calm l) :
    Sparing keep stops (regGetSecureFDB i) (fun _ w l' => w = v ∧ Calm l') v l := by
  apply sparing_globals
  have hexec : Sparing keep stops
      (dbExec .secureStep (fun _ => return true)
        (v.globals.db.secure.filter fun row => row.id = i))
      (fun _ w l' => w = v ∧ Calm l') v l :=
    sparing_dbExec (by decide) (fun _ _ u l' hu hl' => sparing_pure ⟨hu, hl'⟩) rfl hl
  apply hexec.seq
  intro o w l' hw
  cases o <;> exact sparing_pure hw

/-- A write to the program that leaves its link and its thread. -/
theorem sparing_write {a : CellAct R Unit} (h : Fills v p id u) (hp : p ∉ keep)
    (ha : a.isStop = false)
    (hw : ∀ st b b', b.id = id → blockTouch st Unit a b = some ((), b') →
      b'.id = id ∧ b'.next = b.next ∧ b'.mem = b.mem ∧ b'.thread = b.thread) :
    Sparing keep stops (access p a) (fun _ w l' => Fills v p id w ∧ l' = l) u l := by
  refine sparing_access (f := Pure.pure) h.mem (by simp [admits, hp, ha]) fun _ b hb => ?_
  obtain ⟨hid, hn, hm, ht⟩ := hw _ _ _ h.id hb
  exact sparing_pure ⟨h.put hid (hn.trans h.next) (hm.trans h.mem) (ht.trans h.thread), rfl⟩

theorem sparing_fillProg {i s : ℤ} {reg : RegOnfHC R} (h : Fills v p id u) (hi : i = id)
    (hp : p ∉ keep) :
    Sparing keep stops (fillProg p i reg s) (fun _ w l' => Fills v p id w ∧ l' = l) u l := by
  refine (sparing_write h hp rfl fun st b b' _ hb => ?_).seq fun _ u₁ l₁ h₁ => ?_
  · cases hb
    exact ⟨hi, rfl, rfl, rfl⟩
  obtain ⟨h₁, rfl⟩ := h₁
  refine (sparing_write h₁ hp rfl fun st b b' hid hb => ?_).seq fun _ u₂ l₂ h₂ => ?_
  · cases hb
    exact ⟨hid, rfl, rfl, rfl⟩
  obtain ⟨h₂, rfl⟩ := h₂
  refine sparing_write h₂ hp rfl fun st b b' hid hb => ?_
  cases hb
  exact ⟨hid, rfl, rfl, rfl⟩

variable [Sqlite R]

theorem sparing_saveTableField {i : ℤ} {c : Column R} {dbl : Bool} (hl : Calm l) :
    Sparing keep stops (saveTableField i c dbl)
      (fun _ w l' => (∃ db, w = { v with globals := { v.globals with db := db } }) ∧ Calm l')
      v l := by
  apply (sparing_dbOpen hl).seq
  intro o w l₁ hw
  obtain ⟨rfl, hl₁⟩ := hw
  cases o with
  | false => exact sparing_pure ⟨⟨w.globals.db, rfl⟩, hl₁⟩
  | true =>
    apply sparing_attempt
    intro o
    have hl₂ : Calm (l₁ ++ [(.save, o)]) := hl₁.snoc (Or.inl (by decide))
    cases o with
    | false => exact sparing_pure ⟨⟨w.globals.db, rfl⟩, hl₂⟩
    | true => exact sparing_setGlobals_last ⟨⟨_, rfl⟩, hl₂⟩

theorem sparing_getProgCallback {row : ProgRow R} (h : Fills v p id u) (hrow : row.id = id)
    (hp : p ∉ keep) (hl : Calm l) :
    Sparing keep stops (getProgCallback p row) (fun _ w l' => Fills v p id w ∧ Calm l') u l := by
  apply sparing_globals
  split
  · apply (sparing_regGetSecureFDB hl).seq
    intro secure_out w l₁ hw
    obtain ⟨rfl, hl₁⟩ := hw
    refine (sparing_fillProg h hrow hp).seq fun _ u' l₂ hu => ?_
    obtain ⟨hu, rfl⟩ := hu
    split_ifs
    -- `load` is saved
    · refine (sparing_saveTableField hl₁).seq fun _ w' l₃ hw => ?_
      obtain ⟨⟨db, rfl⟩, hl₃⟩ := hw
      exact sparing_pure ⟨hu.setDb db, hl₃⟩
    · exact sparing_pure ⟨hu, hl₁⟩
  · exact sparing_pure ⟨h, hl⟩

theorem sparing_getProgByIdFDB {dbl : Bool} (h : Fills v p id u) (hp : p ∉ keep)
    (hl : Calm l) :
    Sparing keep stops (getProgByIdFDB id p dbl) (fun _ w l' => Fills v p id w ∧ Calm l')
      u l := by
  apply (sparing_dbOpen hl).seq
  intro o w l₁ hw
  obtain ⟨rfl, hl₁⟩ := hw
  cases o with
  | false => exact sparing_pure ⟨h, hl₁⟩
  | true =>
    apply sparing_selectProg
    refine sparing_dbExec (by decide) (fun row hrow u' l₂ hu hl₂ => ?_) h hl₁
    -- the query has found rows of the id alone
    have hid : row.id = id := by
      have hmem := (List.mem_filter.mp hrow).2
      simpa using hmem
    exact sparing_getProgCallback hu hid hp hl₂

/-- What a call of `addProgById` can come to: nothing has changed; the program has been appended
and started; the program has been appended and is freed. -/
inductive AddCase (v : View R) (ps : List Ptr) (id : ℤ) (w : View R) (l : Attempts) :
    Bool → Prop where
  | refused (calm : Calm l) (list : w.globals.prog_list = v.globals.prog_list)
      (cell : ∀ q ∈ ps, w.cell q = v.cell q) (represents : w.Represents ps) :
      AddCase v ps id w l false
  | added (calm : Calm l) (ids : ∀ q ∈ ps, (v.cell q).id ≠ id)
      (held : ∀ q ∈ ps, (w.cell q).held = true → (v.cell q).held = true)
      (represents : w.Represents (ps ++ [v.brk])) (new : (w.cell v.brk).id = id)
      (thread : (w.cell v.brk).thread = .created) : AddCase v ps id w l true
  | dangling (failed : ¬ Calm l) (length : w.globals.prog_list.length = ps.length + 1) :
      AddCase v ps id w l false

omit [Sqlite R] in
/-- A program that is not in the list is freed. -/
theorem sparing_dropProg (hv : v.Represents ps) (hu : Fills v.grown v.brk id u)
    (hl : Calm l) :
    Sparing ps stops (do freeProg v.brk; return false) (fun o w l' => AddCase v ps id w l' o)
      u l := by
  have hp := hv.brk_not_mem
  have hb : v.brk < u.brk := by
    rw [hu.brk]
    exact Nat.lt_succ_self v.brk
  refine sparing_access hu.mem (by simp [admits, hp, CellAct.isStop]) fun _ b hb => ?_
  cases hb
  refine sparing_pure (AddCase.refused hl hu.list (fun q hq => ?_)
    ((hu.represents hv.grown hp (Nat.lt_succ_self _)).put hp hb))
  have hne : q ≠ v.brk := fun he => hp (he ▸ hq)
  rw [put_cell_of_ne hne, hu.cell q hne]
  exact put_cell_of_ne hne

omit [Sqlite R] in
/-- The end of `addProgById`, behind the one point where the program is freed though it is in the
list. -/
theorem sparing_startProg {w : View R} (hv : v.Represents ps) (hu : Fills v.grown v.brk id u)
    (hw : Lengthened u ps v.brk w) (hid : ∀ q ∈ ps, (v.cell q).id ≠ id) (hl : Calm l) :
    Sparing ps stops (do
      if !(← attempt .createMThread) then
        freeProg v.brk
        return false
      access v.brk .create
      return true) (fun o w l' => AddCase v ps id w l' o) w l := by
  have hp := hv.brk_not_mem
  have hm : (w.cell v.brk).mem = .allocated := by
    rw [hw.cell]
    exact hu.mem
  apply sparing_attempt
  intro o
  cases o with
  | false =>
    -- the program is freed, but nothing takes it out of the list again
    refine sparing_access hm (by simp [admits, hp, CellAct.isStop]) fun _ b hb => ?_
    cases hb
    refine sparing_pure (AddCase.dangling ?_ ?_)
    · simp [Calm]
    · rw [put_globals, hw.represents.length, List.length_append, List.length_singleton]
  | true =>
    refine sparing_access hm (by simp [admits, hp, CellAct.isStop]) fun _ b hb => ?_
    simp only [blockTouch, Option.ite_none_right_eq_some] at hb
    obtain ⟨-, he⟩ := hb
    cases he
    refine sparing_pure (AddCase.added (hl.snoc (Or.inr rfl)) hid (fun q hq hh => ?_) ?_ ?_ ?_)
    · have hne : q ≠ v.brk := fun he => hp (he ▸ hq)
      have hcell : u.cell q = v.cell q := (hu.cell q hne).trans (put_cell_of_ne hne)
      rw [put_cell_of_ne hne] at hh
      rw [← hcell]
      exact hw.rewired.held q hh
    · exact hw.represents.put_same (b := { w.cell v.brk with
        thread := .created, unused := false, quiet := False }) rfl rfl
    · rw [put_cell_self]
      exact (congrArg Block.id hw.cell).trans hu.id
    · rw [put_cell_self]

/-- What `addProgById` does with a program that has been allocated. -/
theorem sparing_fillAndAdd {dbl : Bool} (hv : v.Represents ps)
    (hu : Fills v.grown v.brk id u) (hid : ∀ q ∈ ps, (v.cell q).id ≠ id) (hl : Calm l) :
    Sparing ps stops (do
      if !(← getProgByIdFDB id v.brk dbl) then
        freeProg v.brk
        return false
      if !checkProg v.brk then
        freeProg v.brk
        return false
      if !(← addProg v.brk) then
        freeProg v.brk
        return false
      if !(← attempt .createMThread) then
        freeProg v.brk
        return false
      access v.brk .create
      return true) (fun o w l' => AddCase v ps id w l' o) u l := by
  have hp := hv.brk_not_mem
  apply (sparing_getProgByIdFDB hu hp hl).seq
  intro o u' l₁ hu'
  obtain ⟨hu', hl₁⟩ := hu'
  cases o with
  | false => exact sparing_dropProg hv hu' hl₁
  | true =>
    have hrep : u'.Represents ps := hu'.represents hv.grown hp (Nat.lt_succ_self _)
    apply (sparing_addProg hrep hp hu'.mem hu'.next).seq
    intro o w l₂ hw
    rcases hw with ⟨rfl, ⟨rfl, rfl, -⟩ | ⟨rfl, hw⟩⟩
    -- the list is full
    · exact sparing_dropProg hv hu' hl₁
    · exact sparing_startProg hv hu' hw hid hl₁

theorem sparing_addProgById {dbl : Bool} (hv : v.Represents ps) (hl : Calm l) :
    Sparing ps stops (addProgById id dbl) (fun o w l' => AddCase v ps id w l' o) v l := by
  have hp := hv.brk_not_mem
  have hsame {l' : Attempts} (hl' : Calm l') : AddCase v ps id v l' false :=
    AddCase.refused hl' rfl (fun _ _ => rfl) hv
  apply (sparing_getProgById hv).seq
  intro r w l₁ hw
  obtain ⟨rfl, rfl, rfl⟩ := hw
  cases hfind : findProg w ps id with
  -- the program is in the list already
  | some q => exact sparing_pure (hsame hl)
  | none =>
    have hid : ∀ q ∈ ps, (w.cell q).id ≠ id := findProg_none hfind
    apply sparing_attempt
    intro o
    have hl₁ : Calm (l₁ ++ [(.malloc, o)]) := hl.snoc (Or.inl (by decide))
    cases o with
    | false => exact sparing_pure (hsame hl₁)
    | true =>
      apply sparing_malloc
      have hzero : w.grown.cell w.brk = zeroBlock := put_cell_self
      have hmem : (w.grown.cell w.brk).mem = .allocated := congrArg Block.mem hzero
      refine sparing_access hmem (by simp [admits, hp, CellAct.isStop]) fun _ b hb => ?_
      rw [hzero] at hb
      cases hb
      -- the program is dropped at each of the next steps that fails
      have hfill : Fills w.grown w.brk id
          (w.grown.put w.brk { (zeroBlock : Block R) with id := id }) :=
        ⟨rfl, rfl, fun q hq => put_cell_of_ne hq, by rw [put_cell_self], by rw [put_cell_self]; rfl,
          by rw [put_cell_self]; rfl, by rw [put_cell_self]; rfl⟩
      apply sparing_attempt
      intro o
      have hl₂ := hl₁.snoc (w := .initMutex) (o := o) (Or.inl (by decide))
      cases o with
      | false => exact sparing_dropProg hv hfill hl₂
      | true =>
        apply sparing_attempt
        intro o
        have hl₃ := hl₂.snoc (w := .initClient) (o := o) (Or.inl (by decide))
        cases o with
        | false => exact sparing_dropProg hv hfill hl₃
        | true => exact sparing_fillAndAdd hv hfill hid hl₃

end Regonf
