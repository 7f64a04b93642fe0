import Regonf.DaemonMarks
import Regonf.Lib.Progress

/-! The order that the main thread keeps in its accesses to a program: it works on a regulator
under the mutex or while no thread runs, and waits for a thread that it has asked to end, holding no
mutex. Nothing is assumed of the calls that may fail. -/
namespace Regonf

open Script

variable {R : Type}

/-- When an access is in order. -/
def InOrder : {β : Type} → CellAct R β → Marked R → Prop
  | _, .op _, m => m.block.held = true ∨ m.block.thread ≠ .created
  | _, .setReg v, m => NamesEM v ∧ m.block.thread ≠ .created
  | _, .join, m => m.cancelled = true ∧ m.block.held = false
  | _, _, _ => True

def orderly : Contract (Act R) Bool (Daemon R (Marked R)) where
  allow _ _ _ _ := True
  demand
    | _, .cell p a, t => t.globals.exited = false ∧ InOrder a (t.cell p)
    | _, _, _ => True
  always t := ∀ p, (t.cell p).named

/-- The main thread holds the mutex of `held` and no other, and no thread runs yet for `fresh`. -/
structure Orderly (held fresh : Option Ptr) (t : Daemon R (Marked R)) : Prop where
  running : t.globals.exited = false
  named : ∀ p, (t.cell p).named
  held : ∀ p, (t.cell p).block.held = true ↔ held = some p
  fresh : ∀ p, fresh = some p → (t.cell p).block.thread ≠ .created

theorem Orderly.forget {held fresh : Option Ptr} {t : Daemon R (Marked R)}
    (h : Orderly held fresh t) : Orderly held none t :=
  { h with fresh := nofun }

theorem Orderly.not_held {fresh : Option Ptr} {t : Daemon R (Marked R)}
    (h : Orderly none fresh t) (p : Ptr) : (t.cell p).block.held = false := by
  rw [← Bool.not_eq_true, h.held p]
  exact Option.some_ne_none p ∘ Eq.symm

variable [Zero R]

/-- The accesses that are in order anywhere, but for the operations on a regulator. -/
def Plain (held fresh : Option Ptr) (p : Ptr) : {β : Type} → CellAct R β → Prop
  | _, .op _ => held = some p ∨ fresh = some p
  | _, .setReg v => NamesEM v ∧ fresh = some p
  | _, .lockMutex => False
  | _, .unlockMutex => False
  | _, .create => False
  | _, .join => False
  | _, _ => True

/-- The judgement on scripts that leave the mutexes and the threads as they are. -/
abbrev PreservesOrder (held fresh : Option Ptr) {α : Type} (c : Main R α) : Prop :=
  Preserves (exec markedExec zeroMarked) orderly (Orderly held fresh) c

variable {α β : Type} {held fresh : Option Ptr} {t : Daemon R (Marked R)} {p : Ptr}

omit [Zero R] in
/-- A block may be written to, and its mutex may change hands. -/
theorem Orderly.put {held' : Option Ptr} (h : Orderly held fresh t) {m : Marked R} (hn : m.named)
    (ht : fresh = some p → m.block.thread ≠ .created) (hh : m.block.held = true ↔ held' = some p)
    (ho : ∀ q, q ≠ p → (held = some q ↔ held' = some q)) : Orderly held' fresh (t.put p m) where
  running := h.running
  named := by
    intro q
    -- only the block at `p` is another
    rcases eq_or_ne q p with rfl | hq
    · rwa [put_cell_self]
    · rw [put_cell_of_ne hq]
      exact h.named q
  held := by
    intro q
    rcases eq_or_ne q p with rfl | hq
    · rwa [put_cell_self]
    · rw [put_cell_of_ne hq]
      exact (h.held q).trans (ho q hq)
  fresh := by
    intro q hf
    rcases eq_or_ne q p with rfl | hq
    · rw [put_cell_self]
      exact ht hf
    · rw [put_cell_of_ne hq]
      exact h.fresh q hf

omit [Zero R] in
theorem Orderly.put_same (h : Orderly held fresh t) {m : Marked R} (hn : m.named)
    (ht : m.block.thread = (t.cell p).block.thread) (hh : m.block.held = (t.cell p).block.held) :
    Orderly held fresh (t.put p m) :=
  h.put hn (fun hf => ht ▸ h.fresh p hf) (hh ▸ h.held p) fun _ _ => Iff.rfl

/-- The rule for an access. -/
theorem order_access {a : CellAct R α} {f : α → Main R β} {Q : β → Daemon R (Marked R) → Prop}
    (h : Orderly held fresh t) (hd : InOrder a (t.cell p))
    (hk : ∀ x b, blockTouch t.globals.app_state α a (t.cell p).block = some (x, b) →
      Safe (exec markedExec zeroMarked) orderly (f x) Q (t.put p ((t.cell p).after a b))) :
    Safe (exec markedExec zeroMarked) orderly (access p a >>= f) Q t := by
  refine safe_lift h.named ⟨h.running, hd⟩ fun o x u _ he => ?_
  obtain ⟨r, hm, he⟩ := Option.map_eq_some_iff.mp he
  cases he
  obtain ⟨⟨y, b⟩, hb, rfl⟩ := Option.map_eq_some_iff.mp hm
  rw [blockExec, Option.ite_none_right_eq_some] at hb
  exact hk y b hb.2

theorem order_plain {a : CellAct R α} (ha : Plain held fresh p a) :
    PreservesOrder held fresh (access p a) := by
  intro t ht
  -- the mutex is held, or no thread runs yet
  have hd : InOrder a (t.cell p) := by
    cases a with
    | op o =>
      rcases ha with ha | ha
      · exact Or.inl ((ht.held p).mpr ha)
      · exact Or.inr (ht.fresh p ha)
    | setReg v => exact ⟨ha.1, ht.fresh p ha.2⟩
    | join => exact ha.elim
    | _ => trivial
  refine order_access (f := Pure.pure) ht hd fun x b hb => ?_
  have hput : Orderly held fresh (t.put p ((t.cell p).after a b)) := by
    cases a with
    | lockMutex => exact ha.elim
    | unlockMutex => exact ha.elim
    | create => exact ha.elim
    | join => exact ha.elim
    | setReg v => cases hb; exact ht.put_same ha.1 rfl rfl
    | cancel =>
      simp only [blockTouch, Option.ite_none_right_eq_some] at hb
      cases hb.2
      exact ht.put_same (ht.named p) rfl rfl
    | _ => cases hb; exact ht.put_same (ht.named p) rfl rfl
  exact safe_pure hput.named hput

theorem order_pure (x : α) : PreservesOrder held fresh (Pure.pure x : Main R α) :=
  Preserves.pure (fun _ ht => ht.named) x

theorem order_forM {γ : Type} {xs : List γ} {body : γ → Main R PUnit}
    (hb : ∀ x ∈ xs, PreservesOrder held fresh (body x)) :
    PreservesOrder held fresh (xs.forM body) := Preserves.forM (fun _ ht => ht.named) hb

/-- An action other than an access, which changes nothing or allocates a block. -/
theorem order_lift {a : Act R α} (ha : ∀ o t x u, Orderly held fresh t →
    exec markedExec zeroMarked α a o t = some (x, u) → Orderly held fresh u)
    (hd : ∀ t, orderly.demand α a t) : PreservesOrder held fresh (.lift a) := by
  intro t ht
  refine safe_lift (f := Pure.pure) ht.named (hd t) fun o x u _ he => ?_
  have hu := ha o t x u ht he
  exact safe_pure hu.named hu

theorem order_globals : PreservesOrder held fresh (globals : Main R (Globals R)) :=
  order_lift (fun _ _ _ _ ht he => by cases he; exact ht) fun _ => trivial

theorem order_blocks : PreservesOrder held fresh (blocks : Main R ℕ) :=
  order_lift (fun _ _ _ _ ht he => by cases he; exact ht) fun _ => trivial

theorem order_attempt (w : Fallible) : PreservesOrder held fresh (attempt w : Main R Bool) :=
  order_lift (fun _ _ _ _ ht he => by cases he; exact ht) fun _ => trivial

theorem order_selectProg (id : ℤ) :
    PreservesOrder held fresh (.lift (.selectProg id) : Main R (List (ProgRow R))) :=
  order_lift (fun _ _ _ _ ht he => by cases he; exact ht) fun _ => trivial

theorem order_setGlobals {f : Globals R → Globals R} (hf : ∀ g, (f g).exited = g.exited) :
    PreservesOrder held fresh (setGlobals f) := by
  refine order_lift (fun _ t _ _ ht he => ?_) fun _ => trivial
  cases he
  exact { ht with running := (hf _).trans ht.running }

theorem order_undefined : PreservesOrder held fresh (undefinedResult : Main R α) :=
  fun _ ht => ⟨ht.named, trivial, fun _ b => b.elim⟩

/-! Under the mutex of a program. -/

theorem order_lock {f : Bool → Main R β} {Q : β → Daemon R (Marked R) → Prop}
    (h : Orderly none fresh t) (hk : ∀ u, Orderly (some p) fresh u →
      Safe (exec markedExec zeroMarked) orderly (f true) Q u) :
    Safe (exec markedExec zeroMarked) orderly (access p .lockMutex >>= f) Q t := by
  refine order_access h trivial fun x b hb => ?_
  cases hb
  -- the main thread holds no mutex yet, so it gets this one
  rw [h.not_held p, Bool.not_false]
  exact hk _ (h.put (h.named p) (h.fresh p) (iff_of_true rfl rfl) fun q hq =>
    iff_of_false nofun fun he => hq (Option.some.inj he).symm)

theorem order_unlock {f : Bool → Main R β} {Q : β → Daemon R (Marked R) → Prop}
    (h : Orderly (some p) fresh t) (hk : ∀ x u, Orderly none fresh u →
      Safe (exec markedExec zeroMarked) orderly (f x) Q u) :
    Safe (exec markedExec zeroMarked) orderly (access p .unlockMutex >>= f) Q t := by
  refine order_access h trivial fun x b hb => ?_
  cases hb
  exact hk _ _ (h.put (h.named p) (h.fresh p) (iff_of_false Bool.false_ne_true nofun) fun q hq =>
    iff_of_false (fun he => hq (Option.some.inj he).symm) nofun)

/-! Scripts that touch no mutex and no thread. -/

theorem order_getProgByIdFrom (id : ℤ) (n : ℕ) (p : Option Ptr) :
    PreservesOrder held fresh (getProgByIdFrom id n p : Main R (Option Ptr)) := by
  -- on the steps of the walk
  induction n generalizing p with
  | zero =>
    cases p with
    | none => exact order_pure none
    | some p => exact order_undefined
  | succ n ih =>
    cases p with
    | none => exact order_pure none
    | some p =>
      refine Preserves.bind (order_plain trivial) fun x => Preserves.ite (order_pure _) ?_
      exact Preserves.bind (order_plain trivial) ih

theorem order_getProgById (id : ℤ) :
    PreservesOrder held fresh (getProgById id : Main R (Option Ptr)) :=
  order_blocks.bind fun n => order_globals.bind fun _ => order_getProgByIdFrom id n _

theorem order_dbOpen (dbl : Bool) : PreservesOrder held fresh (dbOpen dbl : Main R Bool) :=
  Preserves.ite (order_pure true) (order_attempt .dbOpen)

theorem order_dbExec {Row : Type} {w : Fallible} {callback : Row → Main R Bool}
    (hcb : ∀ row, PreservesOrder held fresh (callback row)) (rows : List Row) :
    PreservesOrder held fresh (dbExec w callback rows) := by
  induction rows with
  | nil => exact order_attempt w
  | cons row rows ih =>
    refine (order_attempt w).bind fun o => Preserves.ite (order_pure false) ?_
    exact (hcb row).bind fun ok => Preserves.ite (order_pure false) ih

theorem order_regGetSecureFDB (id : ℤ) :
    PreservesOrder held fresh (regGetSecureFDB id : Main R (Option (RegSecure R))) := by
  refine order_globals.bind fun g => ?_
  refine (order_dbExec (fun _ => order_pure true) _).bind fun o => ?_
  exact Preserves.ite (order_pure none) (order_pure _)

theorem order_freeProgListFrom (n : ℕ) (p : Option Ptr) :
    PreservesOrder held fresh (freeProgListFrom n p : Main R Unit) := by
  induction n generalizing p with
  | zero =>
    cases p with
    | none => exact order_pure ()
    | some p => exact order_undefined
  | succ n ih =>
    cases p with
    | none => exact order_pure ()
    | some p =>
      refine Preserves.bind (order_plain trivial) fun next => ?_
      exact Preserves.bind (order_plain trivial) fun _ => ih next

theorem order_freeProgList : PreservesOrder held fresh (freeProgList : Main R Unit) := by
  refine order_blocks.bind fun n => order_globals.bind fun _ => ?_
  exact (order_freeProgListFrom n _).bind fun _ => order_setGlobals fun _ => rfl

theorem order_freeLists : PreservesOrder held fresh (freeLists : Main R Unit) :=
  order_setGlobals fun _ => rfl

section
variable [Sqlite R]

theorem order_saveTableField (id : ℤ) (c : Column R) (dbl : Bool) :
    PreservesOrder held fresh (saveTableField id c dbl) := by
  refine (order_dbOpen dbl).bind fun o => Preserves.ite (order_pure ()) ?_
  refine (order_attempt .save).bind fun o => Preserves.ite (order_pure ()) ?_
  exact order_setGlobals fun _ => rfl

/-- A program whose thread is not there is filled. -/
theorem order_getProgCallback {item : Ptr} (hf : fresh = some item) (row : ProgRow R) :
    PreservesOrder held fresh (getProgCallback item row) := by
  refine order_globals.bind fun g => ?_
  split
  · refine (order_regGetSecureFDB _).bind fun secure_out => ?_
    -- whatever the row holds, the regulator does not regulate yet
    have hfill (reg : RegOnfHC R) (hreg : NamesEM reg) :
        PreservesOrder held fresh (fillProg item row.id reg row.save) := by
      refine Preserves.bind (order_plain trivial) fun _ => ?_
      exact Preserves.bind (order_plain ⟨hreg, hf⟩) fun _ => order_plain trivial
    refine (hfill _ (names_regOfRow _ _ _ _ _ _)).bind fun _ => ?_
    refine Preserves.ite ?_ (order_pure true)
    exact (order_saveTableField _ _ _).bind fun _ => order_pure true
  · exact order_pure false

theorem order_getProgByIdFDB {item : Ptr} (hf : fresh = some item) (prog_id : ℤ) (dbl : Bool) :
    PreservesOrder held fresh (getProgByIdFDB prog_id item dbl : Main R Bool) := by
  refine (order_dbOpen dbl).bind fun o => Preserves.ite (order_pure false) ?_
  exact (order_selectProg prog_id).bind fun rows => order_dbExec (order_getProgCallback hf) rows

end

/-! Scripts that lock a program. -/

theorem order_relink (item : Ptr) (next : Option Ptr) :
    PreservesOrder none fresh (relink item next : Main R Unit) := by
  intro t ht
  refine order_lock ht fun u hu => ?_
  have hset : PreservesOrder (some item) fresh (access item (.setNext next) : Main R Unit) :=
    order_plain trivial
  refine (hset u hu).seq fun _ v hv => ?_
  exact order_unlock hv fun _ w hw => order_pure () w hw

/-- A script runs under the mutex of a program. -/
theorem order_locked {item : Ptr} {body : Main R Unit}
    (hb : PreservesOrder (some item) fresh body) :
    PreservesOrder none fresh (do
      if !(← access item .lockMutex) then return
      body
      let _ ← access item .unlockMutex : Main R Unit) := by
  intro t ht
  refine order_lock ht fun u hu => ?_
  refine (hb u hu).seq fun _ v hv => ?_
  exact order_unlock hv fun _ w hw => order_pure () w hw

theorem order_turnOffLocked (item : Ptr) :
    PreservesOrder none fresh (turnOffLocked item : Main R Unit) :=
  order_locked (order_plain (Or.inl rfl))

/-! Threads are created, and are asked to end before they are waited for. -/

theorem order_create (item : Ptr) :
    PreservesOrder held none (access item .create : Main R Unit) := by
  intro t ht
  refine order_access (f := Pure.pure) ht trivial fun x b hb => ?_
  simp only [blockTouch, Option.ite_none_right_eq_some] at hb
  cases hb.2
  refine order_pure () _ (ht.put (ht.named item) (fun he => ?_) (ht.held item) fun _ _ => Iff.rfl)
  cases he

/-- What a loop over the list does to the program at `p`. -/
def Worked (P : Marked R → Prop) (p : Ptr) (t u : Daemon R (Marked R)) : Prop :=
  ∃ m, u = t.put p m ∧ m.block.next = (t.cell p).block.next ∧ P m

theorem order_cancel {item : Ptr} (ht : Orderly none fresh t) :
    Safe (exec markedExec zeroMarked) orderly (access item .cancel : Main R Unit)
      (fun _ u => Orderly none fresh u ∧ Worked (fun m => m.cancelled = true) item t u) t := by
  refine order_access (f := Pure.pure) ht trivial fun x b hb => ?_
  simp only [blockTouch, Option.ite_none_right_eq_some] at hb
  cases hb.2
  have hput := ht.put_same (m := (t.cell item).after .cancel (t.cell item).block)
    (ht.named item) rfl rfl
  exact safe_pure hput.named ⟨hput, _, rfl, rfl, rfl⟩

theorem order_join {item : Ptr} (ht : Orderly none fresh t) (hc : (t.cell item).cancelled = true) :
    Safe (exec markedExec zeroMarked) orderly (access item .join : Main R Unit)
      (fun _ u => Orderly none fresh u ∧
        Worked (fun m => m.cancelled = true ∧ m.block.thread ≠ .created) item t u) t := by
  have hjoined : ThreadStatus.joined ≠ .created := by decide
  -- no mutex is held, so not that of the thread
  refine order_access (f := Pure.pure) ht ⟨hc, ht.not_held item⟩ fun x b hb => ?_
  simp only [blockTouch, Option.ite_none_right_eq_some] at hb
  cases hb.2
  let b : Block R := { (t.cell item).block with thread := .joined }
  have hput := ht.put (m := (t.cell item).after .join b) (ht.named item) (fun _ => hjoined)
    (ht.held item) fun _ _ => Iff.rfl
  exact safe_pure hput.named ⟨hput, _, rfl, rfl, hc, hjoined⟩

theorem order_stopProgThread (item : Ptr) :
    PreservesOrder none fresh (stopProgThread item : Main R Unit) := by
  intro t ht
  -- the mark of the cancellation is what the join needs
  refine (order_cancel ht).seq fun _ u hu => ?_
  obtain ⟨hu, m, rfl, -, hm⟩ := hu
  exact (order_join hu (by rwa [put_cell_self])).mono fun _ _ _ h => h.1

/-- All the programs that a walk from `o` meets within `n` steps are in `P`. -/
def Walked (P : Marked R → Prop) (t : Daemon R (Marked R)) : ℕ → Option Ptr → Prop
  | _, none => True
  | 0, some _ => True
  | n + 1, some p => P (t.cell p) ∧ Walked P t n (t.cell p).block.next

/-- The links are the same, and no program has left `P`. -/
structure Advances (P : Marked R → Prop) (t u : Daemon R (Marked R)) : Prop where
  globals : u.globals = t.globals
  brk : u.brk = t.brk
  next : ∀ q, (u.cell q).block.next = (t.cell q).block.next
  kept : ∀ q, P (t.cell q) → P (u.cell q)

omit [Zero R] in
theorem Worked.advances {P Q : Marked R → Prop} {u : Daemon R (Marked R)} (h : Worked P p t u)
    (hq : ∀ m, P m → Q m) : Advances Q t u := by
  obtain ⟨m, rfl, hnext, hm⟩ := h
  refine ⟨rfl, rfl, put_field (fun m : Marked R => m.block.next) hnext, fun q hk => ?_⟩
  rcases eq_or_ne q p with rfl | hne
  · rw [put_cell_self]
    exact hq m hm
  · rwa [put_cell_of_ne hne]

omit [Zero R] in
theorem Walked.advances {P : Marked R → Prop} {u : Daemon R (Marked R)} (h : Advances P t u)
    {n : ℕ} {o : Option Ptr} (hw : Walked P t n o) : Walked P u n o := by
  -- on the walk; the links have not changed
  induction n generalizing o with
  | zero => cases o <;> trivial
  | succ n ih =>
    cases o with
    | none => trivial
    | some p => exact ⟨h.kept p hw.1, by rw [h.next]; exact ih hw.2⟩

omit [Zero R] in
theorem Walked.any (t : Daemon R (Marked R)) (n : ℕ) (o : Option Ptr) :
    Walked (fun _ => True) t n o := by
  induction n generalizing o with
  | zero => cases o <;> trivial
  | succ n ih =>
    cases o with
    | none => trivial
    | some p => exact ⟨trivial, ih _⟩

/-- The rule for a loop over the list whose body needs `P` of its program and establishes `Q`. -/
theorem order_progListLoopFrom {P Q : Marked R → Prop} {body : Ptr → Main R Unit}
    (hb : ∀ p t, Orderly none none t → P (t.cell p) →
      Safe (exec markedExec zeroMarked) orderly (body p)
        (fun _ u => Orderly none none u ∧ Worked (fun m => P m ∧ Q m) p t u) t)
    {n : ℕ} {o : Option Ptr} (ht : Orderly none none t) (hw : Walked P t n o) :
    Safe (exec markedExec zeroMarked) orderly (progListLoopFrom body n o)
      (fun _ u => Orderly none none u ∧ Walked Q u n o ∧ Advances Q t u) t := by
  -- on the walk: the programs behind `p` are still in `P`, those before it are in `Q`
  induction n generalizing o t with
  | zero =>
    cases o with
    | none => exact safe_pure ht.named ⟨ht, trivial, rfl, rfl, fun _ => rfl, fun _ => id⟩
    | some p => exact ⟨ht.named, trivial, fun _ b => b.elim⟩
  | succ n ih =>
    cases o with
    | none => exact safe_pure ht.named ⟨ht, trivial, rfl, rfl, fun _ => rfl, fun _ => id⟩
    | some p =>
      refine (hb p t ht hw.1).seq fun _ u hu => ?_
      obtain ⟨hu, hwork⟩ := hu
      have hadv : Advances Q t u := hwork.advances fun _ hm => hm.2
      -- the link is read behind the body
      refine order_access hu trivial fun x b hx => ?_
      cases hx
      have hself : u.put p ((u.cell p).after .next (u.cell p).block) = u := put_self
      rw [hself, hadv.next]
      refine (ih hu (hw.2.advances (hwork.advances fun _ hm => hm.1))).mono fun _ v _ hv => ?_
      obtain ⟨hv, hwalk, hrest⟩ := hv
      obtain ⟨m, rfl, -, hm⟩ := hwork
      refine ⟨hv, ⟨hrest.kept p (by rw [put_cell_self]; exact hm.2), ?_⟩, ?_⟩
      · rw [hrest.next, hadv.next]
        exact hwalk
      · exact ⟨hrest.globals.trans hadv.globals, hrest.brk.trans hadv.brk,
          fun q => (hrest.next q).trans (hadv.next q), fun q hq => hrest.kept q (hadv.kept q hq)⟩

/-- The walk of the next loop over the list. -/
abbrev Listing (P : Marked R → Prop) (t : Daemon R (Marked R)) : Prop :=
  Walked P t t.brk t.globals.prog_list.top

theorem order_progListLoop {P Q : Marked R → Prop} {body : Ptr → Main R Unit}
    (hb : ∀ p t, Orderly none none t → P (t.cell p) →
      Safe (exec markedExec zeroMarked) orderly (body p)
        (fun _ u => Orderly none none u ∧ Worked (fun m => P m ∧ Q m) p t u) t)
    (ht : Orderly none none t) (hw : Listing P t) :
    Safe (exec markedExec zeroMarked) orderly (progListLoop body)
      (fun _ u => Orderly none none u ∧ Listing Q u) t := by
  refine safe_lift ht.named trivial fun _ n u _ he => ?_
  cases he
  refine safe_lift ht.named trivial fun _ g u _ he => ?_
  cases he
  refine (order_progListLoopFrom hb ht hw).mono fun _ u _ hu => ?_
  obtain ⟨hu, hwalk, hadv⟩ := hu
  rw [← hadv.brk, ← hadv.globals] at hwalk
  exact ⟨hu, hwalk⟩

/-- The threads have been waited for when `freeData` works on the regulators. -/
theorem order_freeData : PreservesOrder none none (freeData : Main R Unit) := by
  intro t ht
  -- the first loop asks the threads to end, the second one waits for them
  have hcancel : Safe (exec markedExec zeroMarked) orderly
      (progListLoop fun item => access item .cancel : Main R Unit)
      (fun _ u => Orderly none none u ∧ Listing (fun m => m.cancelled = true) u) t := by
    refine order_progListLoop (fun p t ht _ => (order_cancel ht).mono fun _ u _ hu => ?_) ht
      (Walked.any t _ _)
    exact ⟨hu.1, hu.2.imp fun m hm => ⟨hm.1, hm.2.1, trivial, hm.2.2⟩⟩
  have hstop : Safe (exec markedExec zeroMarked) orderly (stopAllProgThreads : Main R Unit)
      (fun _ u => Orderly none none u ∧ Listing (fun m => m.block.thread ≠ .created) u) t :=
    hcancel.seq fun _ u hu =>
      order_progListLoop (fun p t ht hp => order_join ht hp) hu.1 hu.2
  refine hstop.seq fun _ u hu => ?_
  -- no thread is left to disturb the third one, which takes no mutex
  have hsecure : Safe (exec markedExec zeroMarked) orderly (secure : Main R Unit)
      (fun _ u => Orderly none none u ∧ Listing (fun _ => True) u) u := by
    refine order_progListLoop (fun p t ht hp => ?_) hu.1 hu.2
    refine order_access (f := Pure.pure) ht (Or.inr hp) fun x b hb => ?_
    obtain ⟨hnext, hthread, hheld⟩ : b.next = (t.cell p).block.next ∧
        b.thread = (t.cell p).block.thread ∧ b.held = (t.cell p).block.held := by
      cases hb
      exact ⟨rfl, rfl, rfl⟩
    have hput := ht.put_same (m := (t.cell p).after (.op .turnOff) b) (ht.named p) hthread hheld
    exact safe_pure hput.named ⟨hput, _, rfl, hnext, hthread ▸ hp, trivial⟩
  refine hsecure.seq fun _ v hv => ?_
  exact (order_freeProgList.bind fun _ => order_freeLists) v hv.1

end Regonf
