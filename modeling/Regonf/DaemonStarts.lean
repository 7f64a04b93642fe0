import Regonf.DaemonSetters

/-! Where every call succeeds and there is room in `prog_list`, a program is started from its
row. -/
namespace Regonf

open Script LinkedList

variable {R : Type} [Zero R] {S : Prop} {v : View R} {ps : List Ptr} {p : Ptr} {id : ℤ}

/-- If `S` holds, every call succeeds, and a program is only allocated where there is room. -/
def Succeeding (S : Prop) : Outcomes R
  | _, .attempt _, o, _ => S → o = true
  | _, .malloc, _, v => S → v.globals.prog_list.length < INT_MAX
  | _, _, _, _ => True

/-- The row of the id can be filled into a program. -/
def Fillable (g : Globals R) (id : ℤ) : Prop :=
  ∃ row ∈ g.db.prog.rows, row.id = id ∧ Resolved g row

omit [Zero R] in
theorem Fillable.settled {g g' : Globals R} (h : Fillable g id) (hs : g'.settled = g.settled) :
    Fillable g' id := by
  obtain ⟨row, hrow, hid, hres⟩ := h
  obtain ⟨-, hc, hrows⟩ := settled_eq hs
  obtain ⟨row', hrow', he⟩ := ProgTable.exists_unloaded hrows.symm hrow
  have hid' : row'.id = row.id := by rw [he]
  exact ⟨row', hrow', hid'.trans hid, hres.congr hc (by rw [he])⟩

section rules
variable {A : Outcomes R} {α β : Type}

/-- Nothing is asked of a script. -/
theorem given_true {c : Main R α} : Given A c (fun _ _ => True) v := by
  induction c generalizing v with
  | pure x => exact ⟨trivial, trivial⟩
  | act a k ih => exact ⟨trivial, trivial, fun o b t _ _ => ih b⟩

/-- Where a call has failed, nothing is asked. -/
theorem given_absurd {c : Main R α} {Q : α → Prop} (h : ¬ S) :
    Given A c (fun o _ => S → Q o) v :=
  given_true.mono fun _ _ _ _ hs => absurd hs h

/-- The result does not depend on the script in front of it. -/
theorem given_seq {c : Main R α} {f : α → Main R β} {Q : β → View R → Prop}
    (hf : ∀ x w, Given A (f x) Q w) : Given A (c >>= f) Q v :=
  Safe.seq (P := fun _ _ => True) given_true fun x w _ => hf x w

end rules

theorem given_call {w : Fallible} {β : Type} {f : Bool → Main R β} {Q : β → Prop}
    (hk : Given (Succeeding S) (f true) (fun o _ => S → Q o) v) :
    Given (Succeeding S) (attempt w >>= f) (fun o _ => S → Q o) v := by
  refine given_attempt fun o ho => ?_
  cases o with
  | true => exact hk
  | false => exact given_absurd fun hs => Bool.false_ne_true (ho hs)

theorem given_dbOpen {dbl : Bool} {β : Type} {f : Bool → Main R β} {Q : β → Prop}
    (hk : Given (Succeeding S) (f true) (fun o _ => S → Q o) v) :
    Given (Succeeding S) (dbOpen dbl >>= f) (fun o _ => S → Q o) v := by
  unfold dbOpen
  split_ifs
  · exact hk
  · exact given_call hk

theorem given_addProg {A : Outcomes R} (h : S → v.globals.prog_list.length < INT_MAX) :
    Given A (addProg p) (fun o _ => S → o = true) v := by
  refine safe_lift trivial trivial fun _ g t _ he => ?_
  cases he
  split_ifs with hlen
  · exact given_absurd fun hs => Nat.not_le_of_lt (h hs) hlen
  · exact given_seq fun _ w => given_seq fun _ w => given_pure fun _ => rfl

variable [Sqlite R]

theorem given_getProgCallback {A : Outcomes R} {row : ProgRow R} (h : Resolved v.globals row) :
    Given A (getProgCallback p row) (fun o _ => o = true) v := by
  refine safe_lift trivial trivial fun _ g t _ he => ?_
  cases he
  split
  case h_2 hnone =>
    obtain ⟨hs, hh, hc⟩ := h
    obtain ⟨sensor, hs⟩ := Option.isSome_iff_exists.mp hs
    obtain ⟨heater, hh⟩ := Option.isSome_iff_exists.mp hh
    obtain ⟨cooler, hc⟩ := Option.isSome_iff_exists.mp hc
    exact absurd hc (hnone sensor heater cooler hs hh)
  case h_1 =>
    refine given_seq fun secure_out w => given_seq fun _ w => ?_
    split_ifs
    · exact given_seq fun _ w => given_pure rfl
    · exact given_pure rfl

theorem given_getProgByIdFDB {dbl : Bool} (h : Fillable v.globals id) :
    Given (Succeeding S) (getProgByIdFDB id p dbl) (fun o _ => S → o = true) v := by
  obtain ⟨row, hrow, hid, hres⟩ := h
  refine given_dbOpen (safe_lift trivial trivial fun _ rows t _ he => ?_)
  cases he
  -- the query finds the row, and no other
  have hmem : row ∈ v.globals.db.prog.rows.filter fun r => r.id = id := by
    simp [hrow, hid]
  have hf : (v.globals.db.prog.rows.filter fun r => r.id = id) = [row] := by
    rcases filter_id v.globals.db.prog id with hf | ⟨row', -, -, hf⟩
    · rw [hf] at hmem
      cases hmem
    · rw [hf] at hmem ⊢
      rw [List.mem_singleton.mp hmem]
  rw [hf]
  refine given_call ((given_getProgCallback hres).seq fun o w ho => ?_)
  subst ho
  exact given_call (f := Pure.pure) (given_pure fun _ => rfl)

theorem given_fillAndAdd {dbl : Bool} (h : Filling False False v ps p id v) (hp : p ∉ ps)
    (hb : p < v.brk) (hrow : Fillable v.globals id) (hlen : S → ps.length < INT_MAX) :
    Given (Succeeding S) (do
      if !(← getProgByIdFDB id p dbl) then
        freeProg p
        return false
      if !checkProg p then
        freeProg p
        return false
      if !(← addProg p) then
        freeProg p
        return false
      if !(← attempt .createMThread) then
        freeProg p
        return false
      access p .create
      return true) (fun o _ => S → o = true) v := by
  apply ((Safe.given (safe_getProgByIdFDB h hp hb)).and (given_getProgByIdFDB hrow)).seq
  intro o w hw
  obtain ⟨⟨hw, -⟩, ho⟩ := hw
  cases o with
  | false => exact given_absurd fun hs => Bool.false_ne_true (ho hs)
  -- the row has filled the program; the length of the list is still that of `ps`
  | true =>
    have hlen' (hs : S) : w.globals.prog_list.length < INT_MAX := by
      rw [hw.owned.length]
      exact hlen hs
    apply (given_addProg hlen').seq
    intro o u ho
    cases o with
    | false => exact given_absurd fun hs => Bool.false_ne_true (ho hs)
    | true => exact given_call (given_seq fun _ w => given_pure fun _ => rfl)

/-- A program of the id is in the list in the end. -/
theorem given_addProgById {dbl : Bool} (h : Owned False False v ps) (hrow : Fillable v.globals id) :
    Given (Succeeding S) (addProgById id dbl)
      (fun o _ => S → o = true ∨ ∃ q ∈ ps, (v.cell q).id = id) v := by
  apply (Safe.given (safe_getProgById h)).seq
  intro r w hw
  obtain ⟨rfl, rfl⟩ := hw
  cases hfind : findProg w ps id with
  | some q => exact given_pure fun _ => Or.inr ⟨q, findProg_mem hfind⟩
  | none =>
    have hid : ∀ q ∈ ps, (w.cell q).id ≠ id := findProg_none hfind
    -- `malloc`, and the id is written into the new block
    refine given_call (safe_lift trivial trivial fun o q t hlen he => ?_)
    cases he
    change Given _ _ _ w.grown
    have hzero : w.grown.cell w.brk = zeroBlock := put_cell_self
    refine given_access fun _ b _ hb => ?_
    rw [hzero] at hb
    cases hb
    change Given _ _ _ (w.allocated id)
    have hlen' (hs : S) : ps.length < INT_MAX := by
      rw [← h.length]
      exact hlen hs
    have hb : w.brk < (w.allocated id).brk := Nat.lt_succ_self _
    refine given_call (given_call ?_)
    apply (given_fillAndAdd (h.allocated hid) h.brk_not_mem hb hrow hlen').mono
    exact fun o _ _ ho hs => Or.inl (ho hs)

/-- One program is started. The program of the id `id` is in the list behind it if it was there
before, or is the one that is started. -/
theorem given_startProg {i : ℤ} (h : Owned False False v ps) (hrow : Fillable v.globals id) :
    Given (Succeeding S) (do let _ ← addProgById i false) (fun _ w => ∃ qs,
      Owned False False w qs ∧ Evolves v ps w qs ∧ w.globals.settled = v.globals.settled ∧
        (S → id = i ∨ (∃ q ∈ ps, (v.cell q).id = id) → ∃ q ∈ qs, (w.cell q).id = id)) v := by
  have hadd : Given (Succeeding S) (addProgById i false) (fun o w =>
      AddedTo False False v ps i o w ∧
        (S → id = i → o = true ∨ ∃ q ∈ ps, (v.cell q).id = id)) v := by
    refine (Safe.given (safe_addProgById h)).and ?_
    -- another program's start says nothing new of the id
    by_cases hi : id = i
    · subst hi
      exact (given_addProgById h hrow).mono fun o _ _ ho hs _ => ho hs
    · exact given_true.mono fun _ _ _ _ _ he => absurd he hi
  apply hadd.seq
  intro o w hw
  obtain ⟨⟨qs, hq, hadd⟩, ho⟩ := hw
  refine given_pure ⟨qs, hq, hadd.evolves, hadd.settled, fun hs hid => ?_⟩
  have hstays (hex : ∃ q ∈ ps, (v.cell q).id = id) : ∃ q ∈ qs, (w.cell q).id = id := by
    obtain ⟨q, hqp, hqid⟩ := hex
    have hkept : (w.cell q).id = (v.cell q).id := congrArg (fun x => x.1) (hadd.kept q hqp)
    refine ⟨q, ?_, hkept.trans hqid⟩
    rcases hadd.list with ⟨-, rfl⟩ | ⟨p, rfl, -⟩
    · exact hqp
    · exact List.mem_append_left [p] hqp
  rcases hid with hi | hex
  · rcases ho hs hi with rfl | hex
    · rcases hadd.list with ⟨hf, -⟩ | ⟨p, rfl, hpid, -⟩
      · cases hf
      · exact ⟨p, by simp, hpid.trans hi.symm⟩
    · exact hstays hex
  · exact hstays hex

theorem given_progStart {ids : List ℤ} (h : Owned False False v ps)
    (hrow : Fillable v.globals id) :
    Given (Succeeding S) (progStart ids) (fun _ w => ∃ qs, Owned False False w qs ∧
      Evolves v ps w qs ∧ (S → id ∈ ids ∨ (∃ q ∈ ps, (v.cell q).id = id) →
        ∃ q ∈ qs, (w.cell q).id = id)) v := by
  induction ids generalizing v ps with
  | nil => exact given_pure ⟨ps, h, Evolves.refl v ps, by simp⟩
  | cons i ids ih =>
    apply (given_startProg (i := i) h hrow).seq
    intro _ w hw
    obtain ⟨qs, hq, hev, hset, hfirst⟩ := hw
    apply (ih hq (hrow.settled hset)).mono
    intro _ u _ hu
    obtain ⟨rs, hr, hev', hrest⟩ := hu
    refine ⟨rs, hr, hev.trans hev', fun hs hid => hrest hs ?_⟩
    -- the first of the ids, one of the others, or one that was there
    rcases hid with hid | hex
    · rcases List.mem_cons.mp hid with he | hmem
      · exact Or.inr (hfirst hs (Or.inl he))
      · exact Or.inl hmem
    · exact Or.inr (hfirst hs (Or.inr hex))

end Regonf
