import Regonf.DaemonAdd

/-! `deleteProgById`: a program is taken out of the list, its thread is stopped, and it is
freed. -/
namespace Regonf

open Script LinkedList

variable {R : Type} [Zero R] {clean stored : Prop} {v : View R} {ps qs : List Ptr}

/-- The state in which a program has been taken out of the list, its thread still running. -/
structure Unlinked (clean stored : Prop) (v : View R) (ps : List Ptr) (p : Ptr) (w : View R) :
    Prop where
  owned : Owned clean stored w ps
  not_mem : p ∉ ps
  ids : ∀ q ∈ ps, (w.cell q).id ≠ (v.cell p).id
  cell : w.cell p = v.cell p
  kept : ∀ q, (w.cell q).kept = (v.cell q).kept
  globals : w.globals = { v.globals with prog_list := w.globals.prog_list }
  brk : w.brk = v.brk

/-- What `deleteProgById` does to the link in front of the program and to the list. -/
theorem unlinked {p : Ptr} (h : Owned clean stored v (ps ++ p :: qs)) {w : View R}
    {l : ProgList} (hr : Relinked v w l) (hl : l.last = (ps ++ qs).getLast?)
    (hlen : l.length = (ps ++ qs).length) (hd : FreedDead clean w)
    (hlist : IsList (fun q => (w.cell q).next) l.top (ps ++ qs))
    (hcell : w.cell p = v.cell p) : Unlinked clean stored v (ps ++ qs) p w := by
  have hsub : (ps ++ qs) ⊆ ps ++ p :: qs := by simp
  have hcons : (p :: (ps ++ qs)).Perm (ps ++ p :: qs) := List.perm_middle.symm
  -- with `p` in front the ids are still distinct
  have hids : ((p :: (ps ++ qs)).map fun q => (v.cell q).id).Nodup :=
    (hcons.map _).nodup_iff.mpr h.ids
  obtain ⟨hnot, hids⟩ := List.nodup_cons.mp hids
  have hne : ∀ q ∈ ps ++ qs, (v.cell q).id ≠ (v.cell p).id := fun q hq he =>
    hnot (List.mem_map.mpr ⟨q, hq, he⟩)
  have hlisted : Listed clean stored w (ps ++ qs) :=
    hr.listed h.toListed hd hlist hl hlen hids fun q hq => h.below q (hsub hq)
  refine ⟨{ hlisted with live := ?_, rows := ?_ }, fun hp => hne p hp rfl, fun q hq => ?_,
    hcell, hr.field Block.kept fun _ _ => rfl, by rw [hr.globals], hr.brk⟩
  · exact fun hc q hq => hr.live h hc q (hsub hq)
  · exact fun hs q hq => hr.rows h hs q (hsub hq)
  · rw [hr.field Block.id (fun _ _ => rfl) q]
    exact hne q hq

/-- The new `last`. -/
theorem last_unlinked {p : Ptr} (hn : (ps ++ p :: qs).Nodup) :
    (if (ps ++ p :: qs).getLast? = some p then ps.getLast? else (ps ++ p :: qs).getLast?) =
      (ps ++ qs).getLast? := by
  rcases List.eq_nil_or_concat' qs with rfl | ⟨cs, a, rfl⟩
  · simp
  · have hpa : a ≠ p := by
      rintro rfl
      have hin := (List.nodup_cons.mp hn.of_append_right).1
      exact hin (by simp)
    rw [← List.cons_append, ← List.append_assoc, ← List.append_assoc, List.getLast?_concat,
      List.getLast?_concat, if_neg (by simpa using hpa)]

theorem safe_unlinkProg {p : Ptr} (h : Owned clean stored v (ps ++ p :: qs)) :
    Safely clean stored (unlinkProg ps.getLast? p)
      (fun _ w => Unlinked clean stored v (ps ++ qs) p w) v := by
  have hp : p ∈ ps ++ p :: qs := by simp
  have hlen : v.globals.prog_list.length - 1 = (ps ++ qs).length := by
    rw [h.length]
    simp
  have hlast := last_unlinked h.list.nodup
  rw [← h.last] at hlast
  refine safe_readNext h.dead (fun hc => (h.live hc p hp).1) fun _ => ?_
  rcases List.eq_nil_or_concat' ps with rfl | ⟨bs, a, rfl⟩
  · -- the program is the first of the list
    refine safe_setGlobals h.dead (safe_setGlobals_last h.dead ?_)
    exact unlinked h ⟨rfl, rfl, fun q => ⟨(v.cell q).next, rfl⟩⟩ hlast hlen h.dead
      h.list.2 rfl
  · have ha : a ∈ bs ++ [a] ++ p :: qs := by simp
    have hpa : p ≠ a := by
      rintro rfl
      have hdis := List.disjoint_of_nodup_append h.list.nodup
      exact hdis (a := p) (by simp) (by simp)
    rw [List.getLast?_concat] at hlast ⊢
    refine (safe_relink h.dead (fun hc => (h.live hc a ha).1) (h.free a)).seq fun _ w hw => ?_
    obtain ⟨hm, rfl⟩ := hw
    have hd : FreedDead clean (v.put a { v.cell a with next := (v.cell p).next }) :=
      h.dead.put (Or.inl hm)
    apply safe_setGlobals_last hd
    refine unlinked h ⟨rfl, rfl, fun q => ?_⟩ hlast hlen hd (put_unlink h.list rfl)
      (put_cell_of_ne hpa)
    rcases eq_or_ne q a with rfl | hne
    · exact ⟨(v.cell p).next, put_cell_self⟩
    · exact ⟨(v.cell q).next, put_cell_of_ne hne⟩

/-- The state in which the program that was taken out of the list has been stopped. -/
structure Released (clean stored : Prop) (v : View R) (ps : List Ptr) (p : Ptr) (w : View R) :
    Prop where
  owned : Owned clean stored w ps
  not_mem : p ∉ ps
  ids : ∀ q ∈ ps, (w.cell q).id ≠ (w.cell p).id
  below : p < w.brk
  mem : (w.cell p).mem = .allocated
  dead : Dead (w.cell p)
  row : stored → ∃ row ∈ w.globals.db.prog.rows, row.id = (w.cell p).id
  kept : ∀ q, (w.cell q).kept = (v.cell q).kept
  settled : w.globals.settled = v.globals.settled

/-- The thread of the program has been joined; it was off before. -/
theorem Unlinked.released {p : Ptr} {w : View R} (h : Owned clean stored v (ps ++ p :: qs))
    (hq : (v.cell p).quiet) (hu : Unlinked clean stored v (ps ++ qs) p w)
    (hm : (w.cell p).mem = .allocated) :
    Released clean stored v (ps ++ qs) p (w.put p (w.cell p).joined) := by
  have hp : p ∈ ps ++ p :: qs := by simp
  have hbrk : p < w.brk := by
    rw [hu.brk]
    exact h.below p hp
  have hquiet : (w.cell p).quiet := by
    rw [hu.cell]
    exact hq
  have hrow (hs : stored) : ∃ row ∈ w.globals.db.prog.rows, row.id = (w.cell p).id := by
    obtain ⟨row, hrow, hid, -⟩ := h.rows hs p hp
    rw [hu.globals, hu.cell]
    exact ⟨row, hrow, hid⟩
  have hcell : (w.put p (w.cell p).joined).cell p = (w.cell p).joined := put_cell_self
  refine ⟨?_, hu.not_mem, fun q hqs => ?_, hbrk, ?_, ?_, ?_, fun q => ?_, ?_⟩
  · exact hu.owned.put_other hu.not_mem hbrk (hu.owned.free p) (Or.inl hm)
      (hu.owned.loadable p) fun hs _ => hrow hs
  · have hne : q ≠ p := fun he => hu.not_mem (he ▸ hqs)
    rw [put_cell_of_ne hne, hcell]
    change _ ≠ (w.cell p).id
    rw [hu.cell]
    exact hu.ids q hqs
  · rw [hcell]
    exact hm
  · rw [hcell]
    exact ⟨by simp [Block.joined], hu.owned.free p, hquiet⟩
  · rw [hcell]
    exact hrow
  · rcases eq_or_ne q p with rfl | hne
    · rw [hcell]
      exact hu.kept q
    · rw [put_cell_of_ne hne]
      exact hu.kept q
  · rw [put_globals, hu.globals]
    rfl

/-- The programs of the ids have been deleted. -/
def DeletedFrom (clean stored : Prop) (v : View R) (ps : List Ptr) (ids : List ℤ)
    (w : View R) : Prop :=
  ∃ qs, Owned clean stored w qs ∧ Shrinks v ps w qs ∧ ∀ q ∈ qs, (w.cell q).id ∉ ids

theorem safe_freeReleased {p : Ptr} {w : View R} (h : Released clean stored v ps p w) :
    Safely clean stored (do freeProg p; return true) (fun _ u => Owned clean stored u ps ∧
      Shrinks v ps u ps ∧ ∀ q ∈ ps, (u.cell q).id ≠ (v.cell p).id) w := by
  have hdead : Dead ((w.cell p).freedIn w.globals.app_state) := h.dead
  refine safe_access h.owned.dead (fun _ => h.mem) fun _ b _ hb => ?_
  cases hb
  change Safely clean stored _ _ (w.put p ((w.cell p).freedIn w.globals.app_state))
  have hown : Owned clean stored (w.put p ((w.cell p).freedIn w.globals.app_state)) ps :=
    h.owned.put_other h.not_mem h.below h.dead.2.1 (Or.inr hdead) (h.owned.loadable p)
      fun hs _ => h.row hs
  have hother (q : Ptr) (hq : q ∈ ps) :
      (w.put p ((w.cell p).freedIn w.globals.app_state)).cell q = w.cell q :=
    put_cell_of_ne fun he => h.not_mem (he ▸ hq)
  refine safe_pure hown.dead ⟨hown, ⟨h.settled, fun _ hq => hq, fun q hq => ?_⟩, fun q hq => ?_⟩
  · rw [hother q hq]
    exact h.kept q
  · have hid : (w.cell p).id = (v.cell p).id := congrArg (fun x => x.1) (h.kept p)
    rw [hother q hq, ← hid]
    exact h.ids q hq

variable [Sqlite R]

/-- The `load` of its row is set to 0; no program in the list has this row. -/
theorem Released.saved {p : Ptr} {w : View R} (h : Released clean stored v ps p w) :
    Released clean stored v ps p
      { w with globals := w.globals.saved (w.cell p).id (.load 0) } :=
  { h with
    owned := h.owned.saved_load (Or.inr h.ids)
    row := fun hs => saved_load_id.mpr (h.row hs)
    settled := (settled_saved_load w.globals _ 0).trans h.settled }

/-- A program that has been taken out of the list and is off is stopped and freed. -/
theorem safe_releaseProg {p : Ptr} {w : View R} (h : Owned clean stored v (ps ++ p :: qs))
    (hq : (v.cell p).quiet) (hu : Unlinked clean stored v (ps ++ qs) p w) :
    Safely clean stored (do
      stopProgThread p
      saveTableField (← access p .id) (.load 0) false
      freeProg p
      return true) (fun _ u => Owned clean stored u (ps ++ qs) ∧
        Shrinks v (ps ++ qs) u (ps ++ qs) ∧
        ∀ q ∈ ps ++ qs, (u.cell q).id ≠ (v.cell p).id) w := by
  have hd := hu.owned.dead
  have hlive (hc : clean) : (w.cell p).mem = .allocated ∧ (w.cell p).thread = .created := by
    rw [hu.cell]
    exact h.live hc p (by simp)
  have hstop : Safely clean stored (stopProgThread p)
      (fun _ u => u = w.put p (w.cell p).joined ∧ (w.cell p).mem = .allocated) w := by
    apply (safe_cancel hd hlive).seq
    intro _ u hu'
    rw [hu'.1]
    exact safe_join hd hlive
  apply hstop.seq
  intro _ u hu'
  obtain ⟨rfl, hm⟩ := hu'
  have hrel := hu.released h hq hm
  apply safe_readId hrel.owned.dead (fun _ => hrel.mem)
  intro _
  apply (safe_saveTableField hrel.owned.dead).seq
  intro _ u hs
  -- the flag has been saved, or the database has failed
  rcases hs with ⟨rfl, -⟩ | rfl
  · exact safe_freeReleased hrel
  · exact safe_freeReleased hrel.saved

/-- The loop of `deleteProgById`, with the programs it has passed at `ps`. -/
theorem safe_deleteProgFrom {id : ℤ} {n : ℕ} (h : Owned clean stored v (ps ++ qs))
    (hn : qs.length ≤ n) (hps : ∀ p ∈ ps, (v.cell p).id ≠ id)
    (hq : ∀ p ∈ qs, (v.cell p).id = id → (v.cell p).quiet) :
    Safely clean stored (deleteProgFrom id n ps.getLast? qs.head?)
      (fun _ => DeletedFrom clean stored v (ps ++ qs) [id]) v := by
  -- `ps` has been passed: its last program is the `prev` of the source
  induction qs generalizing n ps with
  | nil =>
    have hnone : DeletedFrom clean stored v (ps ++ []) [id] v :=
      ⟨_, h, Shrinks.refl v _, by simpa using hps⟩
    cases n <;> exact safe_pure h.dead hnone
  | cons p qs ih =>
    have hp : p ∈ ps ++ p :: qs := by simp
    have hlive (hc : clean) : (v.cell p).mem = .allocated := (h.live hc p hp).1
    cases n with
    | zero => exact absurd hn (by simp)
    | succ n =>
      apply safe_readId h.dead hlive
      intro _
      split_ifs with hid
      · have hrelease : Safely clean stored _ _ v := (safe_unlinkProg h).seq fun _ w hw =>
          safe_releaseProg h (hq p List.mem_cons_self hid) hw
        apply hrelease.mono
        intro _ u _ hu
        obtain ⟨hown, hshrink, hne⟩ := hu
        have hsub : (ps ++ qs) ⊆ ps ++ p :: qs := by simp
        refine ⟨ps ++ qs, hown, ⟨hshrink.settled, hsub, hshrink.kept⟩, fun q hqs hmem => ?_⟩
        exact hne q hqs ((List.mem_singleton.mp hmem).trans hid.symm)
      · apply safe_readNext h.dead hlive
        intro _
        rw [(IsList.next_getLast h.list).head?_eq]
        have hap : ps ++ [p] ++ qs = ps ++ p :: qs := (List.append_cons ps p qs).symm
        have hown : Owned clean stored v (ps ++ [p] ++ qs) := by
          rw [hap]
          exact h
        have hpassed : ∀ q ∈ ps ++ [p], (v.cell q).id ≠ id :=
          List.forall_mem_append.mpr ⟨hps, List.forall_mem_singleton.mpr hid⟩
        have hrest := ih hown (Nat.le_of_succ_le_succ hn) hpassed
          fun r hr => hq r (List.mem_cons_of_mem p hr)
        rwa [List.getLast?_concat, hap] at hrest

theorem safe_deleteProgById {id : ℤ} (h : Owned clean stored v ps)
    (hq : ∀ p ∈ ps, (v.cell p).id = id → (v.cell p).quiet) :
    Safely clean stored (deleteProgById id) (fun _ => DeletedFrom clean stored v ps [id]) v := by
  refine safe_blocks h.dead (safe_globals h.dead ?_)
  rw [h.list.head?_eq]
  have hown : Owned clean stored v ([] ++ ps) := h
  exact safe_deleteProgFrom hown (length_le_brk h.list h.below) (List.forall_mem_nil _) hq

end Regonf
