import Regonf.DaemonRuns

/-! Stopping leaves the mechanisms off: when a program has been freed, the last that it has
commanded is 0, and it sends nothing any more. Nothing is assumed of the calls that may fail. -/
namespace Regonf

open Script

variable {R : Type} [Zero R] [Sqlite R] [Add R] [Sub R] [LT R] [DecidableLT R] [BEq R]

omit [Sqlite R] in
theorem any_meets (c : DaemonConfig R) (l : DaemonLabel R) :
    Meets (contract False False) (fun x _ => False → Command.isProgramList x) Sees c l := by
  refine meets_of (fun _ _ _ _ hf => hf.elim) fun β a k s o _ _ v _ => ?_
  cases a with
  | attempt w => exact ⟨fun hf => hf.elim, fun hf => hf.elim⟩
  | selectProg id => exact fun hf => hf.elim
  | _ => trivial

/-- The allocator hands out memory that was never used. -/
def Untouched (s : Daemon R (Cell R)) : Prop :=
  ∀ p, s.brk ≤ p → (s.cell p).mem = .unallocated

omit [Sqlite R] [Add R] [Sub R] [LT R] [DecidableLT R] [BEq R] in
/-- An action of the main thread writes to allocated memory only. -/
theorem exec_cell {β : Type} {a : Act R β} {o : Bool} {s s' : Daemon R (Cell R)} {x : β}
    (h : exec cellExec zeroCell β a o s = some (x, s')) (hs : Untouched s) :
    Untouched s' ∧
      ∀ p, (s.cell p).mem ≠ .allocated → (s.cell p).mem ≠ .unallocated →
        s'.cell p = s.cell p := by
  cases a with
  | globals => cases h; exact ⟨hs, fun _ _ _ => rfl⟩
  | setGlobals f => cases h; exact ⟨hs, fun _ _ _ => rfl⟩
  | attempt w => cases h; exact ⟨hs, fun _ _ _ => rfl⟩
  | selectProg id => cases h; exact ⟨hs, fun _ _ _ => rfl⟩
  | blocks => cases h; exact ⟨hs, fun _ _ _ => rfl⟩
  | undefined => cases h
  | malloc =>
    cases h
    refine ⟨fun p hp => ?_, fun p _ hp => ?_⟩
    · have hne : p ≠ s.brk := Nat.ne_of_gt hp
      dsimp only
      rw [Function.update_of_ne hne]
      exact hs p (Nat.le_of_succ_le hp)
    · refine Function.update_of_ne ?_ _ _
      rintro rfl
      exact hp (hs s.brk (Nat.le_refl _))
  | cell q a =>
    obtain ⟨r, hr, he⟩ := Option.map_eq_some_iff.mp h
    cases he
    -- an access is defined on allocated memory only
    have hq : (s.cell q).mem = .allocated := by
      by_contra hne
      rw [cellExec, if_neg hne] at hr
      cases hr
    refine ⟨fun p hp => ?_, fun p hp _ => ?_⟩
    · have hne : p ≠ q := by
        rintro rfl
        rw [hs p hp] at hq
        cases hq
      dsimp only
      rw [Function.update_of_ne hne]
      exact hs p hp
    · refine Function.update_of_ne ?_ _ _
      rintro rfl
      exact hp hq

omit [Sqlite R] in
/-- A control thread that is there leaves the state of its memory, and the other programs. -/
theorem threadStep_cell {s s' : Daemon R (Cell R)} {e : Ptr × Tick R}
    (h : threadStep s e = some s') (hs : Untouched s) :
    Untouched s' ∧ ∀ p, (s.cell p).prog.thread = .absent ∨ (s.cell p).prog.thread = .joined →
      s'.cell p = s.cell p := by
  unfold threadStep at h
  split_ifs at h
  obtain ⟨c, hc, rfl⟩ := Option.map_eq_some_iff.mp h
  refine ⟨fun p hp => ?_, fun p hp => ?_⟩
  · dsimp only
    rcases eq_or_ne p e.1 with rfl | hne
    · rw [Function.update_self]
      obtain ⟨reg, th, mu, out, rfl, -⟩ := cellStep_cases hc
      exact hs e.1 hp
    · rw [Function.update_of_ne hne]
      exact hs p hp
  -- the thread that steps is neither absent nor joined
  · refine Function.update_of_ne ?_ _ _
    rintro rfl
    obtain ⟨reg, th, mu, out, -, hcreated, -⟩ := cellStep_cases hc
    rcases hp with ht | ht
    · rw [ht] at hcreated
      cases hcreated
    · rw [ht] at hcreated
      cases hcreated

theorem daemonStep_untouched {c d : DaemonConfig R} {l : DaemonLabel R}
    (h : daemonStep c l = some d) (hc : Untouched c.state) : Untouched d.state := by
  obtain ⟨code, s⟩ := c
  cases l with
  | turn x =>
    cases code with
    | pure u => cases h; exact hc
    | act a k => cases h
  | main o =>
    cases code with
    | pure u => cases h
    | act a k =>
      obtain ⟨r, hr, rfl⟩ := Option.map_eq_some_iff.mp h
      exact (exec_cell hr hc).1
  | env e =>
    cases code <;>
    · obtain ⟨t, ht, rfl⟩ := Option.map_eq_some_iff.mp h
      exact (threadStep_cell ht hc).1

theorem reach_untouched {db : Db R} {c : DaemonConfig R}
    (h : Reach daemonStep (fun _ _ => True) (startUp db) c) : Untouched c.state := by
  induction h with
  | refl => exact fun _ _ => rfl
  | tail _ hstep ih =>
    obtain ⟨l, -, hl⟩ := hstep
    exact daemonStep_untouched hl ih

/-- A program freed elsewhere than in the error path of `initData` is dead. -/
theorem reach_dead {db : Db R} {c : DaemonConfig R}
    (h : Reach daemonStep (fun _ _ => True) (startUp db) c) {p : Ptr} {a : AppState}
    (hp : (c.state.cell p).mem = .freed a) (ha : a ≠ .appInitData) :
    ((c.state.cell p).prog.thread = .absent ∨ (c.state.cell p).prog.thread = .joined) ∧
      ∀ n, commanded n (c.state.cell p).sent = 0 := by
  obtain ⟨v, hv, hs⟩ := reach_view (fun c l _ => any_meets c l) h
  have hmem : (v.cell p).mem = .freed a := (hv.2.2 p).mem.symm.trans hp
  have hdead : Dead (v.cell p) := hs.always p a hmem (Or.inr ha)
  exact ⟨((hv.2.2 p).dead hdead).1, ((hv.2.2 p).quiet hdead.2.2).1⟩

/-- Nothing happens to it any more. -/
theorem freed_stays {db : Db R} {c d : DaemonConfig R}
    (h : Reach daemonStep (fun _ _ => True) (startUp db) c) {p : Ptr} {a : AppState}
    (hp : (c.state.cell p).mem = .freed a) (ha : a ≠ .appInitData)
    (hd : Reach daemonStep (fun _ _ => True) c d) : d.state.cell p = c.state.cell p := by
  induction hd with
  | refl => rfl
  | @tail d e hcd hstep ih =>
    have hreach : Reach daemonStep (fun _ _ => True) (startUp db) d := h.trans hcd
    have hpd : (d.state.cell p).mem = .freed a := by
      rw [ih]
      exact hp
    have hthread := (reach_dead hreach hpd ha).1
    have huntouched := reach_untouched hreach
    obtain ⟨l, -, hl⟩ := hstep
    rw [← ih]
    -- the main thread cannot touch it, and its control thread is not there
    obtain ⟨code, s⟩ := d
    cases l with
    | turn x =>
      cases code with
      | pure u => cases hl; rfl
      | act a k => cases hl
    | main o =>
      cases code with
      | pure u => cases hl
      | act b k =>
        obtain ⟨r, hr, rfl⟩ := Option.map_eq_some_iff.mp hl
        have hpd : (s.cell p).mem = .freed a := hpd
        exact (exec_cell hr huntouched).2 p (by simp [hpd]) (by simp [hpd])
    | env e =>
      cases code <;>
      · obtain ⟨t, ht, rfl⟩ := Option.map_eq_some_iff.mp hl
        exact (threadStep_cell ht huntouched).2 p hthread

/-- Once a program has been freed, by a request for it or by `freeData`, the last that it has
commanded to each of its mechanisms is 0, and it sends nothing any more. -/
theorem stopped_program_off {db : Db R} {c : DaemonConfig R}
    (h : Reach daemonStep (fun _ _ => True) (startUp db) c) {p : Ptr} {a : AppState}
    (hp : (c.state.cell p).mem = .freed a) (ha : a ≠ .appInitData) :
    (∀ n, commanded n (c.state.cell p).sent = 0) ∧
      ∀ d, Reach daemonStep (fun _ _ => True) c d →
        (d.state.cell p).sent = (c.state.cell p).sent := by
  refine ⟨(reach_dead h hp ha).2, fun d hd => ?_⟩
  rw [freed_stays h hp ha hd]

/-- A program that is stopped while its heater is powered by hand. -/
theorem stopped_program_off_example :
    let dst : SockAddr := ⟨0x7f000001, 49178⟩
    ∃ c, Reach daemonStep (fun _ _ => True) (startUp exampleDb) c ∧
      (c.state.cell 0).mem = .freed .appRun ∧
      (c.state.cell 0).sent =
        [.setFloat .heater 500 dst, .setFloat .cooler 0 dst, .setFloat .heater 0 dst] ∧
      (∀ n, commanded n (c.state.cell 0).sent = 0) ∧
      ∀ d, Reach daemonStep (fun _ _ => True) c d →
        (d.state.cell 0).sent = (c.state.cell 0).sent := by
  intro dst
  have hrun : (run daemonStep (fun _ _ => true) (startUp exampleDb) exampleStop).map
      (fun c => ((c.state.cell 0).mem, (c.state.cell 0).sent)) =
    some (.freed .appRun,
      [.setFloat .heater 500 dst, .setFloat .cooler 0 dst, .setFloat .heater 0 dst]) := by
    decide +kernel
  obtain ⟨c, hc, he⟩ := Option.map_eq_some_iff.mp hrun
  obtain ⟨hm, hsent⟩ := Prod.mk.inj he
  have hr := Reach.mono (fun _ _ _ => trivial) (run_reach hc)
  exact ⟨c, hr, hm, hsent, stopped_program_off hr hm (by decide)⟩

end Regonf
