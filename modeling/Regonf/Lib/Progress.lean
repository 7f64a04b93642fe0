import Mathlib.Order.Filter.AtTopBot.Basic
import Regonf.Lib.Script

/-! What a script keeps from its start to its end, and the runs in which it comes to its end. -/
namespace Regonf.Script

open Filter

universe u

variable {A : Type → Type u} {α β : Type} {O S C E : Type*}

section keeps
variable {exec : Exec A O S} {K : Contract A O S} {I : S → Prop}

/-- The script meets the contract from every state in `I` and ends in `I`. -/
def Preserves (exec : Exec A O S) (K : Contract A O S) (I : S → Prop) (c : Script A α) : Prop :=
  ∀ s, I s → Safe exec K c (fun _ => I) s

theorem Preserves.pure (ha : ∀ s, I s → K.always s) (x : α) :
    Preserves exec K I (Pure.pure x : Script A α) := fun s hs => safe_pure (ha s hs) hs

theorem Preserves.bind {c : Script A α} {f : α → Script A β} (h : Preserves exec K I c)
    (hf : ∀ x, Preserves exec K I (f x)) : Preserves exec K I (c >>= f) :=
  fun s hs => (h s hs).seq fun x t ht => hf x t ht

theorem Preserves.ite {c d : Script A α} {b : Prop} [Decidable b] (h : Preserves exec K I c)
    (h' : Preserves exec K I d) : Preserves exec K I (if b then c else d) := by
  split_ifs
  · exact h
  · exact h'

theorem Preserves.forM {γ : Type} (ha : ∀ s, I s → K.always s) {xs : List γ}
    {body : γ → Script A PUnit} (hb : ∀ x ∈ xs, Preserves exec K I (body x)) :
    Preserves exec K I (xs.forM body) :=
  fun _ hs => safe_forM hs ha fun x hx t ht => hb x hx t ht

end keeps

/-! Endless runs. -/

section fair
variable (step : Config A S → Label C O E → Option (Config A S))
  (P : Config A S → Label C O E → Prop)

/-- An endless run from `c` whose steps all meet `P`. -/
structure Endless (c : Config A S) (r : ℕ → Config A S) (l : ℕ → Label C O E) : Prop where
  start : r 0 = c
  meets : ∀ n, P (r n) (l n)
  next : ∀ n, step (r n) (l n) = some (r (n + 1))

/-- The next action of the script can be taken. -/
def Ready (c : Config A S) : Prop := ∃ o d, P c (.main o) ∧ step c (.main o) = some d

/-- A script is under way and has to wait. -/
def Waits (c : Config A S) : Prop := c.idle = false ∧ ¬Ready step P c

/-- An action that is ready again and again is taken again and again, and a script that waits from
some point on is helped again and again. -/
structure Fair (helps : Config A S → E → Prop) (r : ℕ → Config A S) (l : ℕ → Label C O E) :
    Prop where
  main : (∃ᶠ n in atTop, Ready step P (r n)) → ∃ᶠ n in atTop, ∃ o, l n = .main o
  env : (∀ᶠ n in atTop, Waits step P (r n)) →
    ∃ᶠ n in atTop, ∃ e, l n = .env e ∧ helps (r n) e

/-- In `I` a step that helps the waiting script lowers the rank, and no other step raises it. -/
structure Ranked (helps : Config A S → E → Prop) (I : Config A S → Prop) (rank : Config A S → ℕ) :
    Prop where
  inv : ∀ c l d, I c → P c l → step c l = some d → I d
  turn : ∀ c x, ¬P c (.turn x)
  lower : ∀ c e d, I c → Waits step P c → P c (.env e) → step c (.env e) = some d →
    helps c e → rank d < rank c
  keep : ∀ c e d, I c → Waits step P c → P c (.env e) → step c (.env e) = some d →
    ¬helps c e → rank d ≤ rank c

end fair

variable {exec : Exec A O S} {env : S → E → Option S} {turn : C → Script A Unit}
  {P : Config A S → Label C O E → Prop} {c d : Config A S}

/-- The environment leaves the script alone. -/
theorem step_env (c : Config A S) (e : E) :
    step (C := C) exec env turn c (.env e) = (env c.state e).map fun t => ⟨c.code, t⟩ := by
  obtain ⟨code, s⟩ := c
  cases code <;> rfl

theorem step_env_code {e : E} (h : step (C := C) exec env turn c (.env e) = some d) :
    d.code = c.code := by
  rw [step_env] at h
  obtain ⟨t, -, rfl⟩ := Option.map_eq_some_iff.mp h
  rfl

/-- An action leaves what is behind it. -/
theorem step_main_code {β : Type} {a : A β} {k : β → Script A Unit} {o : O}
    (hc : c.code = .act a k) (h : step exec env turn c (.main o) = some d) :
    ∃ b, d.code = k b := by
  obtain ⟨code, s⟩ := c
  cases hc
  obtain ⟨q, -, rfl⟩ := Option.map_eq_some_iff.mp h
  exact ⟨q.1, rfl⟩

/-- Where every configuration in `I` has a step into `I`, a run need not end. -/
theorem exists_endless {step : Config A S → Label C O E → Option (Config A S)}
    {I : Config A S → Prop} (hI : ∀ c, I c → ∃ l d, P c l ∧ step c l = some d ∧ I d) (hc : I c) :
    ∃ r l, Endless step P c r l ∧ ∀ n, I (r n) := by
  choose label next hmeets hnext hstays using hI
  -- the choices of a step at each configuration make the run
  let run (n : ℕ) : { d // I d } := n.rec ⟨c, hc⟩ fun _ d => ⟨next d.1 d.2, hstays d.1 d.2⟩
  refine ⟨fun n => (run n).1, fun n => label (run n).1 (run n).2, ?_, fun n => (run n).2⟩
  exact ⟨rfl, fun n => hmeets _ _, fun n => hnext _ _⟩

/-- A run may be put before an endless one. -/
theorem Endless.append {step : Config A S → Label C O E → Option (Config A S)}
    {check : Config A S → Label C O E → Bool} (hP : ∀ c l, check c l = true → P c l)
    {ls : List (Label C O E)} (h : run step check c ls = some d) {r : ℕ → Config A S}
    {l : ℕ → Label C O E} (hd : Endless step P d r l) :
    ∃ r' l', Endless step P c r' l' ∧ ∀ n, r' (n + ls.length) = r n := by
  -- one label is put before the run at a time
  induction ls generalizing c with
  | nil =>
    cases h
    exact ⟨r, l, hd, fun _ => rfl⟩
  | cons x xs ih =>
    rw [run] at h
    split_ifs at h with hx
    obtain ⟨e, he, h⟩ := Option.bind_eq_some_iff.mp h
    obtain ⟨r', l', hrun, htail⟩ := ih h
    refine ⟨fun n => n.casesOn c r', fun n => n.casesOn x l', ⟨rfl, fun n => ?_, fun n => ?_⟩,
      htail⟩
    · cases n with
      | zero => exact hP c x hx
      | succ n => exact hrun.meets n
    · cases n with
      | zero => exact he.trans (congrArg some hrun.start.symm)
      | succ n => exact hrun.next n

/-- A run at whose end no script is under way is fair. -/
theorem fair_of_idle {exec : Exec A O S} {env : S → E → Option S} {turn : C → Script A Unit}
    {helps : Config A S → E → Prop} {r : ℕ → Config A S} {l : ℕ → Label C O E}
    (h : ∀ᶠ n in atTop, (r n).idle = true) : Fair (step exec env turn) P helps r l where
  main := by
    intro hready
    -- an idle script takes no action
    obtain ⟨n, ⟨o, d, -, hs⟩, hn⟩ := (hready.and_eventually h).exists
    generalize r n = c at hs hn
    obtain ⟨code, s⟩ := c
    cases Config.idle_iff.mp hn
    cases hs
  env := by
    intro hwait
    obtain ⟨n, hw, hn⟩ := (hwait.and h).exists
    rw [hw.1] at hn
    cases hn

section rule
variable {helps : Config A S → E → Prop} {I : Config A S → Prop} {rank : Config A S → ℕ}
  {r : ℕ → Config A S} {l : ℕ → Label C O E}

/-- A script that is under way all the time does not wait for ever: the rank would sink again and
again. -/
theorem Endless.acts (hrun : Endless (step exec env turn) P c r l)
    (hfair : Fair (step exec env turn) P helps r l)
    (hrank : Ranked (step exec env turn) P helps I rank) (hc : I c)
    (hbusy : ∀ n, (r n).idle = false) : ∃ᶠ n in atTop, ∃ o, l n = .main o := by
  by_contra hnot
  have hinv (n : ℕ) : I (r n) := by
    induction n with
    | zero => rwa [hrun.start]
    | succ n ih => exact hrank.inv _ _ _ ih (hrun.meets n) (hrun.next n)
  -- a script that acts no more is not ready for good, so it waits from some point on
  have hwait : ∀ᶠ n in atTop, Waits (step exec env turn) P (r n) :=
    (not_frequently.mp (mt hfair.main hnot)).mono fun n hn => ⟨hbusy n, hn⟩
  obtain ⟨N, hN⟩ := eventually_atTop.mp (hwait.and (not_frequently.mp hnot))
  have hhelp := frequently_atTop.mp (hfair.env hwait)
  have hlower (n : ℕ) (hn : N ≤ n) (e : E) (hl : l n = .env e) (hh : helps (r n) e) :
      rank (r (n + 1)) < rank (r n) :=
    hrank.lower _ e _ (hinv n) (hN n hn).1 (hl ▸ hrun.meets n) (hl ▸ hrun.next n) hh
  -- a step that does not help leaves the rank
  have hkeep (n : ℕ) (hn : N ≤ n) : rank (r (n + 1)) ≤ rank (r n) := by
    cases hl : l n with
    | turn x => exact absurd (hl ▸ hrun.meets n) (hrank.turn _ x)
    | main o => exact absurd ⟨o, hl⟩ (hN n hn).2
    | env e =>
      by_cases hh : helps (r n) e
      · exact (hlower n hn e hl hh).le
      · exact hrank.keep _ e _ (hinv n) (hN n hn).1 (hl ▸ hrun.meets n) (hl ▸ hrun.next n) hh
  have hsink (m n : ℕ) (hn : N ≤ n) (hm : n ≤ m) : rank (r m) ≤ rank (r n) := by
    induction m, hm using Nat.le_induction with
    | base => exact le_rfl
    | succ m hm ih => exact (hkeep m (hn.trans hm)).trans ih
  -- on the rank: help comes behind every point, and lowers it
  have hnever (k n : ℕ) (hn : N ≤ n) : rank (r n) ≠ k := by
    induction k using Nat.strongRecOn generalizing n with
    | _ k ih =>
      rintro rfl
      obtain ⟨m, hm, e, hl, hh⟩ := hhelp n
      have hlt := (hlower m (hn.trans hm) e hl hh).trans_le (hsink m n hn hm)
      exact ih _ hlt (m + 1) (by omega) rfl
  exact hnever _ N le_rfl rfl

/-- The rule for the end of a script: no fair run goes on without coming to it. -/
theorem Endless.idle (hrun : Endless (step exec env turn) P c r l)
    (hfair : Fair (step exec env turn) P helps r l)
    (hrank : Ranked (step exec env turn) P helps I rank) (hc : I c) :
    ∃ n, (r n).idle = true := by
  by_contra hne
  have hbusy (n : ℕ) : (r n).idle = false := by
    rw [← Bool.not_eq_true]
    exact fun hn => hne ⟨n, hn⟩
  have hacts := frequently_atTop.mp (hrun.acts hfair hrank hc hbusy)
  -- on the script that is left, and before an action on the steps that are left until it is taken
  have hcode (code : Script A Unit) (n : ℕ) : (r n).code ≠ code := by
    induction code generalizing n with
    | pure x =>
      intro hn
      have hidle : (r n).idle = true := Config.idle_iff.mpr hn
      rw [hbusy] at hidle
      cases hidle
    | act a k ih =>
      -- an action that is taken leaves a part of the script
      have htaken (n : ℕ) (o : O) (hl : l n = .main o) : (r n).code ≠ .act a k := by
        intro hn
        obtain ⟨b, hb⟩ := step_main_code hn (hl ▸ hrun.next n)
        exact ih b (n + 1) hb
      obtain ⟨m, hm, o, hl⟩ := hacts n
      induction hm using Nat.decreasingInduction with
      | self => exact htaken m o hl
      | of_succ n hm ihn =>
        cases hl' : l n with
        | turn x => exact absurd (hl' ▸ hrun.meets n) (hrank.turn _ x)
        | main o => exact htaken n o hl'
        | env e => exact fun hn => ihn ((step_env_code (hl' ▸ hrun.next n)).trans hn)
  exact hcode _ 0 rfl

end rule

end Regonf.Script
