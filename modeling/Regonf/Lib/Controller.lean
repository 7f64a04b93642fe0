import Mathlib.Data.List.Basic
import Mathlib.Data.List.Chain
import Mathlib.Tactic.Common

/-! Finite runs of a partial controller: a step reads one input, returns the next
state and the messages it emits, or is undefined. -/
namespace Regonf.Controller

variable {State Input Msg : Type*}

/-- Feed a finite input sequence to a controller, keeping the order of the messages. -/
def run (step : State → Input → Option (State × List Msg)) :
    State → List Input → Option (State × List Msg)
  | s, [] => some (s, [])
  | s, i :: is =>
    match step s i with
    | none => none
    | some (s', out) =>
      match run step s' is with
      | none => none
      | some (t, rest) => some (t, out ++ rest)

/-- `Along step C s h is` says that every step of the run on `is` meets `C` in the state
and with the message history it is taken in; `h` is the history before the run. -/
def Along (step : State → Input → Option (State × List Msg))
    (C : State → List Msg → Input → Prop) : State → List Msg → List Input → Prop
  | _, _, [] => True
  | s, h, i :: is => C s h i ∧ ∀ s' out, step s i = some (s', out) →
      Along step C s' (h ++ out) is

variable {step : State → Input → Option (State × List Msg)}

@[simp] theorem run_nil (s : State) : run step s [] = some (s, []) := rfl

theorem run_cons_some {s t : State} {i : Input} {is : List Input} {out : List Msg} :
    run step s (i :: is) = some (t, out) ↔
      ∃ s' o rest, step s i = some (s', o) ∧ run step s' is = some (t, rest) ∧
        out = o ++ rest := by
  constructor
  · intro h
    rw [run] at h
    rcases hs : step s i with _ | ⟨s', o⟩ <;> rw [hs] at h
    · exact absurd h (by simp)
    · rcases hr : run step s' is with _ | ⟨u, rest⟩ <;> simp only [hr] at h
      · exact absurd h (by simp)
      · simp only [Option.some.injEq, Prod.mk.injEq] at h
        obtain ⟨rfl, rfl⟩ := h
        exact ⟨s', o, rest, rfl, hr, rfl⟩
  · rintro ⟨s', o, rest, hs, hr, rfl⟩
    simp only [run, hs, hr]

theorem run_append_some {s t : State} {is js : List Input} {out : List Msg} :
    run step s (is ++ js) = some (t, out) ↔
      ∃ u o o', run step s is = some (u, o) ∧ run step u js = some (t, o') ∧
        out = o ++ o' := by
  induction is generalizing s out with
  | nil => simp [eq_comm]
  | cons i is ih =>
    rw [List.cons_append, run_cons_some]
    constructor
    · rintro ⟨s', o, rest, hs, hr, rfl⟩
      obtain ⟨u, o₁, o₂, h₁, h₂, rfl⟩ := ih.mp hr
      exact ⟨u, o ++ o₁, o₂, run_cons_some.mpr ⟨s', o, o₁, hs, h₁, rfl⟩, h₂,
        (List.append_assoc _ _ _).symm⟩
    · rintro ⟨u, o, o', h₁, h₂, rfl⟩
      obtain ⟨s', a, b, hs, hr, rfl⟩ := run_cons_some.mp h₁
      exact ⟨s', a, b ++ o', hs, ih.mpr ⟨u, b, o', hr, h₂, rfl⟩, List.append_assoc _ _ _⟩

/-- A property of state and history that each step meeting `C` preserves holds after every
run whose steps all meet `C`. -/
theorem run_invariant_along {C : State → List Msg → Input → Prop}
    {I : State → List Msg → Prop}
    (hstep : ∀ s h i s' out, I s h → C s h i → step s i = some (s', out) → I s' (h ++ out))
    {s t : State} {h out : List Msg} {is : List Input} (hs : I s h)
    (hc : Along step C s h is) (hr : run step s is = some (t, out)) : I t (h ++ out) := by
  induction is generalizing s h out with
  | nil =>
    simp only [run_nil, Option.some.injEq, Prod.mk.injEq] at hr
    obtain ⟨rfl, rfl⟩ := hr
    simpa using hs
  | cons i is ih =>
    obtain ⟨s', o, rest, hi, hr', rfl⟩ := run_cons_some.mp hr
    rw [← List.append_assoc]
    exact ih (hstep s h i s' o hs hc.1 hi) (hc.2 s' o hi) hr'

theorem along_of_forall_mem {C : State → List Msg → Input → Prop} {is : List Input}
    (hc : ∀ i ∈ is, ∀ s h, C s h i) (s : State) (h : List Msg) : Along step C s h is := by
  induction is generalizing s h with
  | nil => trivial
  | cons i is ih =>
    exact ⟨hc i List.mem_cons_self s h, fun s' out _ =>
      ih (fun j hj => hc j (List.mem_cons_of_mem i hj)) s' (h ++ out)⟩

theorem along_cons {C : State → List Msg → Input → Prop} {s s' : State} {h out : List Msg}
    {i : Input} {is : List Input} (hs : step s i = some (s', out)) (hc : C s h i)
    (ha : Along step C s' (h ++ out) is) : Along step C s h (i :: is) := by
  refine ⟨hc, fun t o ht => ?_⟩
  rw [hs] at ht
  cases ht
  exact ha

theorem along_and {C D : State → List Msg → Input → Prop} {s : State} {h : List Msg}
    {is : List Input} (hc : Along step C s h is) (hd : Along step D s h is) :
    Along step (fun s h i => C s h i ∧ D s h i) s h is := by
  induction is generalizing s h with
  | nil => trivial
  | cons i is ih =>
    exact ⟨⟨hc.1, hd.1⟩, fun s' out hs => ih (hc.2 s' out hs) (hd.2 s' out hs)⟩

/-- The rule for a condition on the inputs alone. -/
theorem run_invariant {P : Input → Prop} {I : State → List Msg → Prop}
    (hstep : ∀ s h i s' out, I s h → P i → step s i = some (s', out) → I s' (h ++ out))
    {s t : State} {h out : List Msg} {is : List Input} (hs : I s h)
    (hp : ∀ i ∈ is, P i) (hr : run step s is = some (t, out)) : I t (h ++ out) :=
  run_invariant_along (C := fun _ _ i => P i) hstep hs
    (along_of_forall_mem (fun i hi _ _ => hp i hi) s h) hr

/-- If an invariant keeps the step defined, every run is defined. -/
theorem run_isSome {P : Input → Prop} {I : State → Prop}
    (hdef : ∀ s i, I s → P i → ∃ s' out, step s i = some (s', out) ∧ I s')
    {s : State} (hs : I s) {is : List Input} (hp : ∀ i ∈ is, P i) :
    ∃ t out, run step s is = some (t, out) := by
  induction is generalizing s with
  | nil => exact ⟨s, [], rfl⟩
  | cons i is ih =>
    obtain ⟨s', o, hi, hs'⟩ := hdef s i hs (hp i List.mem_cons_self)
    obtain ⟨t, rest, hr⟩ := ih hs' (fun j hj => hp j (List.mem_cons_of_mem i hj))
    exact ⟨t, o ++ rest, run_cons_some.mpr ⟨s', o, rest, hi, hr, rfl⟩⟩

/-- If a step that meets `C` is defined and keeps an invariant, so does a run. -/
theorem exists_run_along {C : State → List Msg → Input → Prop} {I : State → List Msg → Prop}
    (hstep : ∀ s h i, I s h → C s h i → ∃ s' out, step s i = some (s', out) ∧ I s' (h ++ out))
    {s : State} {h : List Msg} {is : List Input} (hs : I s h) (hc : Along step C s h is) :
    ∃ t out, run step s is = some (t, out) ∧ I t (h ++ out) := by
  induction is generalizing s h with
  | nil => exact ⟨s, [], rfl, by simpa using hs⟩
  | cons i is ih =>
    obtain ⟨s', o, hi, hs'⟩ := hstep s h i hs hc.1
    obtain ⟨t, rest, hr, ht⟩ := ih hs' (hc.2 s' o hi)
    exact ⟨t, o ++ rest, run_cons_some.mpr ⟨s', o, rest, hi, hr, rfl⟩,
      List.append_assoc h o rest ▸ ht⟩

theorem along_front {C : State → List Msg → Input → Prop} {s : State} {h : List Msg}
    {is js : List Input} (hc : Along step C s h is) (hj : js <+: is) : Along step C s h js := by
  induction js generalizing s h is with
  | nil => trivial
  | cons j js ih =>
    obtain ⟨is, rfl⟩ := hj
    exact ⟨hc.1, fun s' out hs => ih (hc.2 s' out hs) ⟨is, rfl⟩⟩

/-- Of a controller that is defined where `I` holds, and that a step keeps in `I` when it meets
`C` and takes out of `P` when it does not, the states that a run reaches have `P` exactly if
its steps meet `C`. -/
theorem along_iff_reached {C : State → Input → Prop} {I P : State → Prop}
    (hstep : ∀ s i, I s → ∃ s' out, step s i = some (s', out) ∧ (C s i → I s') ∧ (P s' → C s i))
    (hip : ∀ s, I s → P s) {s : State} {h : List Msg} {is : List Input} (hs : I s) :
    Along step (fun s _ i => C s i) s h is ↔
      ∀ js, js <+: is → ∃ t out, run step s js = some (t, out) ∧ P t := by
  induction is generalizing s h with
  | nil =>
    refine ⟨fun _ js hj => ?_, fun _ => trivial⟩
    rw [List.prefix_nil.mp hj]
    exact ⟨s, [], rfl, hip s hs⟩
  | cons i is ih =>
    obtain ⟨s', o, hi, hc, hp⟩ := hstep s i hs
    constructor
    · rintro ⟨hci, ha⟩ js hj
      rcases js with _ | ⟨j, js⟩
      · exact ⟨s, [], rfl, hip s hs⟩
      · obtain ⟨rfl, hj'⟩ := List.cons_prefix_cons.mp hj
        obtain ⟨t, rest, hr, ht⟩ := (ih (hc hci)).mp (ha s' o hi) js hj'
        exact ⟨t, o ++ rest, run_cons_some.mpr ⟨s', o, rest, hi, hr, rfl⟩, ht⟩
    · intro hall
      -- the state after the first step
      obtain ⟨t, out, hr, ht⟩ := hall [i] (List.cons_prefix_cons.mpr ⟨rfl, List.nil_prefix⟩)
      obtain ⟨u, o', rest, hu, hr', -⟩ := run_cons_some.mp hr
      rw [hi] at hu
      cases hu
      cases hr'
      refine along_cons hi (hp ht) ((ih (hc (hp ht))).mpr fun js hj => ?_)
      obtain ⟨t', out', hr', ht'⟩ := hall (i :: js) (List.cons_prefix_cons.mpr ⟨rfl, hj⟩)
      obtain ⟨v, o'', rest', hv, hr'', -⟩ := run_cons_some.mp hr'
      rw [hi] at hv
      cases hv
      exact ⟨t', rest', hr'', ht'⟩

/-- A relation between two controllers that related inputs keep, when each step of the first
meets `C`, holds after every such run; `O` relates the messages. -/
theorem run_simulates {State' Input' Msg' : Type*}
    {step' : State' → Input' → Option (State' × List Msg')}
    {C : State → List Msg → Input → Prop} {E : Input → Input' → Prop}
    {S : State → State' → Prop} {O : List Msg → List Msg' → Prop}
    (hnil : O [] []) (happ : ∀ a b a' b', O a a' → O b b' → O (a ++ b) (a' ++ b'))
    (hstep : ∀ s s' h i i' t o, S s s' → C s h i → E i i' → step s i = some (t, o) →
      ∃ t' o', step' s' i' = some (t', o') ∧ S t t' ∧ O o o')
    {s t : State} {s' : State'} {h out : List Msg} {is : List Input} {is' : List Input'}
    (hs : S s s') (hi : List.Forall₂ E is is') (hc : Along step C s h is)
    (hr : run step s is = some (t, out)) :
    ∃ t' out', run step' s' is' = some (t', out') ∧ S t t' ∧ O out out' := by
  induction hi generalizing s s' h out with
  | nil =>
    simp only [run_nil, Option.some.injEq, Prod.mk.injEq] at hr
    obtain ⟨rfl, rfl⟩ := hr
    exact ⟨s', [], rfl, hs, hnil⟩
  | cons hi _ ih =>
    obtain ⟨u, o, rest, hu, hr', rfl⟩ := run_cons_some.mp hr
    obtain ⟨u', o', hu', hrel, hout⟩ := hstep s s' h _ _ u o hs hc.1 hi hu
    obtain ⟨t', rest', hr'', hrel', hout'⟩ := ih hrel (hc.2 u o hu) hr'
    exact ⟨t', o' ++ rest', run_cons_some.mpr ⟨u', o', rest', hu', hr'', rfl⟩, hrel',
      happ _ _ _ _ hout hout'⟩

/-- Two controllers that agree in the steps that meet `C` agree in the runs of such steps. -/
theorem run_eq_along {step' : State → Input → Option (State × List Msg)}
    {C : State → List Msg → Input → Prop} (heq : ∀ s h i, C s h i → step s i = step' s i)
    {s : State} {h : List Msg} {is : List Input} (hc : Along step C s h is) :
    run step s is = run step' s is := by
  induction is generalizing s h with
  | nil => rfl
  | cons i is ih =>
    rw [run, run, ← heq s h i hc.1]
    rcases hi : step s i with _ | ⟨s', out⟩
    · rfl
    · dsimp only
      rw [ih (hc.2 s' out hi)]

/-- The controller whose messages are the lists that its steps send, so that a run keeps them
step by step. -/
def batched (step : State → Input → Option (State × List Msg)) (s : State) (i : Input) :
    Option (State × List (List Msg)) :=
  (step s i).map fun r => (r.1, [r.2])

theorem batched_some {s t : State} {i : Input} {out : List (List Msg)} :
    batched step s i = some (t, out) ↔ ∃ o, step s i = some (t, o) ∧ out = [o] := by
  unfold batched
  rcases step s i with _ | ⟨u, o⟩
  · simp
  · simp only [Option.map_some, Option.some.injEq, Prod.mk.injEq]
    constructor
    · rintro ⟨rfl, rfl⟩
      exact ⟨o, ⟨rfl, rfl⟩, rfl⟩
    · rintro ⟨_, ⟨rfl, rfl⟩, rfl⟩
      exact ⟨rfl, rfl⟩

/-- The controller watched by an observer: `upd` computes the observer's next value from the
state a step is taken in and its input. -/
def observe {Obs : Type*} (step : State → Input → Option (State × List Msg))
    (upd : Obs → State → Input → Obs) (s : State × Obs) (i : Input) :
    Option ((State × Obs) × List Msg) :=
  (step s.1 i).map fun r => ((r.1, upd s.2 s.1 i), r.2)

/-- An observed step is a step. -/
theorem observe_some {Obs : Type*} {upd : Obs → State → Input → Obs} {s t : State × Obs}
    {i : Input} {out : List Msg} :
    observe step upd s i = some (t, out) ↔
      step s.1 i = some (t.1, out) ∧ t.2 = upd s.2 s.1 i := by
  unfold observe
  rcases hs : step s.1 i with _ | ⟨s', o⟩
  · simp
  · rcases t with ⟨t₁, t₂⟩
    simp only [Option.map_some, Option.some.injEq, Prod.mk.injEq]
    constructor
    · rintro ⟨⟨rfl, rfl⟩, rfl⟩
      exact ⟨⟨rfl, rfl⟩, rfl⟩
    · rintro ⟨⟨rfl, rfl⟩, rfl⟩
      exact ⟨⟨rfl, rfl⟩, rfl⟩

/-- The controller on a clock: an input comes with its instant, which the state remembers
and each message carries. -/
def timed {Time : Type*} (step : State → Input → Option (State × List Msg))
    (s : State × Time) (i : Time × Input) : Option ((State × Time) × List (Time × Msg)) :=
  (step s.1 i.2).map fun r => ((r.1, i.1), r.2.map (Prod.mk i.1))

theorem timed_some {Time : Type*} {s t : State × Time} {i : Time × Input}
    {out : List (Time × Msg)} :
    timed step s i = some (t, out) ↔
      ∃ o, step s.1 i.2 = some (t.1, o) ∧ t.2 = i.1 ∧ out = o.map (Prod.mk i.1) := by
  unfold timed
  rcases hs : step s.1 i.2 with _ | ⟨s', o⟩
  · simp
  · rcases t with ⟨t₁, t₂⟩
    simp only [Option.map_some, Option.some.injEq, Prod.mk.injEq]
    constructor
    · rintro ⟨⟨rfl, rfl⟩, rfl⟩
      exact ⟨o, ⟨rfl, rfl⟩, rfl, rfl⟩
    · rintro ⟨_, ⟨rfl, rfl⟩, rfl, rfl⟩
      exact ⟨⟨rfl, rfl⟩, rfl⟩

/-- On a clock that keeps `P` from one input to the next, each step keeps `P`. -/
theorem along_timed {Time : Type*} {P : Time → Time → Prop} {s : State} {t : Time}
    {h : List (Time × Msg)} {is : List (Time × Input)}
    (hc : (t :: is.map Prod.fst).IsChain P) :
    Along (timed step) (fun s _ i => P s.2 i.1) (s, t) h is := by
  induction is generalizing s t h with
  | nil => trivial
  | cons i is ih =>
    rw [List.map_cons, List.isChain_cons_cons] at hc
    refine ⟨hc.1, fun s' out hs => ?_⟩
    obtain ⟨o, -, ht, -⟩ := timed_some.mp hs
    obtain ⟨s₁, t₁⟩ := s'
    simp only at ht
    subst ht
    exact ih hc.2

/-- A controller that is always defined and answers each input with one message. -/
def total (f : State → Input → State × Msg) (s : State) (i : Input) : Option (State × List Msg) :=
  some ((f s i).1, [(f s i).2])

/-- The run of such a controller goes on from the state after the first input. -/
theorem run_total_cons {f : State → Input → State × Msg} {s t : State} {i : Input}
    {is : List Input} {out : List Msg} :
    run (total f) s (i :: is) = some (t, out) ↔
      ∃ rest, run (total f) (f s i).1 is = some (t, rest) ∧ out = (f s i).2 :: rest := by
  rw [run_cons_some]
  constructor
  · rintro ⟨s', o, rest, hs, hr, rfl⟩
    cases hs
    exact ⟨rest, hr, rfl⟩
  · rintro ⟨rest, hr, rfl⟩
    exact ⟨_, _, rest, rfl, hr, rfl⟩

theorem run_total_length {f : State → Input → State × Msg} {s t : State} {is : List Input}
    {out : List Msg} (h : run (total f) s is = some (t, out)) : out.length = is.length := by
  induction is generalizing s out with
  | nil =>
    cases h
    rfl
  | cons i is ih =>
    obtain ⟨rest, hr, rfl⟩ := run_total_cons.mp h
    exact congrArg Nat.succ (ih hr)

/-- If a step answers with what `A` makes of the inputs so far, so does every step of a run. -/
theorem exists_run_answers {A : List Input → Msg} {I : State → List Input → Prop}
    (hstep : ∀ s is i, I s is → ∃ s', step s i = some (s', [A (is ++ [i])]) ∧ I s' (is ++ [i]))
    {s : State} (hs : I s []) (is : List Input) :
    ∃ t out, run step s is = some (t, out) ∧ I t is ∧ out.length = is.length ∧
      ∀ k, k < is.length → out[k]? = some (A (is.take (k + 1))) := by
  induction is using List.reverseRecOn with
  | nil => exact ⟨s, [], rfl, hs, rfl, fun k hk => absurd hk (Nat.not_lt_zero k)⟩
  | append_singleton is i ih =>
    obtain ⟨t, out, hr, ht, hlen, hout⟩ := ih
    obtain ⟨t', hi, ht'⟩ := hstep t is i ht
    have hlast : run step t [i] = some (t', [A (is ++ [i])]) :=
      run_cons_some.mpr ⟨t', _, [], hi, rfl, rfl⟩
    refine ⟨t', _, run_append_some.mpr ⟨t, out, _, hr, hlast, rfl⟩, ht', by simp [hlen], ?_⟩
    intro k hk
    rw [List.length_append, List.length_singleton] at hk
    rcases Nat.lt_succ_iff_lt_or_eq.mp hk with hlt | rfl
    · rw [List.getElem?_append_left (hlen ▸ hlt), hout k hlt,
        List.take_append_of_le_length hlt]
    · rw [← hlen, List.getElem?_concat_length, hlen, List.take_of_length_le (by simp)]

/-- Two such controllers that give the same answers in related states, and stay related, give the
same answers in all runs. -/
theorem run_total_simulates {State' : Type*} {f : State → Input → State × Msg}
    {g : State' → Input → State' × Msg} {S : State → State' → Prop}
    (hstep : ∀ s s' i, S s s' → S (f s i).1 (g s' i).1 ∧ (f s i).2 = (g s' i).2)
    {s : State} {s' : State'} (hs : S s s') (is : List Input) :
    ∃ t t' out, run (total f) s is = some (t, out) ∧ run (total g) s' is = some (t', out) ∧
      S t t' := by
  induction is generalizing s s' with
  | nil => exact ⟨s, s', [], rfl, rfl, hs⟩
  | cons i is ih =>
    obtain ⟨hnext, hout⟩ := hstep s s' i hs
    obtain ⟨t, t', out, hr, hr', ht⟩ := ih hnext
    refine ⟨t, t', (f s i).2 :: out, run_total_cons.mpr ⟨out, hr, rfl⟩, ?_, ht⟩
    exact run_total_cons.mpr ⟨out, hr', by rw [hout]⟩

end Regonf.Controller
