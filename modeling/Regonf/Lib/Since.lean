import Regonf.Lib.Controller

/-! What held at some moment since an input of a run. -/
namespace Regonf.Controller

variable {State Input Msg : Type*}

/-- In the run on `is`, the state was in `Q` at some moment since an input of `P`. -/
def Since (step : State → Input → Option (State × List Msg)) (s : State) (P : Input → Prop)
    (Q : State → Prop) (is : List Input) : Prop :=
  ∃ before i after rest t out, is = before ++ i :: (after ++ rest) ∧ P i ∧
    run step s (before ++ i :: after) = some (t, out) ∧ Q t

variable {step : State → Input → Option (State × List Msg)} {s t : State} {P : Input → Prop}
  {Q : State → Prop} {is : List Input} {out : List Msg}

theorem Since.now (hr : run step s is = some (t, out)) (hp : ∃ i ∈ is, P i) (hq : Q t) :
    Since step s P Q is := by
  obtain ⟨i, hi, hp⟩ := hp
  obtain ⟨before, after, rfl⟩ := List.append_of_mem hi
  exact ⟨before, i, after, [], t, out, by rw [List.append_nil], hp, hr, hq⟩

theorem Since.append (h : Since step s P Q is) (js : List Input) : Since step s P Q (is ++ js) := by
  obtain ⟨before, i, after, rest, t, out, rfl, hp, hr, hq⟩ := h
  exact ⟨before, i, after, rest ++ js, t, out, by simp, hp, hr, hq⟩

theorem Since.mono {Q' : State → Prop} (h : Since step s P Q is) (hq : ∀ t, Q t → Q' t) :
    Since step s P Q' is := by
  obtain ⟨before, i, after, rest, t, out, his, hp, hr, ht⟩ := h
  exact ⟨before, i, after, rest, t, out, his, hp, hr, hq t ht⟩

theorem Since.exists_mem (h : Since step s P Q is) : ∃ i ∈ is, P i := by
  obtain ⟨before, i, after, rest, t, out, rfl, hp, -, -⟩ := h
  exact ⟨i, by simp, hp⟩

/-- A property of the inputs so far and the state that each step keeps. -/
theorem run_history {C : Input → Prop} {I : List Input → State → Prop}
    (hstep : ∀ is t out i u o, run step s is = some (t, out) → I is t → C i →
      step t i = some (u, o) → I (is ++ [i]) u)
    (hs : I [] s) (hc : ∀ i ∈ is, C i) (hr : run step s is = some (t, out)) : I is t := by
  induction is using List.reverseRecOn generalizing t out with
  | nil =>
    cases hr
    exact hs
  | append_singleton is i ih =>
    obtain ⟨u, o, o', hu, hlast, -⟩ := run_append_some.mp hr
    obtain ⟨t', o₁, rest, hi, hnil, -⟩ := run_cons_some.mp hlast
    cases hnil
    have hprev := ih (fun j hj => hc j (List.mem_append_left _ hj)) hu
    exact hstep is u o i _ o₁ hu hprev (hc i (by simp)) hi

end Regonf.Controller
