import Regonf.Lib.Script

/-! Scripts that run to their end: the result, the last state, and a record of what the actions
have met on the way. -/
namespace Regonf.Script

universe u

variable {A : Type → Type u} {O S T E L : Type*} {α β : Type}

/-- What an action adds to the record. -/
abbrev Note (A : Type → Type u) (O L : Type*) := (β : Type) → A β → O → List L

/-- From `s` the script gets to `t` with the rest `d`, the environment taking steps in between;
`l` is the record. -/
inductive Runs (exec : Exec A O S) (env : S → E → Option S) (note : Note A O L) :
    Script A α → S → List L → Script A α → S → Prop where
  | refl (c : Script A α) (s : S) : Runs exec env note c s [] c s
  | act {β : Type} {a : A β} {k : β → Script A α} {o : O} {b : β} {s s' t : S} {l : List L}
      {d : Script A α} (he : exec β a o s = some (b, s')) (h : Runs exec env note (k b) s' l d t) :
      Runs exec env note (.act a k) s (note β a o ++ l) d t
  | env {c d : Script A α} {e : E} {s s' t : S} {l : List L} (he : env s e = some s')
      (h : Runs exec env note c s' l d t) : Runs exec env note c s l d t

/-- From `s` the script ends in `t` with the result `x`. -/
abbrev Returns (exec : Exec A O S) (env : S → E → Option S) (note : Note A O L)
    (c : Script A α) (s : S) (l : List L) (x : α) (t : S) : Prop :=
  Runs exec env note c s l (.pure x) t

/-- Run the script on a list of steps: the outcome of its next action, or a step of the
environment. -/
def eval (exec : Exec A O S) (env : S → E → Option S) (note : Note A O L) :
    Script A α → S → List (O ⊕ E) → Option (α × S × List L)
  | .pure x, s, [] => some (x, s, [])
  | .act (β := β) a k, s, .inl o :: ls =>
    (exec β a o s).bind fun r => (eval exec env note (k r.1) r.2 ls).map fun y =>
      (y.1, y.2.1, note β a o ++ y.2.2)
  | c, s, .inr e :: ls => (env s e).bind fun s' => eval exec env note c s' ls
  | _, _, _ => none

/-- The actions on states that carry the record. -/
def noting (note : Note A O L) (exec : Exec A O S) : Exec A O (S × List L) :=
  fun β a o s => (exec β a o s.1).map fun r => (r.1, r.2, s.2 ++ note β a o)

section
variable {exec : Exec A O S} {env : S → E → Option S} {note : Note A O L} {s t : S}
  {l : List L}

theorem noting_some {β : Type} {a : A β} {o : O} {b : β} {s t : S × List L} :
    noting note exec β a o s = some (b, t) ↔
      exec β a o s.1 = some (b, t.1) ∧ t.2 = s.2 ++ note β a o := by
  obtain ⟨t₁, t₂⟩ := t
  simp only [noting, Option.map_eq_some_iff, Prod.mk.injEq]
  constructor
  · rintro ⟨⟨b', s'⟩, he, rfl, rfl, rfl⟩
    exact ⟨he, rfl⟩
  · rintro ⟨he, rfl⟩
    exact ⟨(b, t₁), he, rfl, rfl, rfl⟩

theorem eval_returns {c : Script A α} {ls : List (O ⊕ E)} {x : α}
    (h : eval exec env note c s ls = some (x, t, l)) : Returns exec env note c s l x t := by
  induction ls generalizing c s l with
  | nil =>
    cases c with
    | pure y =>
      cases h
      exact .refl _ _
    | act a k => cases h
  | cons e ls ih =>
    cases e with
    | inl o =>
      cases c with
      | pure y => cases h
      | act a k =>
        obtain ⟨r, he, h⟩ := Option.bind_eq_some_iff.mp h
        obtain ⟨y, hy, h⟩ := Option.map_eq_some_iff.mp h
        cases h
        exact .act he (ih hy)
    | inr e =>
      have hstep : ∃ s', env s e = some s' ∧ eval exec env note c s' ls = some (x, t, l) := by
        cases c with
        | pure y => exact Option.bind_eq_some_iff.mp h
        | act a k => exact Option.bind_eq_some_iff.mp h
      obtain ⟨s', he, h⟩ := hstep
      exact .env he (ih h)

variable {execA : Exec A O T} {R : S → T → Prop} {K : Contract A O (T × List L)}

/-- The run rule: what is known of a script on an abstract state, whatever the outcomes, remains
true of its rest, and what the environment and every action that meets its demand keep is kept. -/
theorem Runs.safe (hr : Simulates exec env execA R)
    (hallow : ∀ (β : Type) (a : A β) (o : O) (t : T × List L), K.allow β a o t) {P : S → Prop}
    (henv : ∀ s s' e, P s → env s e = some s' → P s')
    (hact : ∀ (β : Type) (a : A β) (o : O) (b : β) (s s' : S) (t : T × List L), P s → R s t.1 →
      K.demand β a t → exec β a o s = some (b, s') → P s')
    {c d : Script A α} {Q : α → T × List L → Prop} {u : T} {l₀ : List L}
    (h : Runs exec env note c s l d t) (hu : R s u) (hp : P s)
    (hs : Safe (noting note execA) K c Q (u, l₀)) :
    ∃ u', R t u' ∧ Safe (noting note execA) K d Q (u', l₀ ++ l) ∧ P t := by
  induction h generalizing u l₀ with
  | refl c s => exact ⟨u, hu, by simpa using hs, hp⟩
  | @act β a k o b s s' t l d he h ih =>
    obtain ⟨-, hd, hk⟩ := hs
    obtain ⟨u', ha, hu'⟩ := hr.act hu he
    obtain ⟨w, hw, hq, hp'⟩ := ih hu' (hact β a o b s s' (u, l₀) hp hu hd he)
      (hk o b (u', l₀ ++ note β a o) (hallow β a o _) (noting_some.mpr ⟨ha, rfl⟩))
    exact ⟨w, hw, by rwa [← List.append_assoc], hp'⟩
  | env he h ih => exact ih (hr.env hu he) (henv _ _ _ hp he) hs

end

end Regonf.Script
