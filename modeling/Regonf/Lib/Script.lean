import Mathlib.Logic.Relation
import Mathlib.Tactic.Common

/-! Scripts of atomic actions that run beside an environment: the environment may step
between any two actions. A script is judged against an abstract state that the environment
does not touch, so that its weakest precondition is that of a sequential program. -/
namespace Regonf

universe u

/-- A program over the atomic actions `A`; `A β` is an action whose result is a `β`. -/
inductive Script (A : Type → Type u) (α : Type) : Type (max 1 u) where
  | pure (x : α)
  | act {β : Type} (a : A β) (k : β → Script A α)

namespace Script

variable {A : Type → Type u} {α β : Type}

def bind : Script A α → (α → Script A β) → Script A β
  | .pure x, f => f x
  | .act a k, f => .act a fun b => (k b).bind f

instance : Monad (Script A) where
  pure := .pure
  bind := .bind

/-- The script of one action. -/
def lift (a : A α) : Script A α := .act a .pure

/-- How an action is taken: `none` when it cannot be taken here, because it has to wait or
because its result is undefined. `O` is the outcome that the action itself does not fix. -/
abbrev Exec (A : Type → Type u) (O S : Type*) := (β : Type) → A β → O → S → Option (β × S)

/-- The terms of a judgement: the outcomes that are admitted, what an action demands of the
state it is taken in, and what is to hold in every state. -/
structure Contract (A : Type → Type u) (O S : Type*) where
  allow : (β : Type) → A β → O → S → Prop
  demand : (β : Type) → A β → S → Prop
  always : S → Prop

variable {O S : Type*}

/-- From `s` the script meets the contract and ends in `Q`. -/
def Safe (exec : Exec A O S) (K : Contract A O S) : Script A α → (α → S → Prop) → S → Prop
  | .pure x, Q, s => K.always s ∧ Q x s
  | .act (β := β) a k, Q, s => K.always s ∧ K.demand β a s ∧
      ∀ o b t, K.allow β a o s → exec β a o s = some (b, t) → Safe exec K (k b) Q t

section rules
variable {exec : Exec A O S} {K : Contract A O S} {s : S}

theorem Safe.always {c : Script A α} {Q : α → S → Prop} (h : Safe exec K c Q s) :
    K.always s := by
  cases c with
  | pure x => exact h.1
  | act a k => exact h.1

theorem safe_pure {x : α} {Q : α → S → Prop} (ha : K.always s) (hq : Q x s) :
    Safe exec K (Pure.pure x) Q s := ⟨ha, hq⟩

/-- The rule for one action and the rest of the script. -/
theorem safe_lift {a : A α} {f : α → Script A β} {Q : β → S → Prop} (ha : K.always s)
    (hd : K.demand α a s)
    (hk : ∀ o b t, K.allow α a o s → exec α a o s = some (b, t) →
      Safe exec K (f b) Q t) : Safe exec K (lift a >>= f) Q s := ⟨ha, hd, hk⟩

/-- The rule of consequence. -/
theorem Safe.mono {c : Script A α} {Q Q' : α → S → Prop} (h : Safe exec K c Q s)
    (hq : ∀ x t, K.always t → Q x t → Q' x t) : Safe exec K c Q' s := by
  induction c generalizing s with
  | pure x => exact ⟨h.1, hq x s h.1 h.2⟩
  | act a k ih =>
    obtain ⟨ha, hd, hk⟩ := h
    exact ⟨ha, hd, fun o b t hal he => ih b (hk o b t hal he)⟩

/-- The rule of sequence. -/
theorem Safe.bind {c : Script A α} {f : α → Script A β} {Q : β → S → Prop}
    (h : Safe exec K c (fun x t => Safe exec K (f x) Q t) s) :
    Safe exec K (c >>= f) Q s := by
  induction c generalizing s with
  | pure x => exact h.2
  | act a k ih =>
    obtain ⟨ha, hd, hk⟩ := h
    exact ⟨ha, hd, fun o b t hal he => ih b (hk o b t hal he)⟩

theorem Safe.seq {c : Script A α} {f : α → Script A β} {P : α → S → Prop}
    {Q : β → S → Prop} (h : Safe exec K c P s)
    (hf : ∀ x t, P x t → Safe exec K (f x) Q t) : Safe exec K (c >>= f) Q s :=
  (h.mono fun x t _ hp => hf x t hp).bind

/-- The rule of conjunction. -/
theorem Safe.and {c : Script A α} {Q Q' : α → S → Prop} (h : Safe exec K c Q s)
    (h' : Safe exec K c Q' s) : Safe exec K c (fun x t => Q x t ∧ Q' x t) s := by
  induction c generalizing s with
  | pure x => exact ⟨h.1, h.2, h'.2⟩
  | act a k ih =>
    obtain ⟨ha, hd, hk⟩ := h
    exact ⟨ha, hd, fun o b t hal he => ih b (hk o b t hal he) (h'.2.2 o b t hal he)⟩

/-- A script stays safe under a contract that admits less and asks for less. -/
theorem Safe.weaken {K' : Contract A O S} {c : Script A α} {Q : α → S → Prop}
    (h : Safe exec K c Q s)
    (hallow : ∀ (β : Type) (a : A β) (o : O) (t : S), K'.allow β a o t → K.allow β a o t)
    (hdemand : ∀ (β : Type) (a : A β) (t : S), K.demand β a t → K'.demand β a t)
    (halways : ∀ t, K.always t → K'.always t) : Safe exec K' c Q s := by
  induction c generalizing s with
  | pure x => exact ⟨halways s h.1, h.2⟩
  | act a k ih =>
    obtain ⟨ha, hd, hk⟩ := h
    exact ⟨halways s ha, hdemand _ a s hd,
      fun o b t hal he => ih b (hk o b t (hallow _ a o s hal) he)⟩

/-- A loop over a list keeps the invariant that its body keeps. -/
theorem safe_forM {γ : Type} {xs : List γ} {body : γ → Script A PUnit} {I : S → Prop}
    (hi : I s) (ha : ∀ t, I t → K.always t)
    (hb : ∀ x ∈ xs, ∀ t, I t → Safe exec K (body x) (fun _ => I) t) :
    Safe exec K (xs.forM body) (fun _ => I) s := by
  induction xs generalizing s with
  | nil => exact ⟨ha s hi, hi⟩
  | cons x xs ih =>
    have hx : Safe exec K (body x) (fun _ => I) s := hb x List.mem_cons_self s hi
    exact hx.seq fun _ t ht => ih ht fun y hy => hb y (List.mem_cons_of_mem x hy)

end rules

/-- The script under way and the state. -/
structure Config (A : Type → Type u) (S : Type*) where
  code : Script A Unit
  state : S

/-- No script is under way. -/
def Config.idle {S : Type*} (c : Config A S) : Bool :=
  match c.code with
  | .pure _ => true
  | .act _ _ => false

theorem Config.idle_iff {S : Type*} {c : Config A S} : c.idle = true ↔ c.code = .pure () := by
  obtain ⟨code, s⟩ := c
  cases code with
  | pure x => exact ⟨fun _ => rfl, fun _ => rfl⟩
  | act a k =>
    constructor
    · intro h
      cases h
    · intro h
      cases h

/-- A step of the whole: an idle script takes up its next turn, a script takes its next
action, or the environment steps. -/
inductive Label (C O E : Type*) where
  | turn (c : C)
  | main (o : O)
  | env (e : E)

variable {C E : Type*}

def step (exec : Exec A O S) (env : S → E → Option S) (turn : C → Script A Unit) :
    Config A S → Label C O E → Option (Config A S)
  | ⟨.pure _, s⟩, .turn c => some ⟨turn c, s⟩
  | ⟨.act (β := β) a k, s⟩, .main o => (exec β a o s).map fun r => ⟨k r.1, r.2⟩
  | ⟨code, s⟩, .env e => (env s e).map fun t => ⟨code, t⟩
  | _, _ => none

/-- The configurations that a run reaches whose steps all meet `P`. -/
def Reach (step : Config A S → Label C O E → Option (Config A S))
    (P : Config A S → Label C O E → Prop) : Config A S → Config A S → Prop :=
  Relation.ReflTransGen fun c d => ∃ l, P c l ∧ step c l = some d

/-- Run a list of labels as long as each step passes the check. -/
def run (step : Config A S → Label C O E → Option (Config A S))
    (check : Config A S → Label C O E → Bool) :
    Config A S → List (Label C O E) → Option (Config A S)
  | c, [] => some c
  | c, l :: ls => if check c l then (step c l).bind fun d => run step check d ls else none

theorem run_reach {step : Config A S → Label C O E → Option (Config A S)}
    {check : Config A S → Label C O E → Bool} {c d : Config A S} {ls : List (Label C O E)}
    (h : run step check c ls = some d) : Reach step (fun c l => check c l = true) c d := by
  induction ls generalizing c with
  | nil =>
    rw [run, Option.some.injEq] at h
    subst h
    exact .refl
  | cons l ls ih =>
    rw [run] at h
    split_ifs at h with hc
    obtain ⟨e, he, hd⟩ := Option.bind_eq_some_iff.mp h
    exact .head ⟨l, hc, he⟩ (ih hd)

theorem Reach.mono {step : Config A S → Label C O E → Option (Config A S)}
    {P P' : Config A S → Label C O E → Prop} (hp : ∀ c l, P c l → P' c l)
    {c d : Config A S} (h : Reach step P c d) : Reach step P' c d :=
  Relation.ReflTransGen.mono (fun c _ ⟨l, hl, hs⟩ => ⟨l, hp c l hl, hs⟩) c d h

/-- The turn that a step takes up. -/
def Label.turns : Label C O E → List C
  | .turn x => [x]
  | _ => []

/-- A run from `c` whose steps all meet `P`, with the turns it takes up. -/
inductive Serves (step : Config A S → Label C O E → Option (Config A S))
    (P : Config A S → Label C O E → Prop) (c : Config A S) : List C → Config A S → Prop where
  | refl : Serves step P c [] c
  | tail {xs : List C} {d e : Config A S} {l : Label C O E} (h : Serves step P c xs d)
      (hp : P d l) (hs : step d l = some e) : Serves step P c (xs ++ l.turns) e

section serves
variable {step : Config A S → Label C O E → Option (Config A S)}
  {P P' : Config A S → Label C O E → Prop} {c d e : Config A S} {xs : List C}

theorem Serves.mono (hp : ∀ c l, P c l → P' c l) (h : Serves step P c xs d) :
    Serves step P' c xs d := by
  induction h with
  | refl => exact .refl
  | tail _ hl hs ih => exact ih.tail (hp _ _ hl) hs

theorem Serves.head {l : Label C O E} (hp : P c l) (hs : step c l = some d)
    (h : Serves step P d xs e) : Serves step P c (l.turns ++ xs) e := by
  induction h with
  | refl =>
    have hone : Serves step P c ([] ++ l.turns) d := Serves.refl.tail hp hs
    rwa [List.nil_append, ← List.append_nil l.turns] at hone
  | tail _ hl hs' ih =>
    rw [← List.append_assoc]
    exact ih.tail hl hs'

theorem Reach.serves (h : Reach step P c d) : ∃ xs, Serves step P c xs d := by
  induction h with
  | refl => exact ⟨[], .refl⟩
  | tail _ hstep ih =>
    obtain ⟨xs, hs⟩ := ih
    obtain ⟨l, hl, he⟩ := hstep
    exact ⟨xs ++ l.turns, hs.tail hl he⟩

theorem run_serves {check : Config A S → Label C O E → Bool} {ls : List (Label C O E)}
    (h : run step check c ls = some d) :
    Serves step (fun c l => check c l = true) c (ls.flatMap Label.turns) d := by
  induction ls generalizing c with
  | nil =>
    rw [run, Option.some.injEq] at h
    subst h
    exact .refl
  | cons l ls ih =>
    rw [run] at h
    split_ifs at h with hc
    obtain ⟨e, he, hd⟩ := Option.bind_eq_some_iff.mp h
    rw [List.flatMap_cons]
    exact (ih hd).head hc he

end serves

section simulation
variable {T : Type*} {exec : Exec A O S} {env : S → E → Option S} {turn : C → Script A Unit}
  {execA : Exec A O T}

/-- `R` relates the state to an abstract one that the environment leaves alone and on which
each action has an abstract counterpart with the same result. -/
structure Simulates (exec : Exec A O S) (env : S → E → Option S) (execA : Exec A O T)
    (R : S → T → Prop) : Prop where
  act : ∀ {β : Type} {a : A β} {o : O} {s s' : S} {b : β} {t : T}, R s t →
    exec β a o s = some (b, s') → ∃ t', execA β a o t = some (b, t') ∧ R s' t'
  env : ∀ {s s' : S} {e : E} {t : T}, R s t → env s e = some s' → R s' t

/-- The condition on a step that the contract and a condition `J` on turns make: it is
judged on the abstract states related to the state of the step. -/
def Meets (K : Contract A O T) (J : C → T → Prop) (R : S → T → Prop) :
    Config A S → Label C O E → Prop
  | c, .turn x => ∀ t, R c.state t → J x t
  | ⟨.act (β := β) a _, s⟩, .main o => ∀ t, R s t → K.allow β a o t
  | _, _ => True

/-- Only turns and actions have to meet a condition. -/
theorem meets_of {K : Contract A O T} {J : C → T → Prop} {R : S → T → Prop} {c : Config A S}
    {l : Label C O E} (hturn : ∀ x, l = .turn x → ∀ t, R c.state t → J x t)
    (hact : ∀ (β : Type) (a : A β) k s o, c = ⟨.act a k, s⟩ → l = .main o →
      ∀ t, R s t → K.allow β a o t) : Meets K J R c l := by
  obtain ⟨code, s⟩ := c
  cases l with
  | turn x => exact hturn x rfl
  | main o =>
    cases code with
    | pure y => trivial
    | act a k => exact hact _ a k s o rfl rfl
  | env x => cases code <;> trivial

/-- A step takes up a turn where the script has ended, or what is known of the script remains
true of a related abstract state. -/
theorem safe_step {R : S → T → Prop} (hr : Simulates exec env execA R) {K : Contract A O T}
    {J : C → T → Prop} {Q : T → Prop} {c d : Config A S} {l : Label C O E} {t : T}
    (hc : R c.state t) (hs : Safe execA K c.code (fun _ => Q) t) (hm : Meets K J R c l)
    (he : step exec env turn c l = some d) :
    (∃ x, l.turns = [x] ∧ d = ⟨turn x, c.state⟩ ∧ Q t ∧ J x t) ∨
      (l.turns = [] ∧ ∃ t', R d.state t' ∧ Safe execA K d.code (fun _ => Q) t') := by
  -- the environment and the actions keep the relation; only the main thread moves the script on
  obtain ⟨code, s⟩ := c
  cases l with
  | turn x =>
    cases code with
    | pure y =>
      cases he
      exact Or.inl ⟨x, rfl, rfl, hs.2, hm t hc⟩
    | act a k => cases he
  | main o =>
    cases code with
    | pure y => cases he
    | act a k =>
      obtain ⟨r, hx, hd⟩ := Option.map_eq_some_iff.mp he
      obtain ⟨t', ha, hr'⟩ := hr.act hc hx
      subst hd
      exact Or.inr ⟨rfl, t', hr', hs.2.2 o r.1 t' (hm t hc) ha⟩
  | env x =>
    have he' : ∃ s', env s x = some s' ∧ d = ⟨code, s'⟩ := by
      cases code with
      | pure y =>
        obtain ⟨s', hs', hd⟩ := Option.map_eq_some_iff.mp he
        exact ⟨s', hs', hd.symm⟩
      | act a k =>
        obtain ⟨s', hs', hd⟩ := Option.map_eq_some_iff.mp he
        exact ⟨s', hs', hd.symm⟩
    obtain ⟨s', hs', rfl⟩ := he'
    exact Or.inr ⟨rfl, t, hr.env hc hs', hs⟩

/-- The rule for a run that takes up the turns `ys`. The invariant may speak of the turns taken
up so far: where a turn goes on with them as `ys` does, it has to be safe. -/
theorem serves_safe {R : S → T → Prop} (hr : Simulates exec env execA R) {K : Contract A O T}
    {J : C → T → Prop} {I : List C → T → Prop} {ys : List C}
    (ht : ∀ xs x t, xs ++ [x] <+: ys → I xs t → J x t →
      Safe execA K (turn x) (fun _ => I (xs ++ [x])) t)
    {c d : Config A S} {t : T} (hc : R c.state t) (hs : Safe execA K c.code (fun _ => I []) t)
    (h : Serves (step exec env turn) (Meets K J R) c ys d) :
    ∃ t', R d.state t' ∧ Safe execA K d.code (fun _ => I ys) t' := by
  have hprefix : ∀ xs d, Serves (step exec env turn) (Meets K J R) c xs d → xs <+: ys →
      ∃ t', R d.state t' ∧ Safe execA K d.code (fun _ => I xs) t' := by
    intro xs d h hxs
    induction h with
    | refl => exact ⟨t, hc, hs⟩
    | tail _ hm he ih =>
      obtain ⟨u, hu, hsafe⟩ := ih ((List.prefix_append _ _).trans hxs)
      rcases safe_step hr hu hsafe hm he with ⟨x, hx, rfl, hi, hj⟩ | ⟨hx, t', ht', hs'⟩
      · rw [hx] at hxs ⊢
        exact ⟨u, hu, ht _ x u hxs hi hj⟩
      · rw [hx, List.append_nil]
        exact ⟨t', ht', hs'⟩
  exact hprefix ys d h (List.prefix_refl ys)

/-- The rule between two points where no script is under way. -/
theorem serves_idle {R : S → T → Prop} (hr : Simulates exec env execA R) {K : Contract A O T}
    {P : Config A S → Label C O E → Prop}
    (hP : ∀ c l, P c l → Meets K (fun _ _ => True) R c l) {I : List C → T → Prop} {ys : List C}
    (ht : ∀ xs x t, xs ++ [x] <+: ys → I xs t → Safe execA K (turn x) (fun _ => I (xs ++ [x])) t)
    {c d : Config A S} {t : T} (hc : R c.state t) (ha : K.always t) (hi : I [] t)
    (hci : c.idle = true) (hdi : d.idle = true) (h : Serves (step exec env turn) P c ys d) :
    ∃ t', R d.state t' ∧ I ys t' := by
  have hs : Safe execA K c.code (fun _ => I []) t := by
    rw [Config.idle_iff.mp hci]
    exact ⟨ha, hi⟩
  obtain ⟨t', ht', hs'⟩ :=
    serves_safe hr (fun xs x t hx hit _ => ht xs x t hx hit) hc hs (h.mono hP)
  rw [Config.idle_iff.mp hdi] at hs'
  exact ⟨t', ht', hs'.2⟩

/-- The run rule. If every turn, taken in a state with the idle invariant `I`, is safe and
ends with `I`, then in each configuration that a run reaches the rest of the script is safe
on a related abstract state. -/
theorem reach_safe {R : S → T → Prop} (hr : Simulates exec env execA R)
    {K : Contract A O T} {J : C → T → Prop} {I : T → Prop}
    (ht : ∀ x t, I t → J x t → Safe execA K (turn x) (fun _ => I) t)
    {c d : Config A S} {t : T} (hc : R c.state t)
    (hs : Safe execA K c.code (fun _ => I) t)
    (h : Reach (step exec env turn) (Meets K J R) c d) :
    ∃ t', R d.state t' ∧ Safe execA K d.code (fun _ => I) t' := by
  obtain ⟨ys, hserves⟩ := h.serves
  exact serves_safe (I := fun _ => I) hr (fun _ x t _ => ht x t) hc hs hserves

end simulation

end Script
end Regonf
