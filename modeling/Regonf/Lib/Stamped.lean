import Mathlib.Data.List.Pairwise
import Mathlib.Tactic.Linarith

/-! Histories of messages with the instant of each, where the messages of two sides are to be more
than a gap apart. `ns` measures an instant. -/
namespace Stamped

variable {T Msg Side : Type*}

/-- Nothing among the messages is one of `P`. -/
def Idle (P : Msg → Prop) (l : List Msg) : Prop := ∀ r ∈ l, ¬P r

/-- The last message of `P` is more than the gap ago. -/
def Rested (ns : T → ℤ) (gap : ℤ) (now : T) (P : Msg → Prop) (h : List (T × Msg)) : Prop :=
  ∀ m ∈ h, P m.2 → gap < ns now - ns m.1

/-- Between a message of one side and a later one of the other, more than the gap elapses. -/
def Apart (ns : T → ℤ) (gap : ℤ) (other : Side → Side) (P : Side → Msg → Prop)
    (h : List (T × Msg)) : Prop :=
  h.Pairwise fun a b => ∀ n, P n a.2 → P (other n) b.2 → gap < ns b.1 - ns a.1

variable {ns : T → ℤ} {gap : ℤ} {now : T} {h : List (T × Msg)} {out : List Msg}

section
variable {P : Msg → Prop}

theorem Idle.nil : Idle P ([] : List Msg) := fun _ hr => absurd hr List.not_mem_nil

theorem Idle.append {l l' : List Msg} (hl : Idle P l) (hl' : Idle P l') : Idle P (l ++ l') := by
  intro r hr
  rcases List.mem_append.mp hr with hr | hr
  · exact hl r hr
  · exact hl' r hr

theorem Idle.singleton {r : Msg} (hr : ¬P r) : Idle P [r] := by
  intro q hq
  rwa [List.mem_singleton.mp hq]

theorem Rested.later {now' : T} (hq : Rested ns gap now P h) (hn : ns now ≤ ns now') :
    Rested ns gap now' P h := by
  intro m hm hp
  have := hq m hm hp
  omega

theorem Rested.append (hq : Rested ns gap now P h) (hs : Idle P out) (t : T) :
    Rested ns gap now P (h ++ out.map (Prod.mk t)) := by
  intro m hm hp
  rcases List.mem_append.mp hm with hm | hm
  · exact hq m hm hp
  · obtain ⟨r, hr, rfl⟩ := List.mem_map.mp hm
    exact absurd hp (hs r hr)

/-- A bound on the instants of `P` is kept by a step that sends none, or that is not later. -/
theorem bounded_append {t start : T} (hp : ∀ m ∈ h, P m.2 → ns m.1 ≤ ns start)
    (hs : Idle P out ∨ ns t ≤ ns start) :
    ∀ m ∈ h ++ out.map (Prod.mk t), P m.2 → ns m.1 ≤ ns start := by
  intro m hm hpm
  rcases List.mem_append.mp hm with hm | hm
  · exact hp m hm hpm
  · obtain ⟨r, hr, rfl⟩ := List.mem_map.mp hm
    exact hs.elim (fun hs => absurd hpm (hs r hr)) id

end

/-- Nothing is later than now. -/
theorem past_append {now' : T} (hp : ∀ m ∈ h, ns m.1 ≤ ns now) (hn : ns now ≤ ns now')
    (out : List Msg) : ∀ m ∈ h ++ out.map (Prod.mk now'), ns m.1 ≤ ns now' := by
  intro m hm
  exact bounded_append (P := fun _ => True) (fun m hm _ => (hp m hm).trans hn) (Or.inr le_rfl) m
    hm trivial

variable {other : Side → Side} {P : Side → Msg → Prop}

theorem Apart.nil : Apart ns gap other P [] := List.Pairwise.nil

/-- A step may send for a side only when the other one has rested and sends nothing with it. -/
theorem Apart.append (hg : Apart ns gap other P h)
    (hs : ∀ n, Idle (P (other n)) out ∨ Idle (P n) out ∧ Rested ns gap now (P n) h) :
    Apart ns gap other P (h ++ out.map (Prod.mk now)) := by
  refine List.pairwise_append.mpr ⟨hg, ?_, ?_⟩
  -- two messages of the step itself
  · refine List.pairwise_map.mpr (List.Pairwise.imp_of_mem ?_ (List.pairwise_of_forall
      (R := fun _ _ => True) fun _ _ => trivial))
    intro a b ha hb _ n hp hp'
    rcases hs n with h₁ | ⟨h₁, -⟩
    · exact absurd hp' (h₁ b hb)
    · exact absurd hp (h₁ a ha)
  -- one message of the history and one of the step
  · intro a ha b hb n hp hp'
    obtain ⟨r, hr, rfl⟩ := List.mem_map.mp hb
    rcases hs n with h₁ | ⟨-, h₁⟩
    · exact absurd hp' (h₁ r hr)
    · exact h₁ a ha hp

theorem Apart.of_sublist {a b : T × Msg} {n : Side} (hg : Apart ns gap other P h)
    (hs : List.Sublist [a, b] h) (ha : P n a.2) (hb : P (other n) b.2) :
    gap < ns b.1 - ns a.1 :=
  List.pairwise_pair.mp (List.Pairwise.sublist hs hg) n ha hb

end Stamped
