import Mathlib.Data.List.Basic
import Mathlib.Data.List.Nodup
import Mathlib.Logic.Function.Basic
import Mathlib.Tactic.Common

/-! Singly linked lists: the nodes that a pointer leads to through `next`, and what becomes
of them when one link is rewritten. -/
namespace Regonf.LinkedList

variable {P : Type*} {next next' : P → Option P} {p e m : Option P} {ps qs : List P} {a q : P}

/-- `next` leads from `p` through the nodes of the list to `e`. -/
def Seg (next : P → Option P) : Option P → List P → Option P → Prop
  | p, [], e => p = e
  | p, q :: qs, e => p = some q ∧ Seg next (next q) qs e

/-- A list that ends in the null pointer. -/
def IsList (next : P → Option P) (p : Option P) (ps : List P) : Prop := Seg next p ps none

/-- The nodes that can be reached from `p`. -/
inductive Linked (next : P → Option P) (p : Option P) : P → Prop where
  | head {q : P} (h : p = some q) : Linked next p q
  | tail {q r : P} (hq : Linked next p q) (h : next q = some r) : Linked next p r

theorem seg_append : Seg next p (ps ++ qs) e ↔ ∃ m, Seg next p ps m ∧ Seg next m qs e := by
  induction ps generalizing p with
  | nil => simp [Seg]
  | cons a ps ih =>
    simp only [List.cons_append, Seg, ih]
    constructor
    · rintro ⟨hp, m, h₁, h₂⟩
      exact ⟨m, ⟨hp, h₁⟩, h₂⟩
    · rintro ⟨m, ⟨hp, h₁⟩, h₂⟩
      exact ⟨hp, m, h₁, h₂⟩

theorem Seg.congr (h : Seg next p ps e) (hn : ∀ q ∈ ps, next' q = next q) :
    Seg next' p ps e := by
  induction ps generalizing p with
  | nil => exact h
  | cons a ps ih =>
    refine ⟨h.1, ?_⟩
    rw [hn a List.mem_cons_self]
    exact ih h.2 fun q hq => hn q (List.mem_cons_of_mem a hq)

/-- Rewriting the link of a node outside the segment leaves the segment. -/
theorem Seg.update_of_not_mem [DecidableEq P] (h : Seg next p ps e) (ha : a ∉ ps)
    (x : Option P) : Seg (Function.update next a x) p ps e := by
  apply h.congr
  intro q hq
  have hqa : q ≠ a := by
    rintro rfl
    exact ha hq
  rw [Function.update_of_ne hqa]

theorem Seg.head?_eq (h : Seg next p ps none) : p = ps.head? := by
  cases ps with
  | nil => exact h
  | cons a ps => exact h.1

/-- A segment determines its nodes. -/
theorem Seg.unique (h : Seg next p ps none) (h' : Seg next p qs none) : ps = qs := by
  induction ps generalizing p qs with
  | nil =>
    cases qs with
    | nil => rfl
    | cons b qs => exact absurd (h.symm.trans h'.1) (by simp)
  | cons a ps ih =>
    cases qs with
    | nil => exact absurd (h'.symm.trans h.1) (by simp)
    | cons b qs =>
      have hab : a = b := Option.some.inj (h.1.symm.trans h'.1)
      subst hab
      rw [ih h.2 h'.2]

/-- The node that `prev` points to, past which the list goes on. -/
theorem IsList.next_getLast (h : IsList next p (ps ++ q :: qs)) :
    IsList next (next q) qs := by
  obtain ⟨m, -, h₂⟩ := seg_append.mp h
  exact h₂.2

/-- A list that ends does not meet a node twice. -/
theorem IsList.nodup (h : IsList next p ps) : ps.Nodup := by
  induction ps generalizing p with
  | nil => exact List.nodup_nil
  | cons a ps ih =>
    refine List.nodup_cons.mpr ⟨fun ha => ?_, ih h.2⟩
    obtain ⟨s, t, rfl⟩ := List.append_of_mem ha
    -- both occurrences of the node lead to the same rest, which is shorter than itself
    have ht : IsList next (next a) t := IsList.next_getLast h.2
    have he : s ++ a :: t = t := Seg.unique h.2 ht
    have hlen := congrArg List.length he
    simp only [List.length_append, List.length_cons] at hlen
    omega

/-- Rewriting the link in front of `q` to the node behind it unlinks `q`. -/
theorem IsList.unlink [DecidableEq P] (h : IsList next p (ps ++ a :: q :: qs)) :
    IsList (Function.update next a (next q)) p (ps ++ a :: qs) := by
  have hn := h.nodup
  obtain ⟨m, h₁, hm, hq⟩ := seg_append.mp h
  have hap : a ∉ ps := fun hmem =>
    List.disjoint_of_nodup_append hn hmem List.mem_cons_self
  -- the node in front stands nowhere else in the list
  have haq : a ∉ q :: qs := (List.nodup_cons.mp hn.of_append_right).1
  refine seg_append.mpr ⟨m, h₁.update_of_not_mem hap _, hm, ?_⟩
  rw [Function.update_self]
  exact hq.2.update_of_not_mem (fun hmem => haq (List.mem_cons_of_mem q hmem)) _

/-- Rewriting the last link appends a node. -/
theorem IsList.append [DecidableEq P] (h : IsList next p (ps ++ [a]))
    (hq : q ∉ ps ++ [a]) (hnext : next q = none) :
    IsList (Function.update next a (some q)) p (ps ++ [a] ++ [q]) := by
  have hn := h.nodup
  obtain ⟨m, h₁, hm, -⟩ := seg_append.mp h
  have hap : a ∉ ps := fun hmem =>
    List.disjoint_of_nodup_append hn hmem List.mem_cons_self
  have hqa : q ≠ a := fun heq => hq (by simp [heq])
  rw [List.append_assoc]
  refine seg_append.mpr ⟨m, h₁.update_of_not_mem hap _, hm, ?_⟩
  rw [Function.update_self]
  refine ⟨rfl, ?_⟩
  rw [Function.update_of_ne hqa]
  exact hnext

theorem Linked.of_seg (h : Seg next p ps e) (hq : q ∈ ps) : Linked next p q := by
  induction ps generalizing p with
  | nil => exact absurd hq (by simp)
  | cons a ps ih =>
    rcases List.mem_cons.mp hq with rfl | hmem
    · exact .head h.1
    · have hl : Linked next (next a) q := ih h.2 hmem
      clear ih hq hmem
      induction hl with
      | head hr => exact .tail (.head h.1) hr
      | tail _ hr ih => exact .tail ih hr

/-- The nodes of a list are those that can be reached from its first. -/
theorem IsList.linked_iff (h : IsList next p ps) : Linked next p q ↔ q ∈ ps := by
  refine ⟨fun hl => ?_, fun hq => .of_seg h hq⟩
  induction hl with
  | head hp =>
    rw [h.head?_eq] at hp
    exact List.mem_of_head? hp
  | @tail r x _ hr ih =>
    -- what follows a node of the list is in the list behind it
    obtain ⟨s, t, rfl⟩ := List.append_of_mem ih
    have ht : IsList next (next r) t := h.next_getLast
    rw [ht.head?_eq] at hr
    have hx : x ∈ t := List.mem_of_head? hr
    simp [hx]

end Regonf.LinkedList
