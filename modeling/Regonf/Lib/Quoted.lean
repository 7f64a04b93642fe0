import Mathlib.Data.List.Basic
import Mathlib.Tactic.Common

/-! Literals between two delimiters, in which a doubled delimiter stands for one. -/
namespace Quoted

variable {α : Type*} [DecidableEq α] (d : α)

/-- Reads a literal behind its opening delimiter: what it denotes, and what follows it. -/
def read : List α → Option (List α × List α)
  | [] => none
  | [a] => if a = d then some ([], []) else none
  | a :: b :: t =>
    if a = d then
      if b = d then (read t).map fun r => (d :: r.1, r.2) else some ([], b :: t)
    else (read (b :: t)).map fun r => (a :: r.1, r.2)

variable {d}

/-- A literal is as long as what it denotes, with each delimiter twice. -/
theorem length_of_read {t s rest : List α} (h : read d t = some (s, rest)) :
    t.length = s.length + s.count d + 1 + rest.length := by
  induction t using read.induct generalizing s rest with
  | d => exact d
  | case1 => cases h
  | case2 =>
    rw [read, if_pos rfl] at h
    cases h
    rfl
  | case3 a ha =>
    rw [read, if_neg ha] at h
    cases h
  | case4 t ih =>
    rw [read, if_pos rfl, if_pos rfl, Option.map_eq_some_iff] at h
    obtain ⟨⟨s, rest⟩, hr, he⟩ := h
    cases he
    have := ih hr
    simp only [List.length_cons, List.count_cons_self]
    omega
  | case5 b t hb =>
    rw [read, if_pos rfl, if_neg hb] at h
    cases h
    simp
    omega
  | case6 a b t ha ih =>
    rw [read, if_neg ha, Option.map_eq_some_iff] at h
    obtain ⟨⟨s, rest⟩, hr, he⟩ := h
    cases he
    have := ih hr
    simp only [List.length_cons, List.count_cons_of_ne ha] at *
    omega

/-- A text without delimiters denotes itself. -/
theorem read_append {s : List α} (hs : d ∉ s) {rest : List α} (hrest : rest.head? ≠ some d) :
    read d (s ++ d :: rest) = some (s, rest) := by
  induction s with
  | nil =>
    cases rest with
    | nil => simp [read]
    | cons b rest =>
      have hb : b ≠ d := by simpa using hrest
      simp [read, hb]
  | cons a s ih =>
    obtain ⟨ha, hs⟩ := not_or.mp (mt List.mem_cons.mpr hs)
    obtain ⟨b, t, hbt⟩ := List.exists_cons_of_ne_nil (show s ++ d :: rest ≠ [] by simp)
    have hr := ih hs
    rw [List.cons_append, hbt, read, if_neg (Ne.symm ha), ← hbt, hr]
    rfl

end Quoted
