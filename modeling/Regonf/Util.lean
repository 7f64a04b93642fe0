import Mathlib.Data.List.Basic
import Regonf.Lib.Blocks
import Regonf.Tsv

/-! `estostr` of `lib/util.c`, which replaces the escape sequences of a string. -/
namespace Regonf.Util

open Tsv

def CR : UInt8 := 13
def BACKSLASH : UInt8 := 92

/-- The `switch` behind a backslash: the bytes that are written. A backslash itself does not get
there, see `estostrStep`. -/
def expand (c : UInt8) : List UInt8 :=
  if c = 110 then [NL]
  else if c = 114 then [CR]
  else if c = 116 then [TAB]
  else if c = 48 then [0]
  else if c = BACKSLASH then [BACKSLASH]
  else [BACKSLASH, c]

/-- The work buffer, the index of the next write, and whether there is a backslash before. -/
structure Work where
  ss : List UInt8
  j : ℕ
  f : Bool
deriving DecidableEq, Repr

/-- `ss[j] = c; j++`; `none` is a write outside of the buffer. -/
def put (c : UInt8) (w : Work) : Option Work :=
  if w.j < w.ss.length then some { w with ss := w.ss.set w.j c, j := w.j + 1 } else none

/-- The byte `s[i]`. A backslash is noted also behind another one. -/
def estostrStep (c : UInt8) (w : Work) : Option Work :=
  if c = BACKSLASH then some { w with f := true }
  else if w.f then ((expand c).foldlM (fun w c => put c w) w).map fun w => { w with f := false }
  else put c w

/-- The loop, over the bytes from index `i` on. -/
def estostrLoop : List UInt8 → ℕ → Work → Option Work
  | [], _, w => some w
  | c :: s, i, w => (estostrStep c w).bind fun w => (incr i).bind fun i => estostrLoop s i w

/-- The string that is left in `s`, which has no NUL. -/
def estostr (s : List UInt8) : Option (List UInt8) :=
  (estostrLoop (s ++ [0]) 0 ⟨List.replicate (s.length + 1) 0, 0, false⟩).bind fun w =>
    cString w.ss

/-- What the loop writes, when there is a backslash before or not. -/
def decode : Bool → List UInt8 → List UInt8
  | _, [] => []
  | f, c :: s =>
    if c = BACKSLASH then decode true s
    else (if f then expand c else [c]) ++ decode false s

theorem length_expand (c : UInt8) : (expand c).length ≤ 2 := by
  unfold expand
  split_ifs <;> simp

theorem decode_backslash (f : Bool) (s : List UInt8) :
    decode f (BACKSLASH :: s) = decode true s := if_pos rfl

theorem decode_cons {c : UInt8} (hc : c ≠ BACKSLASH) (f : Bool) (s : List UInt8) :
    decode f (c :: s) = (if f then expand c else [c]) ++ decode false s := if_neg hc

/-- A byte is written for every byte that is read, and one more for a backslash before. -/
theorem length_decode (f : Bool) (s : List UInt8) :
    (decode f s).length ≤ s.length + f.toNat := by
  induction s generalizing f with
  | nil => exact Nat.zero_le _
  | cons c s ih =>
    by_cases hc : c = BACKSLASH
    · have htrue : (decode true s).length ≤ s.length + 1 := ih true
      rw [hc, decode_backslash, List.length_cons]
      omega
    · have hfalse : (decode false s).length ≤ s.length := ih false
      have hexpand := length_expand c
      rw [decode_cons hc, List.length_append, List.length_cons]
      cases f with
      | false =>
        rw [if_neg Bool.false_ne_true, List.length_singleton, Bool.toNat_false]
        omega
      | true =>
        rw [if_pos rfl, Bool.toNat_true]
        omega

theorem put_eq (c : UInt8) (front : List UInt8) (b : UInt8) (rest : List UInt8) (f : Bool) :
    put c ⟨front ++ b :: rest, front.length, f⟩ =
      some ⟨(front ++ [c]) ++ rest, (front ++ [c]).length, f⟩ := by
  have hlt : front.length < (front ++ b :: rest).length := by simp
  rw [put, if_pos hlt]
  simp

/-- Bytes that fit are written behind what is there. -/
theorem put_all (l front rest : List UInt8) (f : Bool) (h : l.length ≤ rest.length) :
    l.foldlM (fun w c => put c w) ⟨front ++ rest, front.length, f⟩ =
      some ⟨(front ++ l) ++ rest.drop l.length, (front ++ l).length, f⟩ := by
  induction l generalizing front rest with
  | nil => simp
  | cons c l ih =>
    cases rest with
    | nil => exact absurd h (Nat.not_succ_le_zero _)
    | cons b rest =>
      -- the byte that is written comes to the front
      have hrest := ih (front ++ [c]) rest (Nat.le_of_succ_le_succ h)
      rw [List.foldlM_cons, put_eq]
      simpa using hrest

theorem estostrStep_eq (front : List UInt8) {c : UInt8} {f : Bool} {s rest : List UInt8}
    (h : (decode f (c :: s)).length ≤ rest.length) : ∃ l f',
      estostrStep c ⟨front ++ rest, front.length, f⟩ =
        some ⟨(front ++ l) ++ rest.drop l.length, (front ++ l).length, f'⟩ ∧
      decode f (c :: s) = l ++ decode f' s := by
  by_cases hc : c = BACKSLASH
  · refine ⟨[], true, ?_, by rw [hc, decode_backslash]; rfl⟩
    rw [estostrStep, if_pos hc]
    simp
  · rw [decode_cons hc] at h
    cases f with
    | false =>
      refine ⟨[c], false, ?_, by rw [decode_cons hc]; rfl⟩
      have hput := put_all [c] front rest false (by
        rw [List.length_append] at h
        exact (Nat.le_add_right _ _).trans h)
      rw [estostrStep, if_neg hc, if_neg Bool.false_ne_true]
      simpa using hput
    | true =>
      -- the backslash before is written only now, if it is
      refine ⟨expand c, false, ?_, by rw [decode_cons hc]; rfl⟩
      have hput := put_all (expand c) front rest true (by
        rw [List.length_append] at h
        exact (Nat.le_add_right _ _).trans h)
      rw [estostrStep, if_neg hc, if_pos rfl, hput]
      rfl

/-- In a buffer with room the loop writes what `decode` says, unless `i` overflows. -/
theorem estostrLoop_eq (front : List UInt8) {s : List UInt8} {i : ℕ} {f : Bool}
    {rest : List UInt8} (h : (decode f s).length ≤ rest.length)
    (hi : i + s.length ≤ INT_MAX) : ∃ f',
      estostrLoop s i ⟨front ++ rest, front.length, f⟩ =
        some ⟨(front ++ decode f s) ++ rest.drop (decode f s).length,
          (front ++ decode f s).length, f'⟩ := by
  induction s generalizing i f front rest with
  | nil => exact ⟨f, by simp [estostrLoop, decode]⟩
  | cons c s ih =>
    rw [List.length_cons] at hi
    obtain ⟨l, f', hstep, hdecode⟩ := estostrStep_eq front h
    rw [hdecode, List.length_append] at h
    have hroom : (decode f' s).length ≤ (rest.drop l.length).length := by
      rw [List.length_drop]
      omega
    have hincr : incr i = some (i + 1) := if_pos (by omega)
    obtain ⟨f'', hloop⟩ := ih (i := i + 1) (front ++ l) hroom (by omega)
    refine ⟨f'', ?_⟩
    rw [estostrLoop, hstep, Option.bind_some, hincr, Option.bind_some, hloop, hdecode]
    simp [List.append_assoc]

theorem estostrLoop_none {s : List UInt8} {i : ℕ} (h0 : i ≤ INT_MAX)
    (hi : INT_MAX < i + s.length) (w : Work) : estostrLoop s i w = none := by
  induction s generalizing i w with
  | nil => exact absurd hi (by simpa using h0)
  | cons c s ih =>
    rw [List.length_cons] at hi
    rw [estostrLoop]
    rcases estostrStep c w with _ | w'
    · rfl
    · rw [Option.bind_some]
      by_cases hlt : i < INT_MAX
      · have hincr : incr i = some (i + 1) := if_pos hlt
        rw [hincr, Option.bind_some]
        exact ih hlt (by omega) w'
      · have hincr : incr i = none := if_neg hlt
        rw [hincr]
        rfl

/-- The terminator is written last. -/
theorem zero_mem_decode (f : Bool) (s : List UInt8) : 0 ∈ decode f (s ++ [0]) := by
  induction s generalizing f with
  | nil => cases f <;> decide
  | cons c s ih =>
    by_cases hc : c = BACKSLASH
    · rw [hc, List.cons_append, decode_backslash]
      exact ih true
    · rw [List.cons_append, decode_cons hc]
      exact List.mem_append_right _ (ih false)

/-- All writes are in the buffer. The string that is left ends at the first NUL that is written. -/
theorem estostr_eq {s : List UInt8} (h : s.length < INT_MAX) :
    estostr s = some ((decode false (s ++ [0])).takeWhile (· ≠ 0)) := by
  have hlen : (decode false (s ++ [0])).length ≤
      (List.replicate (s.length + 1) (0 : UInt8)).length := by
    have := length_decode false (s ++ [0])
    simpa using this
  have hi : 0 + (s ++ [0]).length ≤ INT_MAX := by
    rw [List.length_append, List.length_singleton]
    omega
  obtain ⟨f', hloop⟩ := estostrLoop_eq [] hlen hi
  have hmem := zero_mem_decode false s
  have hwork : estostrLoop (s ++ [0]) 0 ⟨List.replicate (s.length + 1) 0, 0, false⟩ = _ := hloop
  -- what is behind the first NUL is not read
  have hall : ((decode false (s ++ [0])).takeWhile (· ≠ 0)).length ≠
      (decode false (s ++ [0])).length := by
    intro heq
    have hself := (List.takeWhile_prefix _).eq_of_length heq
    exact Blocks.not_mem_takeWhile_ne (decode false (s ++ [0])) (hself.symm ▸ hmem)
  rw [estostr, hwork, Option.bind_some, cString]
  rw [List.nil_append, if_pos (List.mem_append_left _ hmem), List.takeWhile_append, if_neg hall]

theorem estostr_none {s : List UInt8} (h : INT_MAX ≤ s.length) : estostr s = none := by
  rw [estostr, estostrLoop_none (Nat.zero_le _) (by simp; omega)]
  rfl

end Regonf.Util
