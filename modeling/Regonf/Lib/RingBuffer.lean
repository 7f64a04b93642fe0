import Mathlib.Data.List.DropRight
import Mathlib.Tactic.Common

/-! A buffer that is written round and round: what it holds is a window on what was written. -/
namespace RingBuffer

variable {α : Type*}

/-- The cells from the oldest on, when the next write is at `p`. -/
def inOrder (buf : List α) (p : ℕ) : List α := buf.drop p ++ buf.take p

theorem inOrder_perm (buf : List α) (p : ℕ) : (inOrder buf p).Perm buf := by
  have h : (inOrder buf p).Perm (buf.take p ++ buf.drop p) := List.perm_append_comm
  rwa [List.take_append_drop] at h

@[simp] theorem inOrder_zero (buf : List α) : inOrder buf 0 = buf := by simp [inOrder]

/-- Behind the last cell is the first one. -/
@[simp] theorem inOrder_length (buf : List α) : inOrder buf buf.length = buf := by simp [inOrder]

theorem inOrder_replicate (a : α) {n p : ℕ} (h : p ≤ n) :
    inOrder (List.replicate n a) p = List.replicate n a := by
  rw [inOrder, List.drop_replicate, List.take_replicate, List.replicate_append_replicate]
  congr 1
  omega

/-- A write drops the oldest cell and comes behind the newest. -/
theorem inOrder_set {buf : List α} {p : ℕ} (h : p < buf.length) (x : α) :
    inOrder (buf.set p x) (p + 1) = (inOrder buf p).tail ++ [x] := by
  have htake : (buf.set p x).take (p + 1) = buf.take p ++ [x] := by
    rw [List.take_succ_eq_append_getElem (by simpa using h), List.take_set, List.getElem_set_self,
      List.set_eq_of_length_le (List.length_take_le _ _)]
  have hdrop : (buf.set p x).drop (p + 1) = buf.drop (p + 1) :=
    List.drop_set_of_lt (Nat.lt_succ_self p)
  rw [inOrder, htake, hdrop, inOrder, List.drop_eq_getElem_cons h, List.cons_append,
    List.tail_cons, List.append_assoc]

/-- The window of the last `n` moves on. -/
theorem tail_rtake_concat {l : List α} {n : ℕ} (hn : 0 < n) (hl : n ≤ l.length) (x : α) :
    (l.rtake n).tail ++ [x] = (l ++ [x]).rtake n := by
  rw [List.rtake, List.rtake, List.tail_drop, List.length_append, List.length_singleton,
    ← List.drop_append_of_le_length (by omega)]
  congr 1
  omega

/-- The window on what was there and what was written behind it. -/
theorem rtake_append (a xs : List α) :
    (a ++ xs).rtake a.length = a.drop xs.length ++ xs.rtake a.length := by
  rw [List.rtake, List.rtake, List.length_append, List.drop_append]
  congr 2 <;> omega

/-- Writes one behind the other, in a buffer that was `a` in order, hold the last ones. -/
theorem inOrder_write {a buf xs : List α} {p : ℕ} (hp : p < buf.length)
    (hlen : buf.length = a.length) (h : inOrder buf p = (a ++ xs).rtake a.length) (x : α) :
    inOrder (buf.set p x) (p + 1) = (a ++ (xs ++ [x])).rtake a.length := by
  rw [inOrder_set hp, h, tail_rtake_concat (by omega) (by simp), List.append_assoc]

end RingBuffer
