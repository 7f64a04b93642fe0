import Mathlib.Algebra.BigOperators.Group.List.Basic
import Mathlib.Algebra.Field.Basic
import Mathlib.Algebra.Field.Rat
import Mathlib.Data.Vector.Defs
import Regonf.Lib.Controller
import Regonf.Lib.RingBuffer

/-! The moving average filter of `lib/filter/ma.c`, over exact numbers. -/
namespace Regonf

open Controller RingBuffer

/-- `buf` is what has been allocated. -/
structure FilterMA (R : Type*) where
  id : ℤ
  buf : List R
  length : ℤ
  c_length : ℕ
  i : ℕ
deriving DecidableEq, Repr

namespace FilterMA

variable {R : Type*}

/-- `malloc` says what is in the new memory, if there is any. -/
def fma_init (malloc : (n : ℕ) → Option (List.Vector R n)) (id length : ℤ) (item : FilterMA R) :
    Bool × FilterMA R :=
  if length < 0 then (false, item)
  else if length = 0 then (true, { item with id, length, i := 0, c_length := 0 })
  else
    match malloc length.toNat with
    | none => (false, { item with buf := [] })
    | some buf => (true, ⟨id, buf.toList, length, 0, 0⟩)

/-- The index of the next write. -/
def next_i (item : FilterMA R) : ℕ := if item.length ≤ item.i then 0 else item.i

/-- The value that is left in `v`; `none` is an access outside of the memory. -/
def fma_calc [Field R] (v : R) (item : FilterMA R) : Option (R × FilterMA R) :=
  if item.length ≤ 0 then some (v, item)
  else if item.buf.length ≤ item.next_i then none
  else
    let buf := item.buf.set item.next_i v
    let c_length := if item.c_length < item.length then item.c_length + 1 else item.c_length
    if buf.length < c_length then none
    else
      let s := (buf.take c_length).foldl (· + ·) 0
      some (s / c_length, { item with buf, i := item.next_i + 1, c_length })

/-- The filter as a controller: a value in, a value out. -/
def step [Field R] (item : FilterMA R) (v : R) : Option (FilterMA R × List R) :=
  (fma_calc v item).map fun r => (r.2, [r.1])

/-- The arithmetic mean. -/
def mean [Field R] (l : List R) : R := l.sum / l.length

/-- A filter of length `n` whose memory held `junk`, after the inputs `xs`. -/
structure Window (junk : List R) (item : FilterMA R) (xs : List R) : Prop where
  length : item.length = junk.length
  room : item.buf.length = junk.length
  c_length : item.c_length = min xs.length junk.length
  index : item.i ≤ junk.length
  early : xs.length ≤ junk.length → item.i = xs.length
  inOrder : inOrder item.buf item.i = (junk ++ xs).rtake junk.length

namespace Window

variable {junk : List R} {item : FilterMA R} {xs : List R} (h : Window junk item xs)
include h

/-- What is summed up are the last inputs. -/
theorem perm : (item.buf.take item.c_length).Perm (xs.rtake junk.length) := by
  have hbuf := h.inOrder
  rw [rtake_append] at hbuf
  rw [h.c_length]
  rcases le_total xs.length junk.length with hle | hge
  · -- not yet full: the inputs stand in front of the index
    have hall : xs.rtake junk.length = xs := by
      rw [List.rtake, Nat.sub_eq_zero_of_le hle, List.drop_zero]
    rw [hall, RingBuffer.inOrder, h.early hle] at hbuf
    have hfront := List.append_inj_right' hbuf
      (by rw [List.length_take, h.room, min_eq_left hle])
    rw [min_eq_left hle, hfront, hall]
  · -- full: the whole buffer is the window
    rw [List.drop_eq_nil_of_le hge, List.nil_append] at hbuf
    rw [min_eq_right hge, ← hbuf, List.take_of_length_le h.room.le]
    exact (inOrder_perm item.buf item.i).symm

theorem next_i_lt (hpos : 0 < junk.length) : item.next_i < junk.length := by
  have hlength := h.length
  have hindex := h.index
  unfold next_i
  split_ifs <;> omega

/-- The index that is used holds the same window. -/
theorem inOrder_next_i :
    RingBuffer.inOrder item.buf item.next_i = (junk ++ xs).rtake junk.length := by
  rw [← h.inOrder]
  unfold next_i
  split_ifs with hend
  · -- the index is wrapped only now, which changes nothing in the order
    have hlength := h.length
    have hindex := h.index
    have hi : item.i = item.buf.length := by
      rw [h.room]
      omega
    rw [hi, inOrder_length, inOrder_zero]
  · rfl

end Window

theorem fma_init_true {malloc : (n : ℕ) → Option (List.Vector R n)} {id length : ℤ}
    {item item' : FilterMA R} (h : fma_init malloc id length item = (true, item'))
    (hpos : 0 < length) : ∃ junk : List R, junk.length = length ∧ Window junk item' [] := by
  rw [fma_init, if_neg hpos.not_gt, if_neg hpos.ne'] at h
  split at h
  · exact absurd h (by simp)
  · rename_i buf _
    have hlen : (buf.toList.length : ℤ) = length := by
      rw [List.Vector.toList_length, Int.toNat_of_nonneg hpos.le]
    cases h
    refine ⟨buf.toList, hlen, hlen.symm, rfl, (Nat.zero_min _).symm, Nat.zero_le _,
      fun _ => rfl, ?_⟩
    rw [inOrder_zero, List.append_nil, List.rtake, Nat.sub_self, List.drop_zero]

variable [Field R]

/-- An input is answered with the mean of the last inputs. -/
theorem Window.step {junk : List R} {item : FilterMA R} {xs : List R}
    (h : Window junk item xs) (hpos : 0 < junk.length) (v : R) :
    ∃ item', step item v = some (item', [mean ((xs ++ [v]).rtake junk.length)]) ∧
      Window junk item' (xs ++ [v]) := by
  have hnext := h.next_i_lt hpos
  have hc := h.c_length
  have hlength := h.length
  set c_length := if (item.c_length : ℤ) < item.length then item.c_length + 1 else item.c_length
    with hc'
  -- the filter after the write
  have hnew : Window junk { item with
      buf := item.buf.set item.next_i v, i := item.next_i + 1, c_length } (xs ++ [v]) := by
    refine ⟨h.length, by rw [List.length_set, h.room], ?_, hnext, ?_, ?_⟩
    · dsimp only
      rw [hc', List.length_append, List.length_singleton]
      split_ifs <;> omega
    · intro hle
      rw [List.length_append, List.length_singleton] at hle ⊢
      have hi := h.early (by omega)
      have : item.next_i = item.i := if_neg (by omega)
      dsimp only
      omega
    · exact inOrder_write (h.room ▸ hnext) h.room h.inOrder_next_i v
  -- what is summed up are the last inputs, and they are as many as are counted
  refine ⟨_, ?_, hnew⟩
  have hperm := hnew.perm
  have hlen := hnew.c_length
  have hroom := hnew.room
  have hcount := hperm.length_eq
  dsimp only at hperm hlen hroom hcount
  rw [List.length_take, min_eq_left (by omega)] at hcount
  rw [FilterMA.step, fma_calc, if_neg (by omega), if_neg (by rw [h.room]; omega)]
  simp only [← hc']
  rw [if_neg (by omega), Option.map_some, ← List.sum_eq_foldl, hperm.sum_eq, mean, ← hcount]

/-- A filter that `fma_init` has made answers the `k`-th input with the mean of the last `k` inputs,
or of the last `length` ones if there are more; every access is in its memory. -/
theorem fma_calc_means {malloc : (n : ℕ) → Option (List.Vector R n)} {id length : ℤ}
    {item item' : FilterMA R} (h : fma_init malloc id length item = (true, item'))
    (hpos : 0 < length) (xs : List R) : ∃ t out, run step item' xs = some (t, out) ∧
      (t.buf.length = length ∧ t.next_i < length) ∧ out.length = xs.length ∧
      ∀ k, k < xs.length →
        out[k]? = some (mean ((xs.take (k + 1)).rtake (min (k + 1) length.toNat))) := by
  obtain ⟨junk, hlen, hnew⟩ := fma_init_true h hpos
  have hjunk : 0 < junk.length := by omega
  obtain ⟨t, out, hr, ht, hout, hmeans⟩ := exists_run_answers
    (A := fun xs => mean (xs.rtake junk.length)) (I := Window junk)
    (fun _ _ v hw => hw.step hjunk v) hnew xs
  refine ⟨t, out, hr, ⟨by rw [ht.room, hlen], ?_⟩, hout, fun k hk => ?_⟩
  · have := ht.next_i_lt hjunk
    omega
  · rw [hmeans k hk, ← hlen, Int.toNat_natCast]
    congr 2
    rw [List.rtake, List.rtake, List.length_take, min_eq_left (Nat.succ_le_of_lt hk)]
    congr 1
    omega

/-- The last theorem for three inputs to a filter of two values. -/
theorem fma_calc_means_two : ∃ t out,
    run step (⟨7, [9, 9], 2, 0, 0⟩ : FilterMA ℚ) [1, 3, 6] = some (t, out) ∧
      (t.buf.length = (2 : ℤ) ∧ t.next_i < (2 : ℤ)) ∧ out.length = 3 ∧
      ∀ k, k < 3 →
        out[k]? = some (mean (([1, 3, 6].take (k + 1)).rtake (min (k + 1) (2 : ℤ).toNat))) :=
  fma_calc_means (show fma_init (fun n => some (List.Vector.replicate n (9 : ℚ))) 7 2
    ⟨0, [], 0, 0, 0⟩ = (true, ⟨7, [9, 9], 2, 0, 0⟩) from rfl) (by decide) [1, 3, 6]

end FilterMA

end Regonf
