import Mathlib.Dynamics.PeriodicPts.Lemmas
import Regonf.Lib.BoundedQueue

/-! The ring of `FUN_FIFO_PUSH` and `FUN_FIFO_POP` of `lib/dstructure_auto.h`. The items lie at
the addresses of a memory; NULL is `none`. -/
namespace Regonf

open BoundedQueue Controller

variable {T Addr : Type*}

structure FIFOItem (T Addr : Type*) where
  data : T
  free : Bool
  next : Addr

structure FIFOItemList (T Addr : Type*) where
  item : Addr → FIFOItem T Addr
  push_item : Option Addr
  pop_item : Option Addr

namespace FIFOItemList

def next (list : FIFOItemList T Addr) (a : Addr) : Addr := (list.item a).next

section
variable [DecidableEq Addr]

/-- `FUN_FIFO_PUSH`; `lock` is the result of `lockMutex`. -/
def fifo_push (lock : Bool) (item : T) (list : FIFOItemList T Addr) :
    Bool × FIFOItemList T Addr :=
  if !lock then (false, list)
  else match list.push_item with
  | none => (false, list)
  | some p =>
    let list := { list with
      item := Function.update list.item p { list.item p with data := item, free := false } }
    -- a queue that was empty has its oldest value here
    let list := { list with pop_item := list.pop_item.or (some p) }
    (true, { list with
      push_item := if (list.item (list.next p)).free then some (list.next p) else none })

/-- `FUN_FIFO_POP`: the value where it returns 1. -/
def fifo_pop (lock : Bool) (list : FIFOItemList T Addr) : Option T × FIFOItemList T Addr :=
  if !lock then (none, list)
  else match list.pop_item with
  | none => (none, list)
  | some p =>
    let value := (list.item p).data
    let list := { list with
      item := Function.update list.item p { list.item p with free := true } }
    -- a ring that was full has its only free item here
    let list := { list with push_item := list.push_item.or (some p) }
    (some value, { list with
      pop_item := if !(list.item (list.next p)).free then some (list.next p) else none })

/-- A call that gets the mutex. -/
def call (list : FIFOItemList T Addr) : Op T → FIFOItemList T Addr × Answer T
  | .push v => ((fifo_push true v list).2, .pushed (fifo_push true v list).1)
  | .pop => ((fifo_pop true list).2, .popped (fifo_pop true list).1)

end

/-- The values `q` lie in a ring of `N` items that are linked by `next`, from `p` on. -/
structure Cells (N : ℕ) (list : FIFOItemList T Addr) (q : List T) (p : Addr) : Prop where
  ring : Function.minimalPeriod list.next p = N
  room : q.length ≤ N
  stored : ∀ i v, q[i]? = some v →
    (list.item (list.next^[i] p)).data = v ∧ (list.item (list.next^[i] p)).free = false
  free : ∀ i, q.length ≤ i → i < N → (list.item (list.next^[i] p)).free = true

/-- `push_item` is behind the values and `pop_item` is the oldest, with NULL for a full ring and for
an empty one. -/
structure Stores (N : ℕ) (list : FIFOItemList T Addr) (q : List T) (p : Addr) : Prop
    extends Cells N list q p where
  push_item : list.push_item = if q.length < N then some (list.next^[q.length] p) else none
  pop_item : list.pop_item = if q = [] then none else some p

/-- The initial state of the macros: a ring of `N` free items. -/
structure Empty (N : ℕ) (list : FIFOItemList T Addr) (p : Addr) : Prop where
  pos : 0 < N
  ring : Function.minimalPeriod list.next p = N
  free : ∀ i, (list.item (list.next^[i] p)).free = true
  push_item : list.push_item = some p
  pop_item : list.pop_item = none

theorem Empty.stores {N : ℕ} {list : FIFOItemList T Addr} {p : Addr} (h : Empty N list p) :
    Stores N list [] p where
  ring := h.ring
  room := Nat.zero_le N
  stored := by simp
  free i _ _ := h.free i
  push_item := h.push_item.trans (if_pos h.pos).symm
  pop_item := h.pop_item

namespace Cells

variable {N : ℕ} {list : FIFOItemList T Addr} {q : List T} {p : Addr} (h : Cells N list q p)
include h

theorem iterate_inj {i j : ℕ} (hi : i < N) (hj : j < N) :
    list.next^[i] p = list.next^[j] p ↔ i = j :=
  Function.iterate_eq_iterate_iff_of_lt_minimalPeriod (h.ring.symm ▸ hi) (h.ring.symm ▸ hj)

/-- The ring is closed. -/
theorem iterate_N : list.next^[N] p = p := by
  conv_lhs => rw [← h.ring]
  exact Function.iterate_minimalPeriod

theorem free_zero (hN : 0 < N) : (list.item p).free = decide (q = []) := by
  cases hq : q with
  | nil => exact h.free 0 (by simp [hq]) hN
  | cons v q' => exact (h.stored 0 v (by simp [hq])).2

/-- The item behind the values is free, unless it is the oldest of them. -/
theorem free_length (hq : q ≠ []) :
    (list.item (list.next^[q.length] p)).free = decide (q.length < N) := by
  -- in a full ring it is the oldest one, which is not free
  by_cases hlt : q.length < N
  · rw [h.free q.length le_rfl hlt, decide_eq_true hlt]
  · have hN : q.length = N := le_antisymm h.room (not_lt.mp hlt)
    have hpos : 0 < N := hN ▸ List.length_pos_iff.mpr hq
    rw [hN, h.iterate_N, h.free_zero hpos, decide_eq_false hq]
    simp

end Cells

variable [DecidableEq Addr]

/-- A new record with the same link at one address. -/
theorem next_update (list : FIFOItemList T Addr) {a : Addr} {x : FIFOItem T Addr}
    (hx : x.next = list.next a) (push_item pop_item : Option Addr) :
    (⟨Function.update list.item a x, push_item, pop_item⟩ : FIFOItemList T Addr).next =
      list.next := by
  funext b
  by_cases hb : b = a
  · subst hb
    simpa [next] using hx
  · simp [next, hb]

namespace Cells

variable {N : ℕ} {list : FIFOItemList T Addr} {q : List T} {p : Addr} (h : Cells N list q p)
include h

/-- A value behind the others. -/
theorem push (hlt : q.length < N) (v : T) (push_item pop_item : Option Addr) :
    Cells N ⟨Function.update list.item (list.next^[q.length] p)
      { list.item (list.next^[q.length] p) with data := v, free := false },
      push_item, pop_item⟩ (q ++ [v]) p := by
  have hnext := next_update list (a := list.next^[q.length] p)
    (x := { list.item (list.next^[q.length] p) with data := v, free := false }) rfl
    push_item pop_item
  have hother {i : ℕ} (hi : i < N) (hne : i ≠ q.length) :
      list.next^[i] p ≠ list.next^[q.length] p := mt (h.iterate_inj hi hlt).mp hne
  constructor
  · rw [hnext]
    exact h.ring
  · rw [List.length_append, List.length_singleton]
    exact hlt
  · intro i w hw
    rw [hnext]
    dsimp only
    -- the values before, and the new one behind them
    rcases lt_or_ge i q.length with hi | hi
    · rw [List.getElem?_append_left hi] at hw
      rw [Function.update_of_ne (hother (hi.trans hlt) hi.ne)]
      exact h.stored i w hw
    · obtain ⟨hi', hv⟩ := List.getElem?_eq_some_iff.mp hw
      rw [List.length_append, List.length_singleton] at hi'
      obtain rfl : i = q.length := by omega
      rw [Function.update_self]
      exact ⟨by simpa using hv, rfl⟩
  · intro i hi hN
    rw [List.length_append, List.length_singleton] at hi
    rw [hnext]
    dsimp only
    rw [Function.update_of_ne (hother hN (by omega))]
    exact h.free i (by omega) hN

end Cells

/-- The oldest value out of the ring; its item is free, behind all the others. -/
theorem Cells.pop {N : ℕ} {list : FIFOItemList T Addr} {v : T} {q : List T} {p : Addr}
    (h : Cells N list (v :: q) p) (push_item pop_item : Option Addr) :
    Cells N ⟨Function.update list.item p { list.item p with free := true }, push_item, pop_item⟩
      q (list.next p) := by
  have hnext := next_update list (a := p) (x := { list.item p with free := true }) rfl
    push_item pop_item
  have hroom : q.length < N := h.room
  have hother {i : ℕ} (hi : i + 1 < N) : list.next^[i + 1] p ≠ p :=
    mt (h.iterate_inj (j := 0) hi (by omega)).mp (Nat.succ_ne_zero i)
  constructor
  -- the ring is the same from its second item on
  · rw [hnext, Function.minimalPeriod_apply, h.ring]
    exact Function.minimalPeriod_pos_iff_mem_periodicPts.mp (h.ring ▸ Nat.zero_lt_of_lt hroom)
  · exact hroom.le
  · intro i w hw
    obtain ⟨hi, -⟩ := List.getElem?_eq_some_iff.mp hw
    rw [hnext, ← Function.iterate_succ_apply]
    dsimp only
    rw [Function.update_of_ne (hother (by omega))]
    exact h.stored (i + 1) w (by simpa using hw)
  · intro i hi hN
    rw [hnext, ← Function.iterate_succ_apply]
    dsimp only
    rcases lt_or_ge (i + 1) N with hlt | hge
    · rw [Function.update_of_ne (hother hlt)]
      exact h.free (i + 1) (Nat.succ_le_succ hi) hlt
    · -- once round the ring is the item that has just been popped
      obtain rfl : N = i + 1 := by omega
      rw [h.iterate_N, Function.update_self]

namespace Stores

variable {N : ℕ} {list : FIFOItemList T Addr} {q : List T} {p : Addr} (h : Stores N list q p)
include h

theorem push_full (hfull : ¬q.length < N) (v : T) : fifo_push true v list = (false, list) := by
  have hpush := h.push_item
  rw [if_neg hfull] at hpush
  simp [fifo_push, hpush]

theorem push (hlt : q.length < N) (v : T) :
    (fifo_push true v list).1 = true ∧ Stores N (fifo_push true v list).2 (q ++ [v]) p := by
  have hpush := h.push_item
  rw [if_pos hlt] at hpush
  have hcells := h.toCells.push hlt v
  have hnext := next_update list (a := list.next^[q.length] p)
    (x := { list.item (list.next^[q.length] p) with data := v, free := false }) rfl
  unfold fifo_push
  rw [hpush]
  simp only [Bool.not_true, Bool.false_eq_true, if_false, hnext]
  refine ⟨trivial, hcells _ _, ?_, ?_⟩
  -- the new `push_item` is NULL exactly if the item behind the new value is not free
  · have hfree := (hcells none none).free_length (by simp)
    rw [hnext, List.length_append, List.length_singleton, Function.iterate_succ_apply'] at hfree
    dsimp only at hfree
    rw [hnext, List.length_append, List.length_singleton, Function.iterate_succ_apply']
    simp only [hfree, decide_eq_true_eq]
  · dsimp only
    rw [h.pop_item, if_neg (List.append_ne_nil_of_right_ne_nil _ (by simp))]
    by_cases hq : q = []
    · simp [hq]
    · simp [hq]

end Stores

theorem Stores.pop_empty {N : ℕ} {list : FIFOItemList T Addr} {p : Addr}
    (h : Stores N list [] p) : fifo_pop true list = (none, list) := by
  have hpop := h.pop_item
  rw [if_pos rfl] at hpop
  simp [fifo_pop, hpop]

theorem Stores.pop {N : ℕ} {list : FIFOItemList T Addr} {v : T} {q : List T} {p : Addr}
    (h : Stores N list (v :: q) p) :
    (fifo_pop true list).1 = some v ∧ Stores N (fifo_pop true list).2 q (list.next p) := by
  have hpop := h.pop_item
  rw [if_neg (by simp)] at hpop
  have hcells := h.toCells.pop
  have hnext := next_update list (a := p) (x := { list.item p with free := true }) rfl
  have hroom : q.length < N := h.room
  unfold fifo_pop
  rw [hpop]
  simp only [Bool.not_true, Bool.false_eq_true, if_false, hnext]
  refine ⟨congrArg some (h.stored 0 v rfl).1, hcells _ _, ?_, ?_⟩
  · simp only [hnext]
    rw [if_pos hroom, h.push_item, ← Function.iterate_succ_apply]
    split_ifs with hlt
    · rfl
    · -- the ring was full: the item that was popped is the one to push to
      have hN : N = q.length + 1 := le_antisymm (not_lt.mp hlt) h.room
      have hround := h.iterate_N
      rw [hN] at hround
      simp [hround]
  -- the new `pop_item` is NULL exactly if the next item is free, that is, nothing is stored
  · have hfree := (hcells none none).free_zero (Nat.zero_lt_of_lt hroom)
    dsimp only at hfree
    simp only [hfree]
    by_cases hq : q = []
    · simp [hq]
    · simp [hq]

/-- A call does what the bounded queue does. -/
theorem call_simulates {N : ℕ} {list : FIFOItemList T Addr} {q : List T}
    (h : ∃ p, Stores N list q p) (op : Op T) :
    (∃ p, Stores N (call list op).1 (step N q op).1 p) ∧ (call list op).2 = (step N q op).2 := by
  obtain ⟨p, h⟩ := h
  cases op with
  | push v =>
    by_cases hlt : q.length < N
    · obtain ⟨hok, hs⟩ := h.push hlt v
      rw [step, if_pos hlt, call, hok]
      exact ⟨⟨p, hs⟩, rfl⟩
    · rw [step, if_neg hlt, call, h.push_full hlt v]
      exact ⟨⟨p, h⟩, rfl⟩
  | pop =>
    cases q with
    | nil =>
      rw [call, h.pop_empty]
      exact ⟨⟨p, h⟩, rfl⟩
    | cons v q =>
      obtain ⟨hv, hs⟩ := h.pop
      rw [call, hv]
      exact ⟨⟨_, hs⟩, rfl⟩

/-- On a ring of `N` items every sequence of calls answers as the queue of capacity `N`: what was
pushed with success is what was popped and what is stored, in this order. -/
theorem fifo_bounded_queue {N : ℕ} {list : FIFOItemList T Addr} {p : Addr} (h : Empty N list p)
    (ops : List (Op T)) : ∃ t q as, run (total call) list ops = some (t, as) ∧
      run (total (step N)) [] ops = some (q, as) ∧
      accepted ops as = delivered as ++ q ∧ q.length ≤ N := by
  obtain ⟨t, q, as, hrun, hqueue, -⟩ := run_total_simulates
    (S := fun list q => ∃ p, Stores N list q p) (fun _ _ op hs => call_simulates hs op)
    ⟨p, h.stores⟩ ops
  exact ⟨t, q, as, hrun, hqueue, run_conserves hqueue, run_length hqueue (Nat.zero_le N)⟩

/-- Three items, each linked to the next one around. -/
def threeItems : FIFOItemList ℕ (Fin 3) := ⟨fun a => ⟨0, true, a + 1⟩, some 0, none⟩

theorem threeItems_empty : Empty 3 threeItems 0 := by
  have : Fact (Nat.Prime 3) := ⟨Nat.prime_three⟩
  have hperiod : Function.IsPeriodicPt threeItems.next 3 0 := rfl
  have hfixed : ¬Function.IsFixedPt threeItems.next 0 := by decide
  exact ⟨by decide, Function.minimalPeriod_eq_prime hperiod hfixed, fun _ => rfl, rfl, rfl⟩

/-- The last theorem for this ring, and for calls that fill it, go around it and empty it: the
fourth push fails, and so does the last pop. -/
theorem fifo_bounded_queue_example :
    let ops : List (Op ℕ) := [.pop, .push 7, .push 8, .push 9, .push 10, .pop, .pop, .push 11,
      .pop, .pop, .pop]
    ∃ t q as, run (total call) threeItems ops = some (t, as) ∧
      run (total (step 3)) [] ops = some (q, as) ∧ accepted ops as = delivered as ++ q ∧
      q.length ≤ 3 :=
  fifo_bounded_queue threeItems_empty _

end FIFOItemList

end Regonf
