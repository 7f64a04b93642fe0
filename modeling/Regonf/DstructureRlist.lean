import Mathlib.Algebra.Order.Ring.Nat
import Regonf.Lib.Controller
import Regonf.Lib.RingBuffer

/-! The round list of `lib/dstructure_auto.h`. Its write index is not reset with the list. -/
namespace Regonf

open Controller RingBuffer

/-- `item` is what has been allocated. -/
structure RList (T : Type*) where
  item : List T
  next_ind : ℕ
  length : ℕ
deriving DecidableEq, Repr

namespace RList

variable {T : Type*}

/-- `FUN_RLIST_PUSH`; `none` is a write outside of the memory. -/
def push (value : T) (list : RList T) : Option (RList T) :=
  if list.length = 0 then some list
  else if list.next_ind < list.item.length then
    some { list with
      item := list.item.set list.next_ind value
      next_ind := if list.next_ind < list.length - 1 then list.next_ind + 1 else 0 }
  else none

theorem push_zero {list : RList T} (h : list.length = 0) (value : T) :
    push value list = some list := if_pos h

/-- `FREE_RLIST` -/
def freeRList (list : RList T) : RList T := { list with item := [], length := 0 }

inductive Call (T : Type*) where
  | init (mem : Bool) (n : ℕ)
  | push (value : T)
  | free
deriving DecidableEq, Repr

/-- The values that were pushed since the last `init`. -/
def pushedSince (pushed : List T) (_ : RList T) : Call T → List T
  | .init _ _ => []
  | .push value => pushed ++ [value]
  | .free => pushed

/-- A push stores in the list. -/
def InBounds (list : RList T) : Prop := 0 < list.length → list.next_ind < list.length

instance (list : RList T) : Decidable (InBounds list) :=
  inferInstanceAs (Decidable (0 < list.length → list.next_ind < list.length))

/-- A new list that gets its memory is longer than the index that the old one has left. -/
def IndexFits (list : RList T) : Call T → Prop
  | .init mem n => mem = true → n ≠ 0 → list.next_ind < n
  | _ => True

variable [Zero T]

/-- `FUN_RLIST_INIT`; `mem` says whether `calloc` has the memory. -/
def init (mem : Bool) (n : ℕ) (list : RList T) : Bool × RList T :=
  let list := { list with length := 0, item := [] }
  if n = 0 then (true, list)
  else if !mem then (false, list)
  else (true, { list with item := List.replicate n 0, length := n })

def call (list : RList T) : Call T → Option (RList T × List Unit)
  | .init mem n => some ((init mem n list).2, [])
  | .push value => (push value list).map fun list => (list, [])
  | .free => some (freeRList list, [])

/-- The list holds the values pushed last, as many as it has room for, and 0 where no value came. -/
def Newest (list : RList T) (pushed : List T) : Prop :=
  list.item.Perm (List.replicate (list.length - pushed.length) 0 ++ pushed.rtake list.length)

/-- From the next index on the list is the window on its zeros and the values behind them. -/
structure Window (s : RList T × List T) : Prop where
  room : s.1.item.length = s.1.length
  inBounds : InBounds s.1
  inOrder : inOrder s.1.item s.1.next_ind =
    (List.replicate s.1.length 0 ++ s.2).rtake s.1.length

/-- A list without memory. -/
theorem window_empty (next_ind : ℕ) (pushed : List T) : Window (⟨[], next_ind, 0⟩, pushed) := by
  refine ⟨rfl, fun h => absurd h (lt_irrefl 0), ?_⟩
  rw [RingBuffer.inOrder]
  simp

theorem Window.newest {s : RList T × List T} (h : Window s) : Newest s.1 s.2 := by
  have hsplit := rtake_append (List.replicate s.1.length (0 : T)) s.2
  rw [List.length_replicate, List.drop_replicate] at hsplit
  have hperm := inOrder_perm s.1.item s.1.next_ind
  rw [h.inOrder, hsplit] at hperm
  exact hperm.symm

/-- A new list whose index is in it. -/
theorem window_init {next_ind n : ℕ} (h : next_ind < n) :
    Window (⟨List.replicate n (0 : T), next_ind, n⟩, []) where
  room := List.length_replicate
  inBounds := fun _ => h
  inOrder := by
    have hlen : (List.replicate n (0 : T)).rtake n = List.replicate n 0 := by simp [List.rtake]
    rw [List.append_nil, hlen]
    exact inOrder_replicate 0 h.le

/-- A push goes on with the window; behind the last index comes the first one. -/
theorem Window.push {list : RList T} {pushed : List T} (h : Window (list, pushed)) (value : T) :
    ∃ list', list.push value = some list' ∧ Window (list', pushed ++ [value]) := by
  rcases Nat.eq_zero_or_pos list.length with hzero | hpos
  · -- nothing is stored, and nothing is to be stored
    refine ⟨list, push_zero hzero value, h.room, h.inBounds, ?_⟩
    have hnil : list.item = [] := List.length_eq_zero_iff.mp (h.room.trans hzero)
    dsimp only
    rw [hzero, hnil, RingBuffer.inOrder]
    simp
  · have hroom : list.item.length = list.length := h.room
    have hind : list.next_ind < list.length := h.inBounds hpos
    -- the zeros of `calloc` are what was written first
    have hwrite := inOrder_write (a := List.replicate list.length (0 : T)) (hroom ▸ hind)
      (by rw [List.length_replicate, hroom])
      (by rw [List.length_replicate]; exact h.inOrder) value
    rw [List.length_replicate] at hwrite
    refine ⟨_, by rw [RList.push, if_neg hpos.ne', if_pos (hroom ▸ hind)], ?_, ?_, ?_⟩
    · rw [List.length_set, hroom]
    · intro _
      dsimp only
      split_ifs <;> omega
    · dsimp only
      split_ifs with hlast
      · exact hwrite
      · -- the index behind the last one is the same as the first
        have hend : list.next_ind + 1 = (list.item.set list.next_ind value).length := by
          rw [List.length_set]
          omega
        rw [hend, inOrder_length] at hwrite
        rw [inOrder_zero, hwrite]

/-- A new list without memory, or one with it. -/
theorem init_cases (mem : Bool) (n : ℕ) (list : RList T) :
    (init mem n list).2 = ⟨[], list.next_ind, 0⟩ ∨
      mem = true ∧ n ≠ 0 ∧ (init mem n list).2 = ⟨List.replicate n 0, list.next_ind, n⟩ := by
  unfold init
  split_ifs with hn hmem
  · exact .inl rfl
  · exact .inl rfl
  · exact .inr ⟨by simpa using hmem, hn, rfl⟩

/-- A call is defined on a window. It keeps one if the index fits, and leaves it if not. -/
theorem call_window {s : RList T × List T} (h : Window s) (c : Call T) :
    ∃ s' out, observe call pushedSince s c = some (s', out) ∧ (IndexFits s.1 c → Window s') ∧
      (Newest s'.1 s'.2 ∧ InBounds s'.1 → IndexFits s.1 c) := by
  obtain ⟨list, pushed⟩ := s
  cases c with
  | init mem n =>
    refine ⟨((init mem n list).2, []), [], rfl, ?_, ?_⟩
    · intro hfits
      rcases init_cases mem n list with hnone | ⟨hmem, hn, hnew⟩
      · rw [hnone]
        exact window_empty _ _
      · rw [hnew]
        exact window_init (hfits hmem hn)
    · -- the index of the new list is the one that the old list has left
      rintro ⟨-, hbounds⟩ hmem hn
      rw [init, if_neg hn, hmem] at hbounds
      exact hbounds (Nat.pos_of_ne_zero hn)
  | push value =>
    obtain ⟨list', hpush, hwindow⟩ := h.push value
    refine ⟨(list', pushed ++ [value]), [], ?_, fun _ => hwindow, fun _ => trivial⟩
    rw [observe, call, hpush]
    rfl
  | free => exact ⟨_, [], rfl, fun _ => window_empty _ _, fun _ => trivial⟩

/-- After every call the list holds the newest values and the next push is in bounds, exactly if
each list that gets its memory is longer than the index that it finds. -/
theorem newest_iff_indexFits (cs : List (Call T)) :
    Along (observe call pushedSince) (fun s _ c => IndexFits s.1 c) (⟨[], 0, 0⟩, []) [] cs ↔
      ∀ js, js <+: cs → ∃ t out,
        run (observe call pushedSince) (⟨[], 0, 0⟩, []) js = some (t, out) ∧
          Newest t.1 t.2 ∧ InBounds t.1 :=
  along_iff_reached (I := Window) (P := fun s => Newest s.1 s.2 ∧ InBounds s.1)
    (C := fun s c => IndexFits s.1 c) (fun _ c hs => call_window hs c)
    (fun _ hs => ⟨hs.newest, hs.inBounds⟩) (window_empty 0 [])

/-- Three places, two pushes, and then a list of two places: the next push is behind them. -/
theorem not_inBounds_smaller : ∃ t out,
    run (observe call pushedSince) ((⟨[], 0, 0⟩, []) : RList ℕ × List ℕ)
        [.init true 3, .push 1, .push 2, .free, .init true 2] = some (t, out) ∧
      ¬InBounds t.1 ∧ push 3 t.1 = none :=
  ⟨(⟨[0, 0], 2, 2⟩, []), [], by decide, by decide, by decide⟩

end RList

end Regonf
