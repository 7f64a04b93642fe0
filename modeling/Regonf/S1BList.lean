import Regonf.AcpBlocks
import Regonf.Lib.Controller

/-! `s1blist_push` of `lib/app.c`. An array on the heap is the list of its cells, so that its length
is what has been allocated; `none` is a write behind it. -/
namespace Regonf.S1B

open Blocks

/-- The values of `size_t` are below this. -/
def SIZE : ℕ := 18446744073709551616

/-- `realloc`; what is in new cells is not known. -/
def realloc {α : Type*} (junk : ℕ → α) (a : List α) (n : ℕ) : List α :=
  (List.range n).map fun i => a.getD i (junk i)

/-- `freed` says that `s1_offset` still points to memory that has been freed. -/
structure S1BList where
  buf : List UInt8
  s1_offset : List ℕ
  freed : Bool
  buf_length : ℕ
  buf_max_length : ℕ
  length : ℕ
  max_length : ℕ
deriving DecidableEq, Repr

def S1BLIST_INITIALIZER : S1BList := ⟨[], [], false, 0, 0, 0, 0⟩

/-- The arguments of a call; `str` is the string without its NUL. -/
structure Push where
  min_buf_alloc_length : UInt64
  min_item_alloc_length : UInt64
  str : List UInt8
  nul : 0 ∉ str

def bufReqSz (list : S1BList) (p : Push) : ℕ := (list.buf_length + p.str.length + 1) % SIZE

def bufMinAllocSz (list : S1BList) (p : Push) : ℕ :=
  (list.buf_max_length + p.min_buf_alloc_length.toNat) % SIZE

/-- Room for the string. `mem` says whether `realloc` has the memory; without it, the list that is
left behind. -/
def growBuf (junk : ℕ → UInt8) (mem : Bool) (p : Push) (list : S1BList) : Except S1BList S1BList :=
  if list.buf_max_length < bufReqSz list p then
    if !mem then .error ⟨[], list.s1_offset, true, 0, 0, 0, 0⟩
    else if bufReqSz list p < bufMinAllocSz list p then
      .ok { list with
        buf := realloc junk list.buf (bufMinAllocSz list p)
        buf_max_length := (list.buf_max_length + p.min_buf_alloc_length.toNat) % SIZE }
    else
      .ok { list with
        buf := realloc junk list.buf (bufReqSz list p)
        buf_max_length := (list.buf_max_length + p.str.length + 1) % SIZE }
  else .ok list

/-- `sizeof (*list->s1_offset)` -/
def OFFSETI_SZ : ℕ := 8

def offsetReqSz (list : S1BList) : ℕ := (list.max_length * OFFSETI_SZ + OFFSETI_SZ) % SIZE

def offsetMinAllocSz (list : S1BList) (p : Push) : ℕ :=
  (list.max_length * OFFSETI_SZ + p.min_item_alloc_length.toNat * OFFSETI_SZ) % SIZE

/-- Room for the offset. -/
def growOffset (junk : ℕ → ℕ) (mem : Bool) (p : Push) (list : S1BList) :
    Except S1BList S1BList :=
  if list.max_length ≤ list.length then
    if !mem then .error S1BLIST_INITIALIZER
    else if offsetReqSz list < offsetMinAllocSz list p then
      .ok { list with
        s1_offset := realloc junk list.s1_offset (offsetMinAllocSz list p / OFFSETI_SZ)
        max_length := (list.max_length + p.min_item_alloc_length.toNat) % SIZE }
    else
      .ok { list with
        s1_offset := realloc junk list.s1_offset (offsetReqSz list / OFFSETI_SZ)
        max_length := (list.max_length + 1) % SIZE }
  else .ok list

/-- The string with its NUL, and its offset. -/
def putString (p : Push) (list : S1BList) : Option S1BList :=
  if list.buf_length + p.str.length < list.buf.length ∧ list.length < list.s1_offset.length then
    some { list with
      buf := writeAt list.buf list.buf_length (p.str ++ [0])
      s1_offset := list.s1_offset.set list.length list.buf_length
      buf_length := (list.buf_length + p.str.length + 1) % SIZE
      length := (list.length + 1) % SIZE }
  else none

/-- `s1blist_push`: the result and the list; `mem` is for its two calls of `realloc`. -/
def s1blist_push (junk : (ℕ → UInt8) × (ℕ → ℕ)) (mem : Bool × Bool) (p : Push) (list : S1BList) :
    Option (Bool × S1BList) :=
  match growBuf junk.1 mem.1 p list with
  -- the memory that `s1_offset` points to is freed, a second time if it has been freed before
  | .error failed => if list.freed then none else some (false, failed)
  | .ok list =>
    if list.freed then none
    else match growOffset junk.2 mem.2 p list with
      | .error list => some (false, list)
      | .ok list => (putString p list).map fun list => (true, list)

/-- A call that gets its memory, with the string that it stores. -/
def pushStep (junk : (ℕ → UInt8) × (ℕ → ℕ)) (list : S1BList) (p : Push) :
    Option (S1BList × List (List UInt8)) :=
  (s1blist_push junk (true, true) p list).map fun r => (r.2, [p.str])

/-- `BLIST_ITEM` -/
def blistItem (list : S1BList) (k : ℕ) : Option (List UInt8) :=
  list.s1_offset[k]?.bind fun o => cString (list.buf.drop o)

/-- The string does not fit, and is too long for the step that the caller gives. -/
def GrowsByString (list : S1BList) (p : Push) : Prop :=
  list.buf_max_length < bufReqSz list p ∧ ¬bufReqSz list p < bufMinAllocSz list p

/-- The sizes of a call are sizes: of the string, of one more offset, and of the step of the
caller, if it is taken. -/
def SizesFit (list : S1BList) (p : Push) : Prop :=
  list.buf_length + p.str.length + 1 < SIZE ∧ (list.max_length + 1) * OFFSETI_SZ < SIZE ∧
    (list.max_length ≤ list.length → offsetReqSz list < offsetMinAllocSz list p →
      (list.max_length + p.min_item_alloc_length.toNat) * OFFSETI_SZ < SIZE)

/-- The buffer only grows by the length of a string when it is full. -/
def GrowsFull (list : S1BList) (p : Push) : Prop :=
  SizesFit list p ∧ (GrowsByString list p → list.buf_length = list.buf_max_length)

/-- What has been written lies inside of what is allocated, and the items are the strings. -/
def Appended (list : S1BList) (strs : List (List UInt8)) : Prop :=
  list.buf_length ≤ list.buf_max_length ∧ list.buf_max_length ≤ list.buf.length ∧
    list.length = strs.length ∧ list.length ≤ list.s1_offset.length ∧
    ∀ (k : ℕ) (s : List UInt8), strs[k]? = some s → blistItem list k = some s

/-! The text of the buffer and the offsets. -/

/-- The strings behind each other, each with its NUL. -/
def text (strs : List (List UInt8)) : List UInt8 := (strs.map fun s => s ++ [0]).flatten

theorem text_snoc (strs : List (List UInt8)) (s : List UInt8) :
    text (strs ++ [s]) = text strs ++ (s ++ [0]) := by
  simp [text]

def offsets : ℕ → List (List UInt8) → List ℕ
  | _, [] => []
  | o, s :: strs => o :: offsets (o + s.length + 1) strs

theorem offsets_snoc (o : ℕ) (strs : List (List UInt8)) (s : List UInt8) :
    offsets o (strs ++ [s]) = offsets o strs ++ [o + (text strs).length] := by
  induction strs generalizing o with
  | nil => rfl
  | cons s' strs ih =>
    rw [List.cons_append, offsets, offsets, ih, List.cons_append]
    congr 3
    simp [text]
    omega

@[simp] theorem length_offsets (o : ℕ) (strs : List (List UInt8)) :
    (offsets o strs).length = strs.length := by
  induction strs generalizing o with
  | nil => rfl
  | cons s strs ih => simp [offsets, ih]

/-- The offset of a string leads to it. -/
theorem offsets_spec {strs : List (List UInt8)} {k : ℕ} {s : List UInt8} (hk : strs[k]? = some s)
    (pre : List UInt8) : ∃ o t, (offsets pre.length strs)[k]? = some o ∧
      o ≤ (pre ++ text strs).length ∧ (pre ++ text strs).drop o = s ++ 0 :: t := by
  induction strs generalizing k pre with
  | nil => cases hk
  | cons s' strs ih =>
    have htext : pre ++ text (s' :: strs) = pre ++ (s' ++ [0]) ++ text strs := by simp [text]
    cases k with
    | zero =>
      cases hk
      exact ⟨pre.length, text strs, rfl, by simp, by simp [text]⟩
    | succ k =>
      have hlen : (pre ++ (s' ++ [0])).length = pre.length + s'.length + 1 := by
        simp [Nat.add_assoc]
      have := ih hk (pre ++ (s' ++ [0]))
      rw [hlen, ← htext] at this
      exact this

end Regonf.S1B
