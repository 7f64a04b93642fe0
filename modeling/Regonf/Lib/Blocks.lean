import Mathlib.Data.Int.Notation
import Mathlib.Data.List.Basic
import Mathlib.Order.Basic
import Mathlib.Tactic.Common

/-! Arrays: a cell that is read or stored, a text that is stored, and the blocks that a delimiter
cuts a text into. -/
namespace Regonf.Blocks

variable {α : Type*}

/-- The part of a list in front of the first item without a property, and the rest. -/
theorem takeWhile_span {p : α → Bool} {x t : List α} (hx : ∀ b ∈ x, p b = true)
    (ht : ∀ b ∈ t.head?, p b = false) : (x ++ t).takeWhile p = x := by
  rw [List.takeWhile_append_of_pos hx]
  cases t with
  | nil => simp
  | cons b t => rw [List.takeWhile_cons, ht b rfl]; simp

theorem dropWhile_span {p : α → Bool} {x t : List α} (hx : ∀ b ∈ x, p b = true)
    (ht : ∀ b ∈ t.head?, p b = false) : (x ++ t).dropWhile p = t := by
  rw [List.dropWhile_append_of_pos hx]
  cases t with
  | nil => simp
  | cons b t => rw [List.dropWhile_cons, ht b rfl]; simp

/-- `a[i]`; `none` is an access outside of the array. -/
def readAt {n : ℕ} (a : Vector α n) (i : ℤ) : Option α :=
  if 0 ≤ i then a[i.toNat]? else none

/-- `a[i] = x`; `none` is an access outside of the array. -/
def storeAt {n : ℕ} (a : Vector α n) (i : ℤ) (x : α) : Option (Vector α n) :=
  if 0 ≤ i ∧ i < n then some (a.setIfInBounds i.toNat x) else none

theorem exists_readAt {n : ℕ} {a : Vector α n} {i : ℤ} :
    (∃ x, readAt a i = some x) ↔ 0 ≤ i ∧ i < n := by
  unfold readAt
  constructor
  · rintro ⟨x, hx⟩
    split_ifs at hx with h0
    obtain ⟨hi, -⟩ := Vector.getElem?_eq_some_iff.mp hx
    omega
  · rintro ⟨h0, hi⟩
    have hlt : i.toNat < n := by omega
    exact ⟨_, by rw [if_pos h0, Vector.getElem?_eq_getElem hlt]⟩

theorem exists_storeAt {n : ℕ} {a : Vector α n} {i : ℤ} (x : α) :
    (∃ b, storeAt a i x = some b) ↔ 0 ≤ i ∧ i < n := by
  unfold storeAt
  split_ifs with h
  · exact iff_of_true ⟨_, rfl⟩ h
  · exact iff_of_false (by simp) h

/-- The array after the cells of `x` are stored from index `j` on. -/
def writeAt (a : List α) (j : ℕ) (x : List α) : List α := a.take j ++ x ++ a.drop (j + x.length)

@[simp] theorem writeAt_nil (a : List α) (j : ℕ) : writeAt a j [] = a := by simp [writeAt]

@[simp] theorem writeAt_zero (a x : List α) : writeAt a 0 x = x ++ a.drop x.length := by
  simp [writeAt]

/-- A text is stored cell by cell. -/
theorem writeAt_set {a x : List α} {b : α} {j : ℕ} (h : j < a.length) :
    writeAt (a.set j b) (j + 1) x = writeAt a j (b :: x) := by
  have htake : (a.set j b).take (j + 1) = a.take j ++ [b] := by
    rw [List.take_succ_eq_append_getElem (by simpa using h), List.take_set,
      List.set_eq_of_length_le (by rw [List.length_take]; omega), List.getElem_set_self]
  have hdrop : (a.set j b).drop (j + 1 + x.length) = a.drop (j + (b :: x).length) := by
    rw [List.drop_set_of_lt (by omega), List.length_cons]
    congr 1
    omega
  rw [writeAt, writeAt, htake, hdrop, List.append_assoc, List.append_assoc, List.append_assoc,
    List.singleton_append]
  rfl

/-- The rule for a loop that stores a text, up to the delimiter `d`, in the first `n` cells of an
array, as long as its items are `P`: `st a j` is the state with the array `a` and the index `j`,
and `Ends x s` says that the loop goes through `x` from `s` and ends in `u`. -/
theorem ends_iff_stored {S : Type*} (Ends : List α → S → Prop) (st : List α → ℕ → S)
    (P : α → Prop) {u : S} {d : α} {n : ℕ} (hnil : ∀ a j, Ends [] (st a j) ↔ u = st a j)
    (hcons : ∀ b x a j, b ≠ d →
      (Ends (b :: x) (st a j) ↔ P b ∧ j < n ∧ Ends x (st (a.set j b) (j + 1))))
    {x a : List α} {j : ℕ} (hx : d ∉ x) (hj : j ≤ n) (hl : n ≤ a.length) :
    Ends x (st a j) ↔
      (∀ b ∈ x, P b) ∧ j + x.length ≤ n ∧ u = st (writeAt a j x) (j + x.length) := by
  induction x generalizing a j with
  | nil => simp [hnil, hj]
  | cons b x ih =>
    obtain ⟨hb, hx⟩ := not_or.mp (mt List.mem_cons.mpr hx)
    rw [hcons b x a j (Ne.symm hb), List.forall_mem_cons, List.length_cons, and_assoc]
    refine and_congr_right fun _ => ?_
    by_cases hlt : j < n
    · have hnext : j + 1 ≤ n := hlt
      have hlen : j + 1 + x.length = j + (x.length + 1) := by omega
      rw [ih hx hnext (by simpa using hl), writeAt_set (by omega), hlen]
      simp only [hlt, true_and]
    -- the array is full
    · have hfull : ¬ j + (x.length + 1) ≤ n := by omega
      simp only [hlt, hfull, false_and, and_false]

/-- The rule for the indices at which such a loop stores: it stores the items in front of the first
that is not `p`, and all of them below `n` if there are few enough. -/
theorem forall_stored_lt {S : Type*} (stores : List α → S → List ℕ) (st : List α → ℕ → S)
    {p : α → Bool} {d : α} {n : ℕ} (hnil : ∀ a j, stores [] (st a j) = [])
    (hput : ∀ b x a j, b ≠ d → p b = true → j < n →
      stores (b :: x) (st a j) = j :: stores x (st (a.set j b) (j + 1)))
    (hfull : ∀ b x a j, b ≠ d → p b = true → j ∈ stores (b :: x) (st a j))
    (hstop : ∀ b x a j, b ≠ d → p b = false → stores (b :: x) (st a j) = [])
    {x a : List α} {j : ℕ} (hx : d ∉ x) (hj : j ≤ n) :
    (∀ i ∈ stores x (st a j), i < n) ↔ j + (x.takeWhile p).length ≤ n := by
  induction x generalizing a j with
  | nil => simpa [hnil] using hj
  | cons b x ih =>
    obtain ⟨hb, hx⟩ := not_or.mp (mt List.mem_cons.mpr hx)
    cases hp : p b with
    | false =>
      rw [hstop b x a j (Ne.symm hb) hp, List.takeWhile_cons_of_neg (by simp [hp])]
      simpa using hj
    | true =>
      rw [List.takeWhile_cons_of_pos hp, List.length_cons]
      by_cases hlt : j < n
      · have hnext : j + 1 ≤ n := hlt
        rw [hput b x a j (Ne.symm hb) hp hlt, List.forall_mem_cons, ih hx hnext]
        omega
      -- the index is past the end already
      · constructor
        · intro h
          exact absurd (h j (hfull b x a j (Ne.symm hb) hp)) hlt
        · omega

section
variable [DecidableEq α] {d : α}

private theorem ne_of_not_mem_block {x : List α} (hx : d ∉ x) :
    ∀ a ∈ x, (fun a => decide (a ≠ d)) a = true := by
  intro a ha
  have hne : a ≠ d := fun h => hx (h ▸ ha)
  exact decide_eq_true hne

theorem takeWhile_ne_append {x : List α} (hx : d ∉ x) (t : List α) :
    (x ++ d :: t).takeWhile (· ≠ d) = x := by
  rw [List.takeWhile_append_of_pos (ne_of_not_mem_block hx), List.takeWhile_cons_of_neg (by simp),
    List.append_nil]

theorem dropWhile_ne_append {x : List α} (hx : d ∉ x) (t : List α) :
    (x ++ d :: t).dropWhile (· ≠ d) = d :: t := by
  rw [List.dropWhile_append_of_pos (ne_of_not_mem_block hx), List.dropWhile_cons_of_neg (by simp)]

theorem takeWhile_ne_self {x : List α} (hx : d ∉ x) : x.takeWhile (· ≠ d) = x := by
  have h : (x ++ []).takeWhile (· ≠ d) = x ++ [].takeWhile (· ≠ d) :=
    List.takeWhile_append_of_pos (ne_of_not_mem_block hx)
  simpa using h

theorem dropWhile_ne_self {x : List α} (hx : d ∉ x) : x.dropWhile (· ≠ d) = [] := by
  have h : (x ++ []).dropWhile (· ≠ d) = [].dropWhile (· ≠ d) :=
    List.dropWhile_append_of_pos (ne_of_not_mem_block hx)
  simpa using h

theorem not_mem_takeWhile_ne (l : List α) : d ∉ l.takeWhile (· ≠ d) := by
  induction l with
  | nil => simp
  | cons a l ih =>
    by_cases ha : a = d
    · simp [ha]
    · rw [List.takeWhile_cons_of_pos (by simpa using ha), List.mem_cons]
      exact not_or.mpr ⟨Ne.symm ha, ih⟩

/-- Block `k` of a text that `d` delimits; empty where there are fewer blocks. -/
def block (d : α) : ℕ → List α → List α
  | 0, l => l.takeWhile (· ≠ d)
  | k + 1, l => block d k (l.dropWhile (· ≠ d)).tail

@[simp] theorem block_nil (d : α) (k : ℕ) : block d k [] = [] := by
  induction k with
  | zero => rfl
  | succ k ih => exact ih

theorem block_zero_append {x : List α} (hx : d ∉ x) (t : List α) :
    block d 0 (x ++ d :: t) = x := takeWhile_ne_append hx t

theorem block_succ_append {x : List α} (hx : d ∉ x) (k : ℕ) (t : List α) :
    block d (k + 1) (x ++ d :: t) = block d k t := by
  rw [block, dropWhile_ne_append hx, List.tail_cons]

theorem block_zero_self {x : List α} (hx : d ∉ x) : block d 0 x = x := takeWhile_ne_self hx

theorem not_mem_block (d : α) (k : ℕ) (l : List α) : d ∉ block d k l := by
  induction k generalizing l with
  | zero => exact not_mem_takeWhile_ne l
  | succ k ih => exact ih _

/-- A text ends in its first block, or goes on behind a delimiter. -/
theorem block_cases (d : α) (l : List α) : d ∉ l ∨ ∃ x t, d ∉ x ∧ l = x ++ d :: t := by
  by_cases hd : d ∈ l
  · obtain ⟨x, t, hl, hx⟩ := List.eq_append_cons_of_mem hd
    exact Or.inr ⟨x, t, hx, hl⟩
  · exact Or.inl hd

/-- The rule for a reader that goes through a text block by block: `Reads` relates a text and
the state before it to what the reader makes of them, `Through` the state before a block to the
state at its end, and `next` enters the following block. A text that ends within the block is
followed by the empty text. -/
theorem reads_block {S R : Type*} {Reads : List α → S → R → Prop}
    (Through : List α → S → S → Prop) {next : S → S} {s : S} {r : R}
    (hend : ∀ x, d ∉ x → (Reads x s r ↔ ∃ u, Through x s u ∧ Reads [] (next u) r))
    (hgo : ∀ x t, d ∉ x → (Reads (x ++ d :: t) s r ↔ ∃ u, Through x s u ∧ Reads t (next u) r))
    (l : List α) :
    Reads l s r ↔ ∃ u, Through (block d 0 l) s u ∧
      Reads (l.dropWhile (· ≠ d)).tail (next u) r := by
  rcases block_cases d l with hx | ⟨x, t, hx, rfl⟩
  · rw [block_zero_self hx, dropWhile_ne_self hx, List.tail_nil]
    exact hend l hx
  · rw [block_zero_append hx, dropWhile_ne_append hx, List.tail_cons]
    exact hgo x t hx

end

end Regonf.Blocks
