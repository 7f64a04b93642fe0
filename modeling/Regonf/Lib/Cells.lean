import Mathlib.Data.List.TakeWhile
import Mathlib.Tactic.Common

/-! The cells that delimiters cut a text into, and pointers to their first items. -/
namespace Cells

variable {α : Type*} {p q : α → Bool}

/-- A text is a cell without delimiters, or such a cell, a delimiter and a text. -/
@[elab_as_elim]
theorem cell_induction {motive : List α → Prop} (l : List α)
    (rest : ∀ w, (∀ x ∈ w, p x = false) → motive w)
    (cell : ∀ w d t, (∀ x ∈ w, p x = false) → p d = true → motive t → motive (w ++ d :: t)) :
    motive l := by
  obtain ⟨n, hn⟩ : ∃ n, l.length = n := ⟨_, rfl⟩
  induction n using Nat.strongRecOn generalizing l with
  | ind n ih =>
    have hsplit := List.takeWhile_append_dropWhile (p := fun x => !p x) (l := l)
    have hw : ∀ x ∈ l.takeWhile fun x => !p x, p x = false := by
      intro x hx
      simpa using List.mem_takeWhile_imp hx
    cases hdrop : l.dropWhile fun x => !p x with
    | nil =>
      rw [hdrop, List.append_nil] at hsplit
      exact rest l (hsplit ▸ hw)
    | cons d t =>
      have hd : p d = true := by
        have := List.head?_dropWhile_not (fun x => !p x) l
        rw [hdrop] at this
        simpa using this
      rw [hdrop] at hsplit
      rw [← hsplit]
      refine cell _ d t hw hd (ih t.length ?_ t rfl)
      rw [← hn, ← hsplit]
      simp
      omega

theorem length_splitOnP (l : List α) : (l.splitOnP p).length = l.countP p + 1 := by
  induction l with
  | nil => simp
  | cons a l ih =>
    rw [List.splitOnP_cons_eq_if_modifyHead, List.countP_cons]
    split_ifs <;> simp [ih]

/-- The cells that end with a delimiter. -/
def ended (p : α → Bool) (l : List α) : List (List α) := (l.splitOnP p).dropLast

@[simp] theorem length_ended (l : List α) : (ended p l).length = l.countP p := by
  simp [ended, length_splitOnP]

theorem ended_of_forall {w : List α} (hw : ∀ x ∈ w, p x = false) : ended p w = [] := by
  rw [ended, List.splitOnP_eq_singleton hw]
  rfl

theorem ended_append_cons {w : List α} (hw : ∀ x ∈ w, p x = false) {d : α} (hd : p d = true)
    (t : List α) : ended p (w ++ d :: t) = w :: ended p t := by
  rw [ended, List.splitOnP_append_cons_of_forall_mem hw d hd,
    List.dropLast_cons_of_ne_nil (List.splitOnP_ne_nil p t)]
  rfl

theorem ended_snoc (l : List α) {d : α} (hd : p d = true) : ended p (l ++ [d]) = l.splitOnP p := by
  rw [ended, List.splitOnP_append_cons l [] hd, List.splitOnP_nil, List.dropLast_concat]

/-- Cells that are cut at fewer delimiters are cut again. -/
theorem splitOnP_flatMap (hqp : ∀ x, q x = true → p x = true) (l : List α) :
    l.splitOnP p = (l.splitOnP q).flatMap fun w => w.splitOnP p := by
  induction l using cell_induction (p := q) with
  | rest w hw => rw [List.splitOnP_eq_singleton hw, List.flatMap_singleton]
  | cell w d t hw hd ih =>
    rw [List.splitOnP_append_cons w t (hqp d hd), List.splitOnP_append_cons_of_forall_mem hw d hd,
      List.flatMap_cons, ih]

theorem splitOnP_congr {l : List α} (h : ∀ x ∈ l, p x = q x) : l.splitOnP p = l.splitOnP q := by
  induction l with
  | nil => simp
  | cons a l ih =>
    obtain ⟨ha, hl⟩ := List.forall_mem_cons.mp h
    rw [List.splitOnP_cons_eq_if_modifyHead, List.splitOnP_cons_eq_if_modifyHead, ha, ih hl]

/-- What is not a delimiter is in a cell. -/
theorem exists_mem_splitOnP {l : List α} {x : α} (hx : x ∈ l) (hp : p x = false) :
    ∃ w ∈ l.splitOnP p, x ∈ w := by
  induction l using cell_induction (p := p) with
  | rest w hw => exact ⟨w, by simp [List.splitOnP_eq_singleton hw], hx⟩
  | cell w d t hw hd ih =>
    rw [List.splitOnP_append_cons_of_forall_mem hw d hd]
    rcases List.mem_append.mp hx with h | h
    · exact ⟨w, List.mem_cons_self, h⟩
    · rcases List.mem_cons.mp h with rfl | h
      · rw [hd] at hp
        cases hp
      · obtain ⟨w', hw', hx'⟩ := ih h
        exact ⟨w', List.mem_cons_of_mem _ hw', hx'⟩

theorem not_of_mem_splitOnP {l w : List α} (hw : w ∈ l.splitOnP p) : ∀ x ∈ w, p x = false := by
  induction l using cell_induction (p := p) with
  | rest v hv =>
    rw [List.splitOnP_eq_singleton hv, List.mem_singleton] at hw
    exact hw ▸ hv
  | cell v d t hv hd ih =>
    rw [List.splitOnP_append_cons_of_forall_mem hv d hd] at hw
    rcases List.mem_cons.mp hw with rfl | hw
    · exact hv
    · exact ih hw

theorem mem_of_mem_splitOnP {l w : List α} (hw : w ∈ l.splitOnP p) {x : α} (hx : x ∈ w) :
    x ∈ l := by
  induction l using cell_induction (p := p) with
  | rest v hv =>
    rw [List.splitOnP_eq_singleton hv, List.mem_singleton] at hw
    exact hw ▸ hx
  | cell v d t hv hd ih =>
    rw [List.splitOnP_append_cons_of_forall_mem hv d hd] at hw
    rcases List.mem_cons.mp hw with rfl | hw
    · exact List.mem_append_left _ hx
    · exact List.mem_append_right _ (List.mem_cons_of_mem _ (ih hw))

/-- The lines of a text: the last one may lack its delimiter. -/
def lines (q : α → Bool) (l : List α) : List (List α) :=
  match (l.splitOnP q).getLast? with
  | some [] => ended q l
  | _ => l.splitOnP q

theorem splitOnP_ended (l : List α) :
    ∃ w, l.splitOnP p = ended p l ++ [w] ∧ (l.splitOnP p).getLast? = some w :=
  ⟨_, (List.dropLast_concat_getLast (List.splitOnP_ne_nil p l)).symm,
    List.getLast?_eq_some_getLast (List.splitOnP_ne_nil p l)⟩

/-- The last line ends with a delimiter, or there is none, exactly when all lines are ended. -/
theorem getLast?_splitOnP (l : List α) :
    (l.splitOnP q).getLast? = some [] ↔ ∀ x ∈ l.getLast?, q x = true := by
  induction l using cell_induction (p := q) with
  | rest w hw =>
    rw [List.splitOnP_eq_singleton hw]
    cases hl : w.getLast? with
    | none => simp [List.getLast?_eq_none_iff.mp hl]
    | some x =>
      have hx := List.mem_of_getLast? hl
      have hne : w ≠ [] := List.ne_nil_of_mem hx
      simp [hne, hw x hx]
  | cell w d t hw hd ih =>
    rw [List.splitOnP_append_cons_of_forall_mem hw d hd,
      List.getLast?_cons_of_ne_nil (List.splitOnP_ne_nil q t), ih]
    cases t with
    | nil => simp [hd]
    | cons b t => simp [List.getLast?_append]

/-- Where each cell begins in a text that goes on at index `i`; an empty cell has no pointer. -/
def starts : ℕ → List (List α) → List (Option ℕ)
  | _, [] => []
  | i, w :: ws => (if w = [] then none else some i) :: starts (i + w.length + 1) ws

@[simp] theorem length_starts (i : ℕ) (ws : List (List α)) : (starts i ws).length = ws.length := by
  induction ws generalizing i with
  | nil => rfl
  | cons w ws ih => simp [starts, ih]

/-- The cells without a pointer are the empty ones. -/
theorem starts_none (i : ℕ) (ws : List (List α)) (k : ℕ) :
    (starts i ws)[k]? = some none ↔ ws[k]? = some [] := by
  induction ws generalizing i k with
  | nil => simp [starts]
  | cons w ws ih =>
    cases k with
    | zero => by_cases hw : w = [] <;> simp [starts, hw]
    | succ k => simpa [starts] using ih (i + w.length + 1) k

/-- A pointer leads to its cell. -/
theorem starts_ended (pre : List α) {l w : List α} {k : ℕ} (hw : (ended p l)[k]? = some w) :
    w = [] ∧ (starts pre.length (ended p l))[k]? = some none ∨
      w ≠ [] ∧ ∃ a d t, (starts pre.length (ended p l))[k]? = some (some a) ∧ p d = true ∧
        (pre ++ l).drop a = w ++ d :: t := by
  induction l using cell_induction (p := p) generalizing pre k with
  | rest v hv =>
    rw [ended_of_forall hv] at hw
    cases hw
  | cell v d t hv hd ih =>
    rw [ended_append_cons hv hd] at hw ⊢
    cases k with
    | zero =>
      cases hw
      by_cases hne : w = []
      · exact Or.inl ⟨hne, by simp [starts, hne]⟩
      · exact Or.inr ⟨hne, pre.length, d, t, by simp [starts, hne], hd, by simp⟩
    | succ k =>
      have hpre : (pre ++ (v ++ [d])).length = pre.length + v.length + 1 := by
        simp [Nat.add_assoc]
      have happ : pre ++ (v ++ d :: t) = pre ++ (v ++ [d]) ++ t := by simp
      have := ih (pre ++ (v ++ [d])) hw
      rw [hpre, ← happ] at this
      exact this

/-- The place of an entry in a table with rows of one length. -/
theorem getElem?_flatten {β : Type*} {L : List (List β)} {n : ℕ} (h : ∀ l ∈ L, l.length = n)
    (i : ℕ) {j : ℕ} (hj : j < n) : L.flatten[n * i + j]? = L[i]?.bind fun l => l[j]? := by
  induction L generalizing i with
  | nil => simp
  | cons l L ih =>
    obtain ⟨hl, hL⟩ := List.forall_mem_cons.mp h
    rw [List.flatten_cons]
    cases i with
    | zero => simp [List.getElem?_append_left (hl.symm ▸ hj)]
    | succ i =>
      rw [List.getElem?_append_right (by rw [hl, Nat.mul_succ]; omega), hl, Nat.mul_succ,
        show n * i + n + j - n = n * i + j by omega, ih hL]
      rfl

theorem length_flatten {β : Type*} {L : List (List β)} {n : ℕ} (h : ∀ l ∈ L, l.length = n) :
    L.flatten.length = n * L.length := by
  rw [List.length_flatten, List.map_eq_replicate_iff.mpr h]
  simp [Nat.mul_comm]

end Cells
