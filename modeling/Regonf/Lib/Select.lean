import Mathlib.Data.List.Induction
import Mathlib.Tactic.Common

/-! A pass over a list that keeps the best element with a property. -/
namespace Select

variable {α κ : Type*}

/-- A turn of the loop: the first element with the property is taken, and a later one if it is
better. -/
def turn (p : α → Bool) (key : α → κ) (better : κ → κ → Bool) (best : Option (ℕ × α)) (i : ℕ)
    (x : α) : Option (ℕ × α) :=
  let best := if best.isNone && p x then some (i, x) else best
  match best with
  | none => none
  | some (j, y) => if p x && better (key y) (key x) then some (i, x) else some (j, y)

/-- The index of the element that is left, and the element. -/
def search (p : α → Bool) (key : α → κ) (better : κ → κ → Bool) (xs : List α) : Option (ℕ × α) :=
  xs.zipIdx.foldl (fun best x => turn p key better best x.2 x.1) none

variable {p : α → Bool} {key : α → κ} {better : κ → κ → Bool}

theorem search_concat (xs : List α) (x : α) : search p key better (xs ++ [x]) =
    turn p key better (search p key better xs) xs.length x := by
  rw [search, List.zipIdx_append, List.foldl_append, Nat.zero_add]
  rfl

/-- The element is in its place, has the property, and none with the property is better. -/
structure Best (p : α → Bool) (key : α → κ) (better : κ → κ → Bool) (xs : List α) (r : ℕ × α) :
    Prop where
  get : xs[r.1]? = some r.2
  prop : p r.2 = true
  best : ∀ y ∈ xs, p y = true → better (key r.2) (key y) = false

theorem Best.mem {xs : List α} {r : ℕ × α} (h : Best p key better xs r) : r.2 ∈ xs :=
  List.mem_of_getElem? h.get

/-- What a pass finds. -/
def Finds (p : α → Bool) (key : α → κ) (better : κ → κ → Bool) (xs : List α) :
    Option (ℕ × α) → Prop
  | none => ∀ y ∈ xs, p y = false
  | some r => Best p key better xs r

/-- A last element that is not better. -/
theorem Best.keep {xs : List α} {r : ℕ × α} (h : Best p key better xs r) {x : α}
    (hx : p x = true → better (key r.2) (key x) = false) : Best p key better (xs ++ [x]) r := by
  obtain ⟨hlt, -⟩ := List.getElem?_eq_some_iff.mp h.get
  refine ⟨?_, h.prop, fun y hy hp => ?_⟩
  · rw [List.getElem?_append_left hlt]
    exact h.get
  · rcases List.mem_append.mp hy with hy | hy
    · exact h.best y hy hp
    · rw [List.mem_singleton.mp hy] at hp ⊢
      exact hx hp

/-- A last element such that none before it is better. -/
theorem Best.last (hirrefl : ∀ k, better k k = false) {xs : List α} {x : α} (hx : p x = true)
    (hbest : ∀ y ∈ xs, p y = true → better (key x) (key y) = false) :
    Best p key better (xs ++ [x]) (xs.length, x) := by
  refine ⟨List.getElem?_concat_length, hx, fun y hy hp => ?_⟩
  rcases List.mem_append.mp hy with hy | hy
  · exact hbest y hy hp
  · rw [List.mem_singleton.mp hy]
    exact hirrefl (key x)

variable (hirrefl : ∀ k, better k k = false)
  (htrans : ∀ a b c, better a b = true → better b c = true → better a c = true)
include hirrefl htrans

theorem Finds.turn {xs : List α} {best : Option (ℕ × α)} (h : Finds p key better xs best) (x : α) :
    Finds p key better (xs ++ [x]) (turn p key better best xs.length x) := by
  cases best with
  | none =>
    by_cases hp : p x = true
    · have hturn : Select.turn p key better none xs.length x = some (xs.length, x) := by
        simp [Select.turn, hp]
      rw [hturn]
      refine Best.last hirrefl hp fun y hy hpy => ?_
      rw [h y hy] at hpy
      exact absurd hpy Bool.false_ne_true
    · have hturn : Select.turn p key better none xs.length x = none := by simp [Select.turn, hp]
      rw [hturn]
      intro y hy
      rcases List.mem_append.mp hy with hy | hy
      · exact h y hy
      · rw [List.mem_singleton.mp hy]
        exact Bool.eq_false_iff.mpr hp
  | some r =>
    obtain ⟨j, y⟩ := r
    by_cases hb : (p x && better (key y) (key x)) = true
    -- `x` takes the place of `y`, or `y` keeps it
    · have hturn : Select.turn p key better (some (j, y)) xs.length x = some (xs.length, x) := by
        simp only [Select.turn, Option.isNone_some, Bool.false_and, Bool.false_eq_true, if_false,
          if_pos hb]
      rw [hturn]
      rw [Bool.and_eq_true] at hb
      refine Best.last hirrefl hb.1 fun z hz hpz => ?_
      -- what is better than `x` is better than `y`
      have hyz := h.best z hz hpz
      refine Bool.eq_false_iff.mpr fun hxz => ?_
      rw [htrans _ _ _ hb.2 hxz] at hyz
      exact absurd hyz.symm Bool.false_ne_true
    · have hturn : Select.turn p key better (some (j, y)) xs.length x = some (j, y) := by
        simp only [Select.turn, Option.isNone_some, Bool.false_and, Bool.false_eq_true, if_false,
          if_neg hb]
      rw [hturn]
      refine Best.keep h fun hp => ?_
      rw [hp, Bool.true_and] at hb
      exact Bool.eq_false_iff.mpr hb

variable (p key)

/-- A pass finds the best one, if there is one with the property. -/
theorem search_finds (xs : List α) : Finds p key better xs (search p key better xs) := by
  induction xs using List.reverseRecOn with
  | nil => exact fun y hy => absurd hy List.not_mem_nil
  | append_singleton xs x ih =>
    rw [search_concat]
    exact ih.turn hirrefl htrans x

end Select
