import Regonf.Lib.Controller

/-! A queue of bounded capacity, and what its runs keep. -/
namespace BoundedQueue

open Regonf.Controller

variable {α : Type*}

inductive Op (α : Type*) where
  | push (v : α)
  | pop
deriving DecidableEq, Repr

/-- Whether a value was pushed, or the value that was popped. -/
inductive Answer (α : Type*) where
  | pushed (ok : Bool)
  | popped (v : Option α)
deriving DecidableEq, Repr

/-- A push succeeds if fewer than `cap` values are stored, a pop if there is one. -/
def step (cap : ℕ) (q : List α) : Op α → List α × Answer α
  | .push v => if q.length < cap then (q ++ [v], .pushed true) else (q, .pushed false)
  | .pop => (q.tail, .popped q.head?)

/-- The values that were pushed with success. -/
def accepted : List (Op α) → List (Answer α) → List α
  | .push v :: ops, .pushed true :: as => v :: accepted ops as
  | _ :: ops, _ :: as => accepted ops as
  | _, _ => []

/-- The values that were popped. -/
def delivered : List (Answer α) → List α
  | .popped (some v) :: as => v :: delivered as
  | _ :: as => delivered as
  | [] => []

theorem length_step {cap : ℕ} {q : List α} (h : q.length ≤ cap) (op : Op α) :
    (step cap q op).1.length ≤ cap := by
  cases op with
  | push v =>
    rw [step]
    split_ifs with hlt
    · rw [List.length_append, List.length_singleton]
      exact hlt
    · exact h
  | pop =>
    rw [step, List.length_tail]
    omega

/-- What was stored and what came in is what went out and what is stored, in this order. -/
theorem run_conserves {cap : ℕ} {q q' : List α} {ops : List (Op α)} {as : List (Answer α)}
    (h : run (total (step cap)) q ops = some (q', as)) :
    q ++ accepted ops as = delivered as ++ q' := by
  induction ops generalizing q as with
  | nil =>
    cases h
    simp [accepted, delivered]
  | cons op ops ih =>
    obtain ⟨rest, hr, rfl⟩ := run_total_cons.mp h
    have hrest := ih hr
    cases op with
    | push v =>
      rw [step] at hrest ⊢
      -- a value that is refused is neither accepted nor stored
      split_ifs at hrest ⊢ with hlt
      · rw [List.append_assoc] at hrest
        exact hrest
      · exact hrest
    | pop =>
      cases q with
      | nil => exact hrest
      -- the value that goes out was in front on both sides
      | cons v q => exact congrArg (v :: ·) hrest

theorem run_length {cap : ℕ} {q q' : List α} {ops : List (Op α)} {as : List (Answer α)}
    (h : run (total (step cap)) q ops = some (q', as)) (hq : q.length ≤ cap) :
    q'.length ≤ cap := by
  induction ops generalizing q as with
  | nil =>
    cases h
    exact hq
  | cons op ops ih =>
    obtain ⟨rest, hr, rfl⟩ := run_total_cons.mp h
    exact ih hr (length_step hq op)

end BoundedQueue
