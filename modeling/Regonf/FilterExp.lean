import Mathlib.Algebra.Order.Field.Basic
import Mathlib.Algebra.Order.Ring.Rat
import Mathlib.Tactic.Linarith
import Mathlib.Tactic.NormNum
import Mathlib.Tactic.Ring
import Regonf.Lib.Controller

/-! The exponential filter of `lib/filter/exp.c`, over exact numbers. Its first call returns the
input and does not store it. -/
namespace Regonf

open Controller

structure FilterEXP (R : Type*) where
  id : ℤ
  a : R
  vp : R
  f : Bool
deriving DecidableEq, Repr

namespace FilterEXP

variable {R : Type*} [LinearOrder R]

def fexp_init [Field R] (id : ℤ) (a : R) (item : FilterEXP R) : Bool × FilterEXP R :=
  if a < 0 ∨ 1 < a then (false, item)
  else (true, { item with id, a, f := false })

/-- Also the value that is left in `v`. -/
def fexp_calc [Field R] (item : FilterEXP R) (v : R) : FilterEXP R × R :=
  if !item.f then ({ item with f := true }, v)
  else
    let v := item.a * item.vp + (1 - item.a) * v
    ({ item with vp := v }, v)

/-- Between the least and the greatest of the inputs. -/
def Within (xs : List R) (y : R) : Prop := (∃ x ∈ xs, x ≤ y) ∧ ∃ x ∈ xs, y ≤ x

/-- The second input is at least `a` times itself beyond the first one, away from 0. -/
def SecondBeyond [Field R] (a : R) : List R → Prop
  | x₁ :: x₂ :: _ =>
    a = 0 ∨ x₂ = 0 ∨ 0 < x₂ ∧ a * x₂ ≤ x₂ - x₁ ∨ x₂ < 0 ∧ x₂ - x₁ ≤ a * x₂
  | _ => True

theorem within_concat (xs : List R) (y : R) : Within (xs ++ [y]) y :=
  ⟨⟨y, by simp, le_rfl⟩, ⟨y, by simp, le_rfl⟩⟩

theorem Within.append {xs : List R} {y : R} (h : Within xs y) (zs : List R) :
    Within (xs ++ zs) y := by
  obtain ⟨⟨lo, hlo, hle⟩, hi, hhi, hge⟩ := h
  exact ⟨⟨lo, List.mem_append_left zs hlo, hle⟩, hi, List.mem_append_left zs hhi, hge⟩

variable [Field R]

theorem fexp_init_true {id : ℤ} {a : R} {item item' : FilterEXP R}
    (h : fexp_init id a item = (true, item')) :
    0 ≤ a ∧ a ≤ 1 ∧ item' = { item with id, a, f := false } := by
  rw [fexp_init] at h
  split_ifs at h with ha
  · exact absurd h (by simp)
  rw [not_or, not_lt, not_lt] at ha
  exact ⟨ha.1, ha.2, (Prod.ext_iff.mp h).2.symm⟩

omit [LinearOrder R] in
/-- The first two calls of a new filter: the input itself, and the second input mixed with 0. -/
theorem run_first_two (id : ℤ) (a x₁ x₂ : R) {t : FilterEXP R} {xs out : List R} :
    run (total fexp_calc) ⟨id, a, 0, false⟩ (x₁ :: x₂ :: xs) = some (t, out) ↔
      ∃ rest, run (total fexp_calc) ⟨id, a, a * 0 + (1 - a) * x₂, true⟩ xs = some (t, rest) ∧
        out = x₁ :: (a * 0 + (1 - a) * x₂) :: rest := by
  simp only [run_total_cons, fexp_calc, Bool.not_false, Bool.not_true, if_true,
    Bool.false_eq_true, if_false]
  constructor
  · rintro ⟨_, ⟨rest, hr, rfl⟩, rfl⟩
    exact ⟨rest, hr, rfl⟩
  · rintro ⟨rest, hr, rfl⟩
    exact ⟨_, ⟨rest, hr, rfl⟩, rfl⟩

variable [IsStrictOrderedRing R]

/-- What is mixed of two values is between them. -/
theorem mix_mem {a : R} (h0 : 0 ≤ a) (h1 : a ≤ 1) {x y : R} (h : x ≤ y) :
    (x ≤ a * x + (1 - a) * y ∧ a * x + (1 - a) * y ≤ y) ∧
      x ≤ a * y + (1 - a) * x ∧ a * y + (1 - a) * x ≤ y := by
  have hfront : 0 ≤ a * (y - x) := mul_nonneg h0 (sub_nonneg.mpr h)
  have hback : 0 ≤ (1 - a) * (y - x) := mul_nonneg (sub_nonneg.mpr h1) (sub_nonneg.mpr h)
  refine ⟨⟨?_, ?_⟩, ?_, ?_⟩ <;> linarith

/-- A value within the inputs that is mixed with the next input. -/
theorem Within.mix {a : R} (h0 : 0 ≤ a) (h1 : a ≤ 1) {xs : List R} {y : R} (h : Within xs y)
    (v : R) : Within (xs ++ [v]) (a * y + (1 - a) * v) := by
  obtain ⟨⟨lo, hlo, hle⟩, hi, hhi, hge⟩ := h.append [v]
  have hv : v ∈ xs ++ [v] := List.mem_append_right xs List.mem_cons_self
  rcases le_total y v with hyv | hvy
  · obtain ⟨⟨hlow, hup⟩, -⟩ := mix_mem h0 h1 hyv
    exact ⟨⟨lo, hlo, hle.trans hlow⟩, v, hv, hup⟩
  · obtain ⟨-, hlow, hup⟩ := mix_mem h0 h1 hvy
    exact ⟨⟨v, hv, hlow⟩, hi, hhi, hup.trans hge⟩

/-- The second output, which is mixed with 0. -/
theorem within_second {a : R} (h0 : 0 ≤ a) (h1 : a ≤ 1) (x₁ x₂ : R) (xs : List R) :
    Within [x₁, x₂] (a * 0 + (1 - a) * x₂) ↔ SecondBeyond a (x₁ :: x₂ :: xs) := by
  have hout : a * 0 + (1 - a) * x₂ = x₂ - a * x₂ := by ring
  simp only [Within, SecondBeyond, hout, List.mem_cons, List.not_mem_nil, or_false,
    exists_eq_or_imp, exists_eq_left]
  rcases eq_or_ne a 0 with rfl | hne
  · simp
  -- the output is between 0 and the second input, and only the first input can be on its other side
  have hpos : 0 < a := lt_of_le_of_ne h0 hne.symm
  rcases lt_trichotomy x₂ 0 with hneg | rfl | hup
  · have hmul : a * x₂ < 0 := mul_neg_of_pos_of_neg hpos hneg
    constructor
    · rintro ⟨-, hx | hx⟩
      · exact .inr (.inr (.inr ⟨hneg, by linarith⟩))
      · linarith
    · rintro (h | h | ⟨h, -⟩ | ⟨-, hx⟩)
      · exact absurd h hne
      · exact absurd h hneg.ne
      · exact absurd h hneg.not_gt
      · exact ⟨.inr (by linarith), .inl (by linarith)⟩
  · simp
  · have hmul : 0 < a * x₂ := mul_pos hpos hup
    constructor
    · rintro ⟨hx | hx, -⟩
      · exact .inr (.inr (.inl ⟨hup, by linarith⟩))
      · linarith
    · rintro (h | h | ⟨-, hx⟩ | ⟨h, -⟩)
      · exact absurd h hne
      · exact absurd h hup.ne'
      · exact ⟨.inl (by linarith), .inr (by linarith)⟩
      · exact absurd h hup.not_gt

/-- From a value within the inputs on, every output is within the inputs so far. -/
theorem run_within (item : FilterEXP R) (h0 : 0 ≤ item.a) (h1 : item.a ≤ 1) (hf : item.f = true)
    {seen : List R} (hvp : Within seen item.vp) (xs : List R) :
    ∃ t out, run (total fexp_calc) item xs = some (t, out) ∧
      ∀ k y, out[k]? = some y → Within (seen ++ xs.take (k + 1)) y := by
  induction xs generalizing item seen with
  | nil => exact ⟨item, [], rfl, fun k y hy => absurd hy (by simp)⟩
  | cons v xs ih =>
    have hcalc : fexp_calc item v = ({ item with vp := item.a * item.vp + (1 - item.a) * v },
        item.a * item.vp + (1 - item.a) * v) := by
      rw [fexp_calc, hf]
      rfl
    have hv := hvp.mix h0 h1 v
    obtain ⟨t, out, hr, hout⟩ := ih (fexp_calc item v).1
      (by rw [hcalc]; exact h0) (by rw [hcalc]; exact h1) (by rw [hcalc]; exact hf)
      (show Within (seen ++ [v]) (fexp_calc item v).1.vp by rw [hcalc]; exact hv)
    refine ⟨t, _, run_total_cons.mpr ⟨out, hr, rfl⟩, fun k y hy => ?_⟩
    rw [List.take_succ_cons]
    -- this output, or one of the rest, for which `v` has been seen
    cases k with
    | zero =>
      rw [List.getElem?_cons_zero, hcalc, Option.some.injEq] at hy
      rw [← hy, List.take_zero]
      exact hv
    | succ k =>
      rw [List.getElem?_cons_succ] at hy
      have := hout k y hy
      rwa [List.append_assoc] at this

/-- Every output of a new filter is between the least and the greatest of the inputs so far, exactly
if the second input is far enough beyond the first. -/
theorem fexp_calc_within_iff {id : ℤ} {a : R} {item item' : FilterEXP R}
    (h : fexp_init id a item = (true, item')) (hvp : item.vp = 0) (xs : List R) :
    (∃ t out, run (total fexp_calc) item' xs = some (t, out) ∧ out.length = xs.length ∧
      ∀ k y, out[k]? = some y → Within (xs.take (k + 1)) y) ↔ SecondBeyond a xs := by
  obtain ⟨h0, h1, rfl⟩ := fexp_init_true h
  rw [hvp]
  rcases xs with _ | ⟨x₁, _ | ⟨x₂, xs⟩⟩
  · exact ⟨fun _ => trivial, fun _ => ⟨_, [], rfl, rfl, fun k y hy => absurd hy (by simp)⟩⟩
  · -- a single input comes back
    refine ⟨fun _ => trivial, fun _ => ⟨_, [x₁], rfl, rfl, fun k y hy => ?_⟩⟩
    obtain ⟨rfl, rfl⟩ : k = 0 ∧ x₁ = y := by simpa [List.getElem?_singleton] using hy
    exact within_concat [] x₁
  · rw [← within_second h0 h1]
    constructor
    · rintro ⟨t, out, hr, -, hout⟩
      obtain ⟨rest, -, rfl⟩ := (run_first_two id a x₁ x₂).mp hr
      exact hout 1 _ rfl
    · -- from the second output on, the outputs stay within the inputs
      intro hsecond
      obtain ⟨t, rest, hr, hrest⟩ :=
        run_within ⟨id, a, a * 0 + (1 - a) * x₂, true⟩ h0 h1 rfl hsecond xs
      have hall := (run_first_two id a x₁ x₂).mpr ⟨rest, hr, rfl⟩
      refine ⟨t, _, hall, run_total_length hall, fun k y hy => ?_⟩
      match k with
      | 0 =>
        obtain rfl : x₁ = y := by simpa using hy
        exact within_concat [] x₁
      | 1 =>
        obtain rfl : a * 0 + (1 - a) * x₂ = y := by simpa using hy
        exact hsecond
      | k + 2 => exact hrest k y hy

/-- The last theorem for an output that is outside of its inputs: a constant input of 2. -/
theorem not_within_constant : ∃ item' t out,
    fexp_init 0 (1 / 2) (⟨0, 0, 0, false⟩ : FilterEXP ℚ) = (true, item') ∧
      run (total fexp_calc) item' [2, 2] = some (t, out) ∧ out[1]? = some 1 ∧
      ¬Within [2, 2] (1 : ℚ) := by
  refine ⟨⟨0, 1 / 2, 0, false⟩, ⟨0, 1 / 2, 1, true⟩, [2, 1], ?_, ?_, rfl, ?_⟩
  · norm_num [fexp_init]
  · norm_num [run, total, fexp_calc]
  · norm_num [Within]

/-- The theorem before the last for inputs that rise from 1 to 4. -/
theorem fexp_calc_within_rise :
    (∃ t out, run (total fexp_calc) (⟨0, 1 / 2, 0, false⟩ : FilterEXP ℚ) [1, 4] = some (t, out) ∧
      out.length = 2 ∧ ∀ k y, out[k]? = some y → Within ([1, 4].take (k + 1)) y) ↔
      SecondBeyond (1 / 2 : ℚ) [1, 4] :=
  fexp_calc_within_iff (show fexp_init 0 (1 / 2 : ℚ) ⟨0, 0, 0, false⟩ =
    (true, ⟨0, 1 / 2, 0, false⟩) by norm_num [fexp_init]) rfl [1, 4]

end FilterEXP

end Regonf
