import Mathlib.Data.List.Basic
import Mathlib.Logic.Function.Basic
import Mathlib.Tactic.Common

/-! A cyclic redundancy check over one register of any width, the lowest bit first: the register is
linear, loses nothing, and so sees every burst of errors that is not longer than it. -/
namespace Crc

variable {w : ℕ} (poly : BitVec w)

/-- One bit into the register. -/
def step (r : BitVec w) (b : Bool) : BitVec w :=
  r >>> 1 ^^^ if r.getLsbD 0 ^^ b then poly else 0

def run (r : BitVec w) (bs : List Bool) : BitVec w := bs.foldl (step poly) r

@[simp] theorem run_nil (r : BitVec w) : run poly r [] = r := rfl

@[simp] theorem run_cons (r : BitVec w) (b : Bool) (bs : List Bool) :
    run poly r (b :: bs) = run poly (step poly r b) bs := rfl

theorem run_append (r : BitVec w) (bs cs : List Bool) :
    run poly r (bs ++ cs) = run poly (run poly r bs) cs := List.foldl_append

theorem ite_xor (a b : Bool) :
    (if a ^^ b then poly else 0) = (if a then poly else 0) ^^^ if b then poly else 0 := by
  cases a <;> cases b <;> simp

/-- The register is linear. -/
theorem step_xor (r s : BitVec w) (b c : Bool) :
    step poly (r ^^^ s) (b ^^ c) = step poly r b ^^^ step poly s c := by
  unfold step
  rw [BitVec.getLsbD_xor, BitVec.ushiftRight_xor_distrib, ite_xor, ite_xor poly _ b, ite_xor,
    ite_xor, ite_xor]
  ac_rfl

theorem run_xor (r s : BitVec w) {bs cs : List Bool} (h : bs.length = cs.length) :
    run poly (r ^^^ s) (bs.zipWith Bool.xor cs) = run poly r bs ^^^ run poly s cs := by
  induction bs generalizing r s cs with
  | nil =>
    rw [List.length_eq_zero_iff.mp h.symm]
    rfl
  | cons b bs ih =>
    cases cs with
    | nil => cases h
    | cons c cs =>
      rw [List.zipWith_cons_cons, run_cons, run_cons, run_cons, ← ih _ _ (Nat.succ.inj h), step_xor]

theorem run_zero (n : ℕ) : run poly 0 (List.replicate n false) = 0 := by
  induction n with
  | zero => rfl
  | succ n ih =>
    have hstep : step poly 0 false = 0 := by simp [step]
    rw [List.replicate_succ, run_cons, hstep, ih]

/-- A register that is fed the bits it holds is shifted out. -/
theorem run_self (r : BitVec w) {bs : List Bool}
    (h : ∀ i < bs.length, r.getLsbD i = bs.getD i false) : run poly r bs = r >>> bs.length := by
  induction bs generalizing r with
  | nil => exact (BitVec.ushiftRight_zero r).symm
  | cons b bs ih =>
    have hb : r.getLsbD 0 = b := h 0 (Nat.succ_pos _)
    have hstep : step poly r b = r >>> 1 := by simp [step, hb]
    rw [run_cons, hstep, ih, ← BitVec.shiftRight_add, List.length_cons, Nat.add_comm]
    intro i hi
    rw [BitVec.getLsbD_ushiftRight, Nat.add_comm, h (i + 1) (Nat.succ_lt_succ hi),
      List.getD_cons_succ]

section
variable {poly} (hp : poly.msb = true)
include hp

/-- With the top bit in the polynomial no state of the register is lost. -/
theorem eq_zero_of_step {r : BitVec w} (h : step poly r false = 0) : r = 0 := by
  have hlow : r.getLsbD 0 = false := by
    by_contra hr
    rw [Bool.not_eq_false] at hr
    have hmsb := congrArg BitVec.msb h
    simp [step, hr, hp, BitVec.msb_ushiftRight] at hmsb
  have hshift : r >>> 1 = 0 := by simpa [step, hlow] using h
  apply BitVec.eq_of_getLsbD_eq
  intro i _
  cases i with
  | zero => simpa using hlow
  | succ i =>
    have hi := congrArg (fun x => x.getLsbD i) hshift
    simpa [Nat.add_comm] using hi

theorem step_injective (b : Bool) : Function.Injective fun r => step poly r b := by
  intro r s h
  have hx : step poly (r ^^^ s) (b ^^ b) = 0 := by
    rw [step_xor]
    exact BitVec.xor_eq_zero_iff.mpr h
  rw [Bool.xor_self] at hx
  exact BitVec.xor_eq_zero_iff.mp (eq_zero_of_step hp hx)

theorem run_injective (bs : List Bool) : Function.Injective fun r => run poly r bs := by
  induction bs with
  | nil => exact fun _ _ h => h
  | cons b bs ih => exact fun r s h => step_injective hp b (ih h)

/-- The check bits `c` behind a text are right if and only if they turn the register to zero. -/
theorem run_bits_eq_zero (r c : BitVec w) {bs : List Bool} (hl : bs.length = w)
    (h : ∀ i < bs.length, c.getLsbD i = bs.getD i false) : run poly r bs = 0 ↔ r = c := by
  have hc : run poly c bs = 0 := by
    rw [run_self poly c h, hl]
    apply BitVec.eq_of_getLsbD_eq
    intro i _
    simp
  rw [← hc]
  exact (run_injective hp bs).eq_iff

/-- A short text that leaves the register at zero has no bit set. -/
theorem eq_false_of_run_short {bs : List Bool} (hl : bs.length ≤ w) (h : run poly 0 bs = 0) :
    ∀ b ∈ bs, b = false := by
  -- the text as a register, and the text without errors
  have hx (i : ℕ) : ((BitVec.ofBoolListLE bs).setWidth w).getLsbD i = bs.getD i false := by
    rw [BitVec.getLsbD_setWidth, BitVec.getLsbD_ofBoolListLE]
    by_cases hi : i < w
    · simp [hi]
    · rw [List.getD_eq_getElem?_getD, List.getElem?_eq_none (by omega)]
      simp
  have hrun := run_self poly ((BitVec.ofBoolListLE bs).setWidth w) fun i _ => hx i
  have hout : (BitVec.ofBoolListLE bs).setWidth w >>> bs.length = 0 := by
    apply BitVec.eq_of_getLsbD_eq
    intro i _
    rw [BitVec.getLsbD_ushiftRight, hx, List.getD_eq_getElem?_getD,
      List.getElem?_eq_none (by omega)]
    simp
  have hzero : (BitVec.ofBoolListLE bs).setWidth w = 0 := by
    refine run_injective hp bs ?_
    dsimp only
    rw [hrun, hout, h]
  intro b hb
  obtain ⟨i, hi, rfl⟩ := List.getElem_of_mem hb
  have hbit := hx i
  rw [hzero] at hbit
  simpa [hi] using hbit.symm

/-- The bits that are set lie among `w` consecutive ones. -/
theorem eq_false_of_run_burst {bs : List Bool} {s : ℕ}
    (hs : ∀ i, bs.getD i false = true → s ≤ i ∧ i < s + w) (h : run poly 0 bs = 0) :
    ∀ b ∈ bs, b = false := by
  have hout : ∀ i, i < s ∨ s + w ≤ i → bs.getD i false = false := by
    intro i hi
    by_contra hb
    have := hs i (by simpa using hb)
    omega
  have hbit {i : ℕ} (hi : i < bs.length) (ho : i < s ∨ s + w ≤ i) : bs[i] = false := by
    have := hout i ho
    rwa [List.getD_eq_getElem?_getD, List.getElem?_eq_getElem hi] at this
  have hfront : bs.take s = List.replicate (bs.take s).length false := by
    refine List.eq_replicate_of_mem fun b hb => ?_
    obtain ⟨i, hi, rfl⟩ := List.getElem_of_mem hb
    rw [List.length_take, Nat.lt_min] at hi
    rw [List.getElem_take]
    exact hbit hi.2 (Or.inl hi.1)
  have hrest : bs.drop (s + w) = List.replicate (bs.drop (s + w)).length false := by
    refine List.eq_replicate_of_mem fun b hb => ?_
    obtain ⟨i, hi, rfl⟩ := List.getElem_of_mem hb
    rw [List.getElem_drop]
    exact hbit _ (Or.inr (Nat.le_add_right _ _))
  have hsplit : bs = bs.take s ++ ((bs.drop s).take w ++ bs.drop (s + w)) := by
    rw [← List.drop_drop, List.take_append_drop, List.take_append_drop]
  -- neither the front nor the rest moves a register that is zero
  have hmid : run poly 0 ((bs.drop s).take w) = 0 := by
    rw [hsplit, run_append, run_append, hfront, run_zero, hrest] at h
    refine run_injective hp (List.replicate (bs.drop (s + w)).length false) ?_
    dsimp only
    rw [h, run_zero]
  have hburst := eq_false_of_run_short hp (List.length_take_le _ _) hmid
  intro b hb
  rw [hsplit, hfront, hrest] at hb
  rcases List.mem_append.mp hb with hb | hb
  · exact (List.mem_replicate.mp hb).2
  rcases List.mem_append.mp hb with hb | hb
  · exact hburst b hb
  · exact (List.mem_replicate.mp hb).2

end

end Crc
