import Mathlib.Data.Nat.Digits.Lemmas
import Mathlib.Tactic.Common

/-! Decimal notation of natural numbers in ASCII bytes. -/
namespace Regonf.Decimal

/-- The byte that writes a digit. -/
def digit (d : ℕ) : UInt8 := UInt8.ofNat (d + 48)

/-- The notation without leading zeros. -/
def write (n : ℕ) : List UInt8 :=
  if n = 0 then [digit 0] else (Nat.digits 10 n).reverse.map digit

/-- The last `k` digits, with leading zeros. -/
def fixed : ℕ → ℕ → List UInt8
  | 0, _ => []
  | k + 1, n => fixed k (n / 10) ++ [digit (n % 10)]

def read (ds : List UInt8) : ℕ := ds.foldl (fun v d => v * 10 + (d.toNat - 48)) 0

theorem digit_toNat {d : ℕ} (h : d < 10) : (digit d).toNat = d + 48 := by
  rw [digit, UInt8.toNat_ofNat']
  exact Nat.mod_eq_of_lt (by omega)

theorem digit_mem {d : ℕ} (h : d < 10) : 48 ≤ digit d ∧ digit d ≤ 57 := by
  have ht := digit_toNat h
  constructor <;> rw [UInt8.le_iff_toNat_le, ht]
  · exact Nat.le_add_left 48 d
  · change d + 48 ≤ 57
    omega

theorem mem_write {n : ℕ} {b : UInt8} (h : b ∈ write n) : 48 ≤ b ∧ b ≤ 57 := by
  unfold write at h
  split_ifs at h with hn
  · rw [List.mem_singleton.mp h]
    exact digit_mem (by decide)
  · obtain ⟨d, hd, rfl⟩ := List.mem_map.mp h
    exact digit_mem (Nat.digits_lt_base (by decide) (List.mem_reverse.mp hd))

theorem mem_fixed {k n : ℕ} {b : UInt8} (h : b ∈ fixed k n) : 48 ≤ b ∧ b ≤ 57 := by
  induction k generalizing n with
  | zero => cases h
  | succ k ih =>
    rcases List.mem_append.mp h with h | h
    · exact ih h
    · rw [List.mem_singleton.mp h]
      exact digit_mem (Nat.mod_lt _ (by decide))

theorem write_ne_nil (n : ℕ) : write n ≠ [] := by
  unfold write
  split_ifs with hn
  · simp
  · simpa [Nat.digits_eq_nil_iff_eq_zero] using hn

theorem length_write_le {n k : ℕ} (hk : 0 < k) (h : n < 10 ^ k) : (write n).length ≤ k := by
  unfold write
  split_ifs with hn
  · exact hk
  · simpa using (Nat.digits_length_le_iff (by decide) n).mpr h

@[simp] theorem length_fixed (k n : ℕ) : (fixed k n).length = k := by
  induction k generalizing n with
  | zero => rfl
  | succ k ih => simp [fixed, ih]

theorem read_append (a b : List UInt8) : read (a ++ b) = read a * 10 ^ b.length + read b := by
  -- `read` goes from the left, so the last digit of `b` is taken off
  induction b using List.reverseRecOn with
  | nil => simp [read]
  | append_singleton b d ih =>
    have hr (l : List UInt8) : read (l ++ [d]) = read l * 10 + (d.toNat - 48) := by
      simp [read, List.foldl_append]
    rw [← List.append_assoc, hr, hr, ih, List.length_append, List.length_singleton, pow_succ]
    ring

theorem read_singleton {d : ℕ} (h : d < 10) : read [digit d] = d := by
  simp [read, digit_toNat h]

theorem read_digits {ds : List ℕ} (h : ∀ d ∈ ds, d < 10) :
    read (ds.reverse.map digit) = Nat.ofDigits 10 ds := by
  induction ds with
  | nil => rfl
  | cons d ds ih =>
    rw [List.reverse_cons, List.map_append, read_append,
      ih fun e he => h e (List.mem_cons_of_mem d he), List.map_singleton,
      read_singleton (h d List.mem_cons_self), Nat.ofDigits_cons]
    simp
    ring

/-- What is written is read back. -/
theorem read_write (n : ℕ) : read (write n) = n := by
  unfold write
  split_ifs with hn
  · rw [hn]
    exact read_singleton (by decide)
  · rw [read_digits fun d hd => Nat.digits_lt_base (by decide) hd, Nat.ofDigits_digits]

theorem read_fixed (k n : ℕ) : read (fixed k n) = n % 10 ^ k := by
  induction k generalizing n with
  | zero => simp [fixed, read, Nat.mod_one]
  | succ k ih =>
    rw [fixed, read_append, ih, read_singleton (Nat.mod_lt _ (by decide)), List.length_singleton,
      pow_one, pow_succ', Nat.mod_mul]
    ring

end Regonf.Decimal
