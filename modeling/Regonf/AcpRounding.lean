import Mathlib.Tactic.FieldSimp
import Mathlib.Data.Rat.Floor
import Mathlib.Data.Int.Log
import Regonf.AcpPacket
import Regonf.AcpScan

/-! `%.1f` and `%.3f` of any number in the range of `float`, the decimal that is printed, and the
`float` that is read from it. -/
namespace Regonf

/-- To the nearest integer, and from the middle to the even one. -/
def roundEven (x : ℚ) : ℤ :=
  let f := ⌊x⌋
  if x - f < 1 / 2 then f else if 1 / 2 < x - f then f + 1 else if f % 2 = 0 then f else f + 1

/-- `%.nf`, for `n` above 0. -/
def fmtDec (n : ℕ) (v : ℚ) : List UInt8 :=
  let k := (roundEven (|v| * 10 ^ n)).toNat
  (if v < 0 then [45] else []) ++ Decimal.write (k / 10 ^ n) ++ 46 :: Decimal.fixed n k

theorem isdigit_write {n : ℕ} : ∀ b ∈ Decimal.write n, isdigit b = true := by
  intro b hb
  obtain ⟨h₁, h₂⟩ := Decimal.mem_write hb
  simp [isdigit, h₁, h₂]

theorem roundEven_intCast (k : ℤ) : roundEven k = k := by
  simp [roundEven]

/-- The decimal of `n` places that is printed for `v`. -/
def roundTo (n : ℕ) (v : ℚ) : ℚ :=
  let k : ℚ := (roundEven (|v| * 10 ^ n)).toNat / 10 ^ n
  if v < 0 then -k else k

theorem abs_roundEven_sub_le (x : ℚ) : |(roundEven x : ℚ) - x| ≤ 1 / 2 := by
  have hlo := Int.floor_le x
  have hhi := Int.lt_floor_add_one x
  unfold roundEven
  dsimp only
  split_ifs <;> push_cast <;> rw [abs_le] <;> constructor <;> linarith

theorem roundEven_nonneg {x : ℚ} (h : 0 ≤ x) : 0 ≤ roundEven x := by
  have hf : 0 ≤ ⌊x⌋ := Int.floor_nonneg.mpr h
  unfold roundEven
  dsimp only
  split_ifs <;> omega

theorem toNat_roundEven (v : ℚ) (n : ℕ) :
    (((roundEven (|v| * 10 ^ n)).toNat : ℕ) : ℚ) = roundEven (|v| * 10 ^ n) := by
  have h : 0 ≤ roundEven (|v| * 10 ^ n) := roundEven_nonneg (by positivity)
  rw [← Int.cast_natCast, Int.toNat_of_nonneg h]

/-- What is printed is at most half a unit of the last place off. -/
theorem abs_roundTo_sub_le (n : ℕ) (v : ℚ) : |roundTo n v - v| ≤ 1 / (2 * 10 ^ n) := by
  have hp : (0 : ℚ) < 10 ^ n := by positivity
  have herr := abs_roundEven_sub_le (|v| * 10 ^ n)
  -- the sign does not matter
  have habs : |roundTo n v - v| = |(roundEven (|v| * 10 ^ n) : ℚ) / 10 ^ n - abs v| := by
    unfold roundTo
    dsimp only
    rw [toNat_roundEven]
    split_ifs with h
    · rw [abs_of_neg h, ← abs_neg]
      congr 1
      ring
    · rw [abs_of_nonneg (not_lt.mp h)]
  have hdiv : (roundEven (|v| * 10 ^ n) : ℚ) / 10 ^ n - |v| =
      ((roundEven (|v| * 10 ^ n) : ℚ) - |v| * 10 ^ n) / 10 ^ n := by
    field_simp
  rw [habs, hdiv, abs_div, abs_of_pos hp, div_le_div_iff₀ hp (by positivity)]
  nlinarith [herr]

theorem roundTo_of_decimal {n : ℕ} {v : ℚ} {k : ℤ} (h : v = k / 10 ^ n) : roundTo n v = v := by
  have hp : (0 : ℚ) < 10 ^ n := by positivity
  have hk : |v| * 10 ^ n = ((|k| : ℤ) : ℚ) := by
    rw [h, abs_div, abs_of_pos hp, Int.cast_abs]
    field_simp
  unfold roundTo
  dsimp only
  rw [toNat_roundEven, hk, roundEven_intCast, ← hk, mul_div_cancel_right₀ _ hp.ne']
  split_ifs with hv
  · rw [abs_of_neg hv, neg_neg]
  · exact abs_of_nonneg (not_lt.mp hv)

/-- The digits in front of the point, and behind it. -/
theorem digitsVal_dec (n k : ℕ) :
    digitsVal (Decimal.write (k / 10 ^ n) ++ Decimal.fixed n k) = k := by
  have h : digitsVal (Decimal.write (k / 10 ^ n) ++ Decimal.fixed n k) = _ :=
    Decimal.read_append _ _
  rw [h, Decimal.read_write, Decimal.read_fixed, Decimal.length_fixed]
  exact Nat.div_add_mod' k (10 ^ n)

theorem isdigit_dec (n k : ℕ) :
    ∀ b ∈ Decimal.write (k / 10 ^ n) ++ Decimal.fixed n k, isdigit b = true := by
  refine List.forall_mem_append.mpr ⟨isdigit_write, fun b hb => ?_⟩
  obtain ⟨h₁, h₂⟩ := Decimal.mem_fixed hb
  simp [isdigit, h₁, h₂]

theorem scanDecimal_fmtDec (n : ℕ) (v : ℚ) :
    scanDecimal (fmtDec n v) = some (roundTo n v, []) := by
  set k := (roundEven (|v| * 10 ^ n)).toNat with hk
  refine scanDecimal_iff.mpr ⟨if v < 0 then [45] else [], Decimal.write (k / 10 ^ n),
    some (Decimal.fixed n k), ⟨[], List.forall_mem_nil _, ?_, by simp [Decimal.write_ne_nil],
      isdigit_dec n k, by simp, by simp [fmtDec, ← hk]⟩, ?_⟩
  · split_ifs <;> simp
  · rw [Option.getD_some, digitsVal_dec, Decimal.length_fixed, Rat.mkRat_eq_div, roundTo, ← hk]
    by_cases hv : v < 0
    · simp only [hv, ↓reduceIte]
      push_cast
      rfl
    · simp only [hv, ↓reduceIte]
      rw [if_neg (by decide)]
      push_cast
      rfl

/-- At most 39 digits in front of the point. -/
theorem length_fmtDec (n : ℕ) {v : ℚ} (h : |v| < 2 ^ 128) : (fmtDec n v).length ≤ n + 41 := by
  have hp : (0 : ℚ) < 10 ^ n := by positivity
  have hk : (((roundEven (|v| * 10 ^ n)).toNat : ℕ) : ℚ) < 2 ^ 128 * 10 ^ n + 1 := by
    have herr := abs_le.mp (abs_roundEven_sub_le (|v| * 10 ^ n))
    have hlt : |v| * 10 ^ n < 2 ^ 128 * 10 ^ n := mul_lt_mul_of_pos_right h hp
    rw [toNat_roundEven]
    linarith [herr.2]
  have hk' : (roundEven (|v| * 10 ^ n)).toNat < 2 ^ 128 * 10 ^ n + 1 := by exact_mod_cast hk
  have hdiv : (roundEven (|v| * 10 ^ n)).toNat / 10 ^ n < 10 ^ 39 := by
    rw [Nat.div_lt_iff_lt_mul (by positivity)]
    have : 1 ≤ 10 ^ n := Nat.one_le_pow _ _ (by decide)
    omega
  have hw := Decimal.length_write_le (by decide) hdiv
  rw [fmtDec]
  simp only [List.length_append, List.length_cons, Decimal.length_fixed]
  split_ifs <;> simp <;> omega

/-! The `float` that `%f` makes of a decimal. -/

/-- The exponent of the last of the 24 binary digits of a `float` near `v`; the subnormal numbers
have the least one. -/
def floatExp (v : ℚ) : ℤ := max (Int.log 2 |v| - 23) (-149)

/-- The `float` nearest to a number in the range of `float`, in the middle the even one. -/
def toFloat (v : ℚ) : ℚ := roundEven (v / 2 ^ floatExp v) * 2 ^ floatExp v

/-- `%f` of a plain decimal into a `float`. -/
def scanFloat (s : List UInt8) : Option (ℚ × List UInt8) :=
  (scanDecimal s).map fun r => (toFloat r.1, r.2)

theorem conversion_scanFloat : Conversion scanFloat := conversion_scanDecimal.map toFloat

/-- A decimal of three places is no subnormal number. -/
theorem abs_toFloat_sub_le {v : ℚ} {k : ℤ} (hv : v = k / 10 ^ 3) :
    |toFloat v - v| ≤ |v| / 2 ^ 24 := by
  by_cases hk : k = 0
  · subst hk
    simp [hv, toFloat, roundEven]
  have h1 : (1 : ℚ) ≤ ((|k| : ℤ) : ℚ) := by exact_mod_cast Int.one_le_abs hk
  have habs : |v| = ((|k| : ℤ) : ℚ) / 1000 := by
    rw [hv, abs_div, Int.cast_abs]
    norm_num
  have hpos : 0 < |v| := by
    rw [habs]
    positivity
  have hlog : -10 ≤ Int.log 2 |v| := by
    rw [← Int.zpow_le_iff_le_log (by decide) hpos, habs, le_div_iff₀ (by norm_num)]
    refine le_trans ?_ h1
    norm_num
  have hexp : floatExp v = Int.log 2 |v| - 23 := max_eq_left (by omega)
  -- the last place is worth at most this part of the number
  have hunit : (2 : ℚ) ^ floatExp v ≤ |v| / 2 ^ 23 := by
    have hle : (2 : ℚ) ^ Int.log 2 |v| ≤ |v| := by
      exact_mod_cast Int.zpow_log_le_self (b := 2) (by decide) hpos
    rw [hexp, zpow_sub₀ (by norm_num)]
    exact div_le_div_of_nonneg_right hle (by norm_num)
  have hu : (0 : ℚ) < 2 ^ floatExp v := zpow_pos (by norm_num) _
  have herr := abs_roundEven_sub_le (v / 2 ^ floatExp v)
  calc |toFloat v - v| = |(roundEven (v / 2 ^ floatExp v) : ℚ) - v / 2 ^ floatExp v| *
        2 ^ floatExp v := by
        rw [toFloat, ← abs_of_pos hu, ← abs_mul, abs_of_pos hu, sub_mul, div_mul_cancel₀ _ hu.ne']
    _ ≤ 1 / 2 * 2 ^ floatExp v := mul_le_mul_of_nonneg_right herr hu.le
    _ ≤ 1 / 2 * (|v| / 2 ^ 23) := mul_le_mul_of_nonneg_left hunit (by norm_num)
    _ = |v| / 2 ^ 24 := by ring

/-- A printed value is a whole number of its last places. -/
theorem exists_roundTo (n : ℕ) (v : ℚ) : ∃ k : ℤ, roundTo n v = k / 10 ^ n := by
  unfold roundTo
  dsimp only
  split_ifs
  · exact ⟨-(roundEven (|v| * 10 ^ n)).toNat, by push_cast; ring⟩
  · exact ⟨(roundEven (|v| * 10 ^ n)).toNat, by push_cast; ring⟩

/-- What is printed with three places and then read. -/
theorem abs_toFloat_roundTo_sub_le (v : ℚ) :
    |toFloat (roundTo 3 v) - v| ≤ 1 / 2000 + |roundTo 3 v| / 2 ^ 24 := by
  obtain ⟨k, hk⟩ := exists_roundTo 3 v
  have h₁ := abs_toFloat_sub_le hk
  have h₂ := abs_roundTo_sub_le 3 v
  calc |toFloat (roundTo 3 v) - v|
      ≤ |toFloat (roundTo 3 v) - roundTo 3 v| + |roundTo 3 v - v| := abs_sub_le _ _ _
    _ ≤ 1 / 2000 + |roundTo 3 v| / 2 ^ 24 := by
        norm_num at h₂ ⊢
        linarith

/-- The nearest integer is the one less than a half off. -/
theorem roundEven_eq {x : ℚ} {k : ℤ} (h : |x - k| < 1 / 2) : roundEven x = k := by
  have herr := abs_roundEven_sub_le x
  have hlt : |((roundEven x - k : ℤ) : ℚ)| < 1 := by
    push_cast
    calc |(roundEven x : ℚ) - k| ≤ |(roundEven x : ℚ) - x| + |x - k| := abs_sub_le _ _ _
      _ < 1 := by linarith
  have hz : |roundEven x - k| < 1 := by exact_mod_cast hlt
  have h0 := Int.abs_lt_one_iff.mp hz
  omega

/-- A number that is less than half a unit of the last place off is printed as the same decimal. -/
theorem roundTo_near {n : ℕ} {v d : ℚ} {k : ℤ} (hd : d = k / 10 ^ n)
    (h : |v - d| < 1 / (2 * 10 ^ n)) : roundTo n v = d := by
  have hp : (0 : ℚ) < 10 ^ n := by positivity
  have hnear : |v * 10 ^ n - k| < 1 / 2 := by
    have he : v * 10 ^ n - k = (v - d) * 10 ^ n := by
      rw [hd]
      field_simp
    rw [he, abs_mul, abs_of_pos hp, ← lt_div_iff₀ hp]
    calc |v - d| < 1 / (2 * 10 ^ n) := h
      _ = 1 / 2 / 10 ^ n := by field_simp
  have hround : roundEven (|v| * 10 ^ n) = |k| := by
    refine roundEven_eq (lt_of_le_of_lt ?_ hnear)
    have habs : |v| * 10 ^ n = |v * 10 ^ n| := by rw [abs_mul, abs_of_pos hp]
    rw [habs, Int.cast_abs]
    exact abs_abs_sub_abs_le _ _
  obtain ⟨hlo, hhi⟩ := abs_lt.mp hnear
  unfold roundTo
  dsimp only
  rw [toNat_roundEven, hround, hd]
  -- the decimal has the sign of the number, or is zero
  split_ifs with hv
  · have hk : k ≤ 0 := by
      have : v * 10 ^ n < 0 := mul_neg_of_neg_of_pos hv hp
      have hk1 : (k : ℚ) < 1 := by linarith
      have : k < 1 := by exact_mod_cast hk1
      omega
    rw [abs_of_nonpos hk]
    push_cast
    ring
  · have hk : 0 ≤ k := by
      have : 0 ≤ v * 10 ^ n := mul_nonneg (not_lt.mp hv) hp.le
      have hk1 : (-1 : ℚ) < k := by linarith
      have : -1 < k := by exact_mod_cast hk1
      omega
    rw [abs_of_nonneg hk]

/-- A decimal that is read into a `float` is printed again as it was, as long as the `float` is less
than half of a thousandth off. -/
theorem roundTo_toFloat {v : ℚ} (h : |roundTo 3 v| ≤ 8001) :
    roundTo 3 (toFloat (roundTo 3 v)) = roundTo 3 v := by
  obtain ⟨k, hk⟩ := exists_roundTo 3 v
  refine roundTo_near hk (lt_of_le_of_lt (abs_toFloat_sub_le hk) ?_)
  calc |roundTo 3 v| / 2 ^ 24 ≤ 8001 / 2 ^ 24 := div_le_div_of_nonneg_right h (by norm_num)
    _ < 1 / (2 * 10 ^ 3) := by norm_num

end Regonf
