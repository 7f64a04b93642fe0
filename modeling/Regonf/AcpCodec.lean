import Regonf.AcpFields
import Regonf.AcpRounding
import Regonf.AcpRows

/-! The rows that `lib/acp/main.c` writes, and that the row decoders read them back. -/
namespace Regonf

open Rows

variable {V : Type*}

def LINE_SIZE : ℕ := 256

/-- `ACP_FLOAT_FORMAT`, which is `%.3f`. -/
def fmtF : ℚ → List UInt8 := fmtDec 3

def fmtI1 (p0 : ℤ) : List UInt8 := fmtD p0 ++ [ACP_DELIMITER_ROW]

/-- The row of an `int` and a second column. -/
def fmtI1X (fmt : V → List UInt8) (i : I1X V) : List UInt8 :=
  fmtD i.p0 ++ ACP_DELIMITER_COLUMN :: fmt i.p1 ++ [ACP_DELIMITER_ROW]

def fmtFTS (f : FTS ℚ) : List UInt8 :=
  fmtD f.id ++ ACP_DELIMITER_COLUMN :: fmtF f.value ++ ACP_DELIMITER_COLUMN :: fmtD f.tm.tv_sec ++
    ACP_DELIMITER_COLUMN :: fmtD f.tm.tv_nsec ++ ACP_DELIMITER_COLUMN :: fmtD f.state ++
    [ACP_DELIMITER_ROW]

/-- The loop of a sender over the rows of its list; a row that is not a string is undefined. -/
def acpRequestCatRows : ACPRequest → List (Option (List UInt8)) → Option (Bool × ACPRequest)
  | item, [] => some (true, item)
  | item, q :: qs =>
    q.bind fun q => (acpRequestStrCat item (q.take (LINE_SIZE - 1))).bind fun r =>
      if r.1 then acpRequestCatRows r.2 qs else some (false, r.2)

/-- The `acp_requestSend*List` functions: the result, the request, and the datagram if one is handed
to `sendto`. -/
def acpRequestSendList (fmt : V → Option (List UInt8)) (cmd : List UInt8) (data : List V)
    (request : ACPRequest) (id : UInt32) (sendto : List UInt8 → ℤ) :
    Option (Bool × ACPRequest × Option (List UInt8)) :=
  (acpRequestCatRows (acpRequestSetCmd (acpRequestInit request) cmd) (data.map fmt)).bind fun r =>
    if r.1 then
      (acpRequestSend r.2 id sendto).map fun s => (!decide (s.1 < 0), s.2.1, some s.2.2)
    else some (false, r.2, none)

def acpRequestSendI1List := acpRequestSendList fun p0 => some (fmtI1 p0)

def acpRequestSendI2List := acpRequestSendList fun i => some (fmtI1X fmtD i)

def acpRequestSendI1F1List := acpRequestSendList fun i => some (fmtI1X fmtF i)

def acpRequestSendI1U321List := acpRequestSendList fun i => some (fmtI1X fmtU i)

theorem acpRequestCatRows_some (item : ACPRequest) (qs : List (List UInt8)) :
    acpRequestCatRows item (qs.map some) =
      acpRequestStrCats item (qs.map fun q => q.take (LINE_SIZE - 1)) := by
  induction qs generalizing item with
  | nil => rfl
  | cons q qs ih =>
    rw [List.map_cons, List.map_cons, acpRequestCatRows, acpRequestStrCats, Option.bind_some]
    congr 1
    funext r
    rw [ih]

theorem map_some_rows (fmt : V → List UInt8) (data : List V) :
    data.map (fun a => some (fmt a)) = (data.map fmt).map some := by
  rw [List.map_map]
  rfl

def acpResponseFTSCat (f : FTS ℚ) (response : ACPResponseOut) : Option (Bool × ACPResponseOut) :=
  acpResponseStrCat response ((fmtFTS f).take (LINE_SIZE - 1))

/-- Calls of `acp_responseFTSCat` one after another, up to the first that fails. -/
def acpResponseFTSCats : ACPResponseOut → List (FTS ℚ) → Option (Bool × ACPResponseOut)
  | response, [] => some (true, response)
  | response, f :: fs =>
    (acpResponseFTSCat f response).bind fun r =>
      if r.1 then acpResponseFTSCats r.2 fs else some (false, r.2)

/-- The values of `int`. -/
def IsInt (v : ℤ) : Prop := -2 ^ 31 ≤ v ∧ v < 2 ^ 31

/-- The values of `long`. -/
def IsLong (v : ℤ) : Prop := -2 ^ 63 ≤ v ∧ v < 2 ^ 63

/-- A real in the range of `float` with at most three decimals. -/
def IsMilli (v : ℚ) : Prop := (∃ k : ℤ, v = k / 1000) ∧ |v| < 2 ^ 128

/-- `w` is a column that writes `v`: a short text of digits, `-` and `.` that `conv` reads. -/
structure Writes (conv : List UInt8 → Option (V × List UInt8)) (w : List UInt8) (v : V) : Prop where
  read : conv w = some (v, [])
  chars : ∀ b ∈ w, isdigit b = true ∨ b = 45 ∨ b = 46
  length : w.length ≤ 44

theorem isspace_of_number {b : UInt8} (h : isdigit b = true ∨ b = 45 ∨ b = 46) :
    isspace b = false := by
  rcases h with h | rfl | rfl
  · exact isspace_of_isdigit h
  · rfl
  · rfl

section
variable {conv : List UInt8 → Option (V × List UInt8)} {w : List UInt8} {v : V}

theorem Writes.not_mem (h : Writes conv w v) {b : UInt8}
    (hb : isdigit b = false ∧ b ≠ 45 ∧ b ≠ 46) : b ∉ w := by
  intro hm
  rcases h.chars b hm with hd | rfl | rfl
  · rw [hb.1] at hd
    cases hd
  · exact hb.2.1 rfl
  · exact hb.2.2 rfl

theorem Writes.column (h : Writes conv w v) : column conv w = some v := by
  have hhead : w.head?.any isspace = false := by
    cases w with
    | nil => rfl
    | cons b w => exact isspace_of_number (h.chars b List.mem_cons_self)
  rw [Regonf.column, hhead, h.read]
  rfl

end

theorem beginsInt_write (neg : Bool) (n : ℕ) :
    BeginsInt (if neg then [45] else []) (Decimal.write n) []
      ((if neg then [45] else []) ++ Decimal.write n) := by
  refine ⟨[], List.forall_mem_nil _, ?_, Decimal.write_ne_nil n, isdigit_write, by simp, by simp⟩
  cases neg <;> simp

theorem fmtD_eq (v : ℤ) :
    fmtD v = (if decide (v < 0) = true then [45] else []) ++ Decimal.write v.natAbs := by
  unfold fmtD
  by_cases h : v < 0 <;> simp [h]

theorem signed_write (v : ℤ) :
    signed (if decide (v < 0) = true then [45] else []) (Decimal.write v.natAbs) = v := by
  have hread : digitsVal (Decimal.write v.natAbs) = v.natAbs := Decimal.read_write _
  rw [signed, hread]
  by_cases h : v < 0
  · rw [decide_eq_true h, if_pos rfl, if_pos rfl]
    omega
  · rw [decide_eq_false h, if_neg (by decide)]
    omega

theorem scanLong_fmtD {v : ℤ} (h : IsLong v) : scanLong (fmtD v) = some (v, []) := by
  refine scanLong_iff.mpr ⟨_, _, fmtD_eq v ▸ beginsInt_write _ _, ?_⟩
  rw [signed_write]
  unfold IsLong at h
  omega

theorem IsInt.isLong {v : ℤ} (h : IsInt v) : IsLong v := by
  unfold IsInt IsLong at *
  omega

theorem scanInt_fmtD {v : ℤ} (h : IsInt v) : scanInt (fmtD v) = some (v, []) := by
  rw [scanInt, scanLong_fmtD h.isLong, Option.map_some]
  congr 2
  unfold IsInt at h
  exact Int.bmod_eq_of_le (by omega) (by omega)

theorem chars_fmtD (v : ℤ) : ∀ b ∈ fmtD v, isdigit b = true ∨ b = 45 ∨ b = 46 := by
  intro b hb
  rw [fmtD_eq] at hb
  rcases List.mem_append.mp hb with h | h
  · split_ifs at h
    · exact Or.inr (Or.inl (List.mem_singleton.mp h))
    · cases h
  · exact Or.inl (isdigit_write b h)

theorem length_fmtD {v : ℤ} (h : IsLong v) : (fmtD v).length ≤ 20 := by
  have hw : (Decimal.write v.natAbs).length ≤ 19 := by
    refine Decimal.length_write_le (by decide) ?_
    unfold IsLong at h
    omega
  rw [fmtD_eq, List.length_append]
  split_ifs <;> simp <;> omega

theorem writes_long {v : ℤ} (h : IsLong v) : Writes scanLong (fmtD v) v :=
  ⟨scanLong_fmtD h, chars_fmtD v, le_trans (length_fmtD h) (by decide)⟩

theorem writes_int {v : ℤ} (h : IsInt v) : Writes scanInt (fmtD v) v :=
  ⟨scanInt_fmtD h, chars_fmtD v, le_trans (length_fmtD h.isLong) (by decide)⟩

theorem writes_uint (n : UInt32) : Writes scanUInt (fmtU n) n := by
  refine ⟨?_, fun b hb => Or.inl (fmtU_digits n b hb), le_trans (length_fmtU n) (by decide)⟩
  have hread : digitsVal (fmtU n) = n.toNat := Decimal.read_write _
  have hb : scanDigits (fmtU n) = some (false, fmtU n, []) :=
    scanDigits_iff.mpr ⟨[], beginsInt_write false n.toNat, rfl⟩
  have hn := n.toNat_lt
  rw [scanUInt, hb, Option.map_some]
  dsimp only
  rw [hread, if_neg (by omega), if_neg (by simp), UInt32.ofNat_toNat]

theorem writes_fmtDec {n : ℕ} (hn : n ≤ 3) {v : ℚ} (h : |v| < 2 ^ 128) :
    Writes scanDecimal (fmtDec n v) (roundTo n v) := by
  refine ⟨scanDecimal_fmtDec n v, fun b hb => ?_, le_trans (length_fmtDec n h) (by omega)⟩
  rw [fmtDec, List.append_assoc, List.mem_append, List.mem_append, List.mem_cons] at hb
  rcases hb with hb | hb | rfl | hb
  · split_ifs at hb
    · exact Or.inr (Or.inl (List.mem_singleton.mp hb))
    · cases hb
  · exact Or.inl (isdigit_dec n _ b (List.mem_append_left _ hb))
  · exact Or.inr (Or.inr rfl)
  · exact Or.inl (isdigit_dec n _ b (List.mem_append_right _ hb))

theorem writes_decimal {v : ℚ} (h : IsMilli v) : Writes scanDecimal (fmtF v) v := by
  obtain ⟨⟨k, hk⟩, hv⟩ := h
  -- nothing is rounded
  have hround : roundTo 3 v = v := roundTo_of_decimal (k := k) (by rw [hk]; norm_num)
  have hw := writes_fmtDec (le_refl 3) hv
  rwa [hround] at hw

end Regonf
