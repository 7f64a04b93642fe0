import Regonf.AcpBlocks
import Regonf.Lib.Crc

/-! The CRC check of a packet sees every burst of errors that is not longer than a byte. -/
namespace Regonf

/-- The bits of a byte in the order in which `crc_update` takes them. -/
def bits (b : UInt8) : List Bool := (List.range 8).map b.toBitVec.getLsbD

@[simp] theorem length_bits (b : UInt8) : (bits b).length = 8 := by simp [bits]

theorem getD_bits (b : UInt8) {i : ℕ} (h : i < (bits b).length) :
    b.toBitVec.getLsbD i = (bits b).getD i false := by
  rw [length_bits] at h
  simp [bits, h]

theorem bits_xor (a b : UInt8) : bits (a ^^^ b) = (bits a).zipWith Bool.xor (bits b) := by
  rw [bits, bits, bits, List.zipWith_map, List.zipWith_self]
  exact List.map_congr_left fun i _ => by rw [UInt8.toBitVec_xor, BitVec.getLsbD_xor]

theorem flatMap_bits_zipWith {xs ys : List UInt8} (h : xs.length = ys.length) :
    (xs.zipWith (· ^^^ ·) ys).flatMap bits =
      (xs.flatMap bits).zipWith Bool.xor (ys.flatMap bits) := by
  induction xs generalizing ys with
  | nil => rfl
  | cons x xs ih =>
    cases ys with
    | nil => cases h
    | cons y ys =>
      rw [List.zipWith_cons_cons, List.flatMap_cons, List.flatMap_cons, List.flatMap_cons,
        List.zipWith_append (by simp), ih (Nat.succ.inj h), bits_xor]

theorem length_flatMap_bits (xs : List UInt8) : (xs.flatMap bits).length = 8 * xs.length := by
  induction xs with
  | nil => rfl
  | cons x xs ih => rw [List.flatMap_cons, List.length_append, ih, length_bits, List.length_cons,
      Nat.mul_succ, Nat.add_comm]

theorem lowBit_ne_zero (x : UInt8) : x &&& 1 ≠ 0 ↔ x.toBitVec.getLsbD 0 = true := by
  have h : (x &&& 1).toBitVec = BitVec.setWidth 8 (BitVec.ofBool (x.toBitVec.getLsbD 0)) := by
    rw [UInt8.toBitVec_and]
    exact BitVec.and_one_eq_setWidth_ofBool_getLsbD
  rw [ne_eq, ← UInt8.toBitVec_inj, h]
  cases x.toBitVec.getLsbD 0 <;> decide

/-- A turn of the loop is a step of the register with the polynomial of the source. -/
theorem crcUpdateBit_eq (s : UInt8 × UInt8) : (crcUpdateBit s).1.toBitVec =
    Crc.step 0x8c#8 s.1.toBitVec (s.2.toBitVec.getLsbD 0) := by
  unfold crcUpdateBit Crc.step
  simp only [lowBit_ne_zero, UInt8.toBitVec_xor, BitVec.getLsbD_xor]
  split_ifs <;> simp

theorem crcUpdate_iterate (crc b : UInt8) (n : ℕ) :
    (crcUpdateBit^[n] (crc, b)).1.toBitVec =
        Crc.run 0x8c#8 crc.toBitVec ((List.range n).map b.toBitVec.getLsbD) ∧
      (crcUpdateBit^[n] (crc, b)).2.toBitVec = b.toBitVec >>> n := by
  induction n with
  | zero => exact ⟨rfl, (BitVec.ushiftRight_zero _).symm⟩
  | succ n ih =>
    rw [Function.iterate_succ_apply']
    constructor
    · rw [crcUpdateBit_eq, ih.1, ih.2, List.range_succ, List.map_append, Crc.run_append,
        BitVec.getLsbD_ushiftRight]
      rfl
    · have hshift : (crcUpdateBit (crcUpdateBit^[n] (crc, b))).2.toBitVec =
          (crcUpdateBit^[n] (crc, b)).2.toBitVec >>> 1 := by
        simp [crcUpdateBit]
      rw [hshift, ih.2, BitVec.shiftRight_add]

theorem crcUpdate_eq (crc b : UInt8) :
    (crcUpdate crc b).toBitVec = Crc.run 0x8c#8 crc.toBitVec (bits b) :=
  (crcUpdate_iterate crc b 8).1

theorem crcUpdateByStr_eq (crc : UInt8) (str : List UInt8) :
    (crcUpdateByStr crc str).toBitVec = Crc.run 0x8c#8 crc.toBitVec (str.flatMap bits) := by
  induction str generalizing crc with
  | nil => rfl
  | cons b str ih =>
    rw [List.flatMap_cons, Crc.run_append, ← crcUpdate_eq]
    exact ih (crcUpdate crc b)

/-- Byte `n` of a buffer is the CRC: the third delimiter of blocks stands right in front of it. -/
def CrcAt (n : ℕ) (buf : List UInt8) : Prop :=
  n < buf.length ∧ (buf.take n).count ACP_DELIMITER_BLOCK = ACP_BLOCK_IND_CRC ∧
    (buf.take n).getLast? = some ACP_DELIMITER_BLOCK

instance (n : ℕ) (buf : List UInt8) : Decidable (CrcAt n buf) :=
  inferInstanceAs (Decidable (_ ∧ _))

/-- The check compares the byte behind a front that ends with the third delimiter. -/
theorem acpCrcCheckFrom_front {f : List UInt8} {k : ℕ}
    (hc : k + f.count ACP_DELIMITER_BLOCK = ACP_BLOCK_IND_CRC)
    (hl : f.getLast? = some ACP_DELIMITER_BLOCK) (crc c : UInt8) (t : List UInt8) :
    acpCrcCheckFrom false k crc (f ++ c :: t) = (c == crcUpdateByStr crc f) := by
  induction f generalizing k crc with
  | nil => cases hl
  | cons b f ih =>
    have hstep : acpCrcCheckFrom false k crc (b :: f ++ c :: t) =
        acpCrcCheckFrom ((if b = ACP_DELIMITER_BLOCK then k + 1 else k) == ACP_BLOCK_IND_CRC)
          (if b = ACP_DELIMITER_BLOCK then k + 1 else k) (crcUpdate crc b) (f ++ c :: t) := by
      simp only [List.cons_append, acpCrcCheckFrom, Bool.false_eq_true, ↓reduceIte]
    have hcount : (if b = ACP_DELIMITER_BLOCK then k + 1 else k) + f.count ACP_DELIMITER_BLOCK =
        ACP_BLOCK_IND_CRC := by
      rw [← hc]
      by_cases hb : b = ACP_DELIMITER_BLOCK
      · rw [if_pos hb, hb, List.count_cons_self]
        omega
      · rw [if_neg hb, List.count_cons_of_ne hb]
    rw [hstep]
    cases f with
    | nil =>
      -- the third delimiter itself: the next byte is the CRC
      have hk : (if b = ACP_DELIMITER_BLOCK then k + 1 else k) = ACP_BLOCK_IND_CRC := hcount
      rw [hk]
      rfl
    | cons b' f =>
      rw [List.getLast?_cons_cons] at hl
      -- a delimiter is still to come
      have hpos : 0 < (b' :: f).count ACP_DELIMITER_BLOCK :=
        List.count_pos_iff.mpr (List.mem_of_getLast? hl)
      have hk : (if b = ACP_DELIMITER_BLOCK then k + 1 else k) ≠ ACP_BLOCK_IND_CRC := by omega
      rw [beq_false_of_ne hk]
      exact ih hcount hl (crcUpdate crc b)

/-- An accepted buffer has a CRC byte. -/
theorem exists_crcAt_from {k : ℕ} {crc : UInt8} {buf : List UInt8} (hk : k < ACP_BLOCK_IND_CRC)
    (h : acpCrcCheckFrom false k crc buf = true) : ∃ n < buf.length,
      k + (buf.take n).count ACP_DELIMITER_BLOCK = ACP_BLOCK_IND_CRC ∧
        (buf.take n).getLast? = some ACP_DELIMITER_BLOCK := by
  induction buf generalizing k crc with
  | nil => cases h
  | cons b buf ih =>
    simp only [acpCrcCheckFrom, Bool.false_eq_true, ↓reduceIte] at h
    by_cases hb : b = ACP_DELIMITER_BLOCK
    · rw [if_pos hb] at h
      by_cases hk' : k + 1 = ACP_BLOCK_IND_CRC
      · rw [hk'] at h
        cases buf with
        | nil => cases h
        | cons c buf => exact ⟨1, by simp, by simp [hb, hk'], by simp [hb]⟩
      · rw [beq_false_of_ne hk'] at h
        obtain ⟨n, hn, hc, hl⟩ := ih (by unfold ACP_BLOCK_IND_CRC at *; omega) h
        refine ⟨n + 1, Nat.succ_lt_succ hn, ?_, ?_⟩
        · rw [List.take_succ_cons, hb, List.count_cons_self]
          omega
        · rw [List.take_succ_cons, List.getLast?_cons, hl]
          rfl
    · rw [if_neg hb, beq_false_of_ne (by omega)] at h
      obtain ⟨n, hn, hc, hl⟩ := ih hk h
      refine ⟨n + 1, Nat.succ_lt_succ hn, ?_, ?_⟩
      · rw [List.take_succ_cons, List.count_cons_of_ne hb]
        exact hc
      · rw [List.take_succ_cons, List.getLast?_cons, hl]
        rfl

/-- The errors `e` on the front of a buffer. -/
def corrupt (buf e : List UInt8) : List UInt8 := buf.zipWith (· ^^^ ·) e ++ buf.drop e.length

/-- Errors on the bytes up to and including the CRC byte `n` that are confined to eight consecutive
bits and neither make nor unmake a delimiter of blocks in front of that byte. -/
structure Burst (n : ℕ) (buf e : List UInt8) : Prop where
  length : e.length = n + 1
  nonzero : ∃ x ∈ e, x ≠ 0
  confined : ∃ s, ∀ p, (e.flatMap bits).getD p false = true → s ≤ p ∧ p < s + 8
  delimiters : ∀ i < n, (corrupt buf e)[i]? = some ACP_DELIMITER_BLOCK ↔
    buf[i]? = some ACP_DELIMITER_BLOCK

/-- With its CRC byte a front turns the register to zero. -/
theorem crc_eq_iff (c : UInt8) (f : List UInt8) :
    c = crcUpdateByStr 0 f ↔ Crc.run 0x8c#8 0 ((f ++ [c]).flatMap bits) = 0 := by
  have hone : [c].flatMap bits = bits c := by simp
  have hrun : Crc.run 0x8c#8 (crcUpdateByStr 0 f).toBitVec (bits c) = 0 ↔ _ :=
    Crc.run_bits_eq_zero rfl _ c.toBitVec (length_bits c) fun _ => getD_bits c
  rw [List.flatMap_append, Crc.run_append, hone, ← UInt8.toBitVec_inj, eq_comm, ← hrun,
    crcUpdateByStr_eq]
  rfl

/-- The check of a buffer with a CRC byte. -/
theorem acpCrcCheck_iff_run {n : ℕ} {buf : List UInt8} (h : CrcAt n buf) :
    acpCrcCheck buf = true ↔ Crc.run 0x8c#8 0 ((buf.take (n + 1)).flatMap bits) = 0 := by
  obtain ⟨hn, hc, hl⟩ := h
  have hbuf : buf = buf.take n ++ buf[n] :: buf.drop (n + 1) := by
    rw [← List.drop_eq_getElem_cons hn, List.take_append_drop]
  have hcheck : acpCrcCheck buf = (buf[n] == crcUpdateByStr 0 (buf.take n)) := by
    conv_lhs => rw [hbuf]
    exact acpCrcCheckFrom_front ((Nat.zero_add _).trans hc) hl 0 _ _
  rw [hcheck, beq_iff_eq, crc_eq_iff, ← List.take_succ_eq_append_getElem hn]

theorem eq_zero_of_bits {x : UInt8} (h : ∀ b ∈ bits x, b = false) : x = 0 := by
  rw [← UInt8.toBitVec_inj]
  apply BitVec.eq_of_getLsbD_eq
  intro i hi
  rw [h _ (List.mem_map_of_mem (List.mem_range.mpr hi))]
  simp

/-- The delimiters of a corrupted front are those of the front. -/
theorem Burst.crcAt {n : ℕ} {buf e : List UInt8} (hb : Burst n buf e) (h : CrcAt n buf) :
    CrcAt n (corrupt buf e) := by
  have hlen : (corrupt buf e).length = buf.length := by
    have := h.1
    have := hb.length
    simp only [corrupt, List.length_append, List.length_zipWith, List.length_drop]
    omega
  have hmap : ((corrupt buf e).take n).map (· == ACP_DELIMITER_BLOCK) =
      (buf.take n).map (· == ACP_DELIMITER_BLOCK) := by
    refine List.ext_getElem (by simp [hlen]) fun i hi _ => ?_
    rw [List.length_map, List.length_take, Nat.lt_min] at hi
    have hd := hb.delimiters i hi.1
    rw [List.getElem?_eq_getElem hi.2, List.getElem?_eq_getElem (hlen ▸ hi.2), Option.some.injEq,
      Option.some.injEq] at hd
    rw [List.getElem_map, List.getElem_map, List.getElem_take, List.getElem_take,
      Bool.eq_iff_iff, beq_iff_eq, beq_iff_eq]
    exact hd
  refine ⟨by rw [hlen]; exact h.1, ?_, ?_⟩
  · have hcount (l : List UInt8) : l.count ACP_DELIMITER_BLOCK =
        (l.map (· == ACP_DELIMITER_BLOCK)).count true := by
      rw [List.count, List.count, List.countP_map]
      exact List.countP_congr fun x _ => by simp
    rw [hcount, hmap, ← hcount]
    exact h.2.1
  · have hlast (l : List UInt8) : l.getLast? = some ACP_DELIMITER_BLOCK ↔
        (l.map (· == ACP_DELIMITER_BLOCK)).getLast? = some true := by
      rw [List.getLast?_map]
      cases l.getLast? <;> simp
    rw [hlast, hmap, ← hlast]
    exact h.2.2

/-- A buffer that the CRC check accepts has a CRC byte, and every burst of errors of at most eight
bits up to the end of that byte makes the check refuse it. -/
theorem acpCrcCheck_burst {buf : List UInt8} (h : acpCrcCheck buf = true) :
    (∃ n, CrcAt n buf) ∧
    ∀ n e, CrcAt n buf → Burst n buf e → acpCrcCheck (corrupt buf e) = false := by
  constructor
  · obtain ⟨n, hn, hc, hl⟩ := exists_crcAt_from (k := 0) (by decide) h
    exact ⟨n, hn, (Nat.zero_add _).symm.trans hc, hl⟩
  intro n e hn hb
  have hn' := hb.crcAt hn
  rw [acpCrcCheck_iff_run hn] at h
  rw [← Bool.not_eq_true, acpCrcCheck_iff_run hn']
  -- the corrupted text is the sum of the text and the errors
  have hsum : (corrupt buf e).take (n + 1) = (buf.take (n + 1)).zipWith (· ^^^ ·) e := by
    have hlt := hn.1
    have hl := hb.length
    rw [corrupt, List.take_append_of_le_length (by rw [List.length_zipWith]; omega),
      List.take_zipWith, List.take_of_length_le hl.le]
  have hlen : (buf.take (n + 1)).length = e.length := by
    rw [List.length_take, hb.length]
    exact Nat.min_eq_left hn.1
  have hbits : ((buf.take (n + 1)).flatMap bits).length = (e.flatMap bits).length := by
    rw [length_flatMap_bits, length_flatMap_bits, hlen]
  intro hrun
  have herr : Crc.run 0x8c#8 0 (e.flatMap bits) = 0 := by
    have hx : Crc.run 0x8c#8 0 _ = _ := Crc.run_xor 0x8c#8 0 0 hbits
    rw [← flatMap_bits_zipWith hlen, ← hsum, hrun, h] at hx
    simpa using hx.symm
  -- a burst does not turn a register that is zero back to zero
  obtain ⟨s, hs⟩ := hb.confined
  have hzero := Crc.eq_false_of_run_burst rfl hs herr
  obtain ⟨x, hx, hne⟩ := hb.nonzero
  exact hne (eq_zero_of_bits fun b hbx => hzero b (List.mem_flatMap.mpr ⟨x, hx, hbx⟩))

/-- The last theorem for the request 7 to start program 1, with a burst over two bytes. -/
theorem acpCrcCheck_burst_example :
    acpCrcCheck (corrupt [112, 115, 116, 13, 49, 10, 13, 55, 13, 236, 0]
      [0, 0, 0, 0, 128, 3, 0, 0, 0, 0]) = false := by
  refine (acpCrcCheck_burst (by decide +kernel)).2 9 _ (by decide +kernel)
    ⟨rfl, by decide, ⟨39, fun p hp => ?_⟩, by decide +kernel⟩
  have hset : ∀ p < 80, (([0, 0, 0, 0, 128, 3, 0, 0, 0, 0] : List UInt8).flatMap bits).getD p
      false = true → 39 ≤ p ∧ p < 39 + 8 := by
    decide +kernel
  refine hset p ?_ hp
  by_contra hlt
  rw [List.getD_eq_getElem?_getD, List.getElem?_eq_none (by
    rw [length_flatMap_bits]
    exact not_lt.mp hlt)] at hp
  cases hp

end Regonf
