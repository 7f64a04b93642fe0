import Regonf.AcpCrc
import Mathlib.Data.Nat.Bitwise
import Mathlib.Data.Rat.Defs
import Mathlib.Tactic.Linarith
import Mathlib.Tactic.NormNum
import Mathlib.Tactic.Ring

/-! The driver of a temperature sensor on a 1-wire bus (`lib/1w.c`, `lib/device/ds18b20.c`). A
temperature that it returns is the one that the sensor sent: readings of the pin that are wrong on
eight consecutive bits at most are refused. -/
namespace Regonf.OneWire

def OW_CMD_MATCH_ROM : UInt8 := 0x55
def DS18B20_CMD_READ_SCRATCHPAD : UInt8 := 0xBE
def DS18B20_SCRATCHPAD_BYTE_NUM : ℕ := 8

/-- A pin: what the next calls of `pinRead` return, and the bits that were sent. -/
structure Bus where
  line : ℕ → Bool
  sent : List Bool

/-- The bus when `n` more readings were made. -/
def Bus.drop (n : ℕ) (s : Bus) : Bus := { s with line := fun i => s.line (n + i) }

@[simp] theorem Bus.drop_line (n : ℕ) (s : Bus) (i : ℕ) : (s.drop n).line i = s.line (n + i) := rfl

theorem Bus.drop_zero (s : Bus) : s.drop 0 = s := by simp [Bus.drop]

theorem Bus.drop_drop (m n : ℕ) (s : Bus) : (s.drop m).drop n = s.drop (m + n) := by
  simp [Bus.drop, Nat.add_assoc]

def pinRead (s : Bus) : Bool × Bus := (s.line 0, s.drop 1)

/-- The inner loop of `onewire_reset`: the sensor lets the line go. -/
def resetHigh : ℕ → Bus → Bool × Bus
  | 0, s => (false, s)
  | n + 1, s =>
    let (level, s) := pinRead s
    if level then (true, s) else resetHigh n s

/-- The outer loop of `onewire_reset`: the sensor pulls the line down. -/
def resetLow : ℕ → Bus → Bool × Bus
  | 0, s => (false, s)
  | n + 1, s =>
    let (level, s) := pinRead s
    if !level then resetHigh 250 s else resetLow n s

def onewireReset (s : Bus) : Bool × Bus := resetLow 80 s

def onewireSendBit (s : Bus) (bit : Bool) : Bus := { s with sent := s.sent ++ [bit] }

/-- The loop of `onewire_send_byte`. -/
def sendBits : ℕ → Bus → UInt8 → Bus
  | 0, s, _ => s
  | p + 1, s, b => sendBits p (onewireSendBit s (b &&& 1 ≠ 0)) (b >>> 1)

def onewireSendByte (s : Bus) (b : UInt8) : Bus := sendBits 8 s b

def onewireReadBit (s : Bus) : Bool × Bus := pinRead s

/-- The loop of `onewire_read_byte`. -/
def readBits : ℕ → UInt8 → Bus → UInt8 × Bus
  | 0, r, s => (r, s)
  | p + 1, r, s =>
    let r := r >>> 1
    let (bit, s) := onewireReadBit s
    readBits p (if bit then r ||| 0x80 else r) s

def onewireReadByte (s : Bus) : UInt8 × Bus := readBits 8 0 s

/-- The loop of `onewire_crc_update` is that of `crc_update`. -/
def onewireCrcUpdate (crc b : UInt8) : UInt8 := crcUpdate crc b

def onewireMatchRom (s : Bus) (addr : Vector UInt8 8) : Bool × Bus :=
  match onewireReset s with
  | (false, s) => (false, s)
  | (true, s) => (true, addr.toList.foldl onewireSendByte (onewireSendByte s OW_CMD_MATCH_ROM))

/-- The loop of `ds18b20_read_scratchpad` that reads `i` more bytes. -/
def readScratchpadLoop : ℕ → List UInt8 → UInt8 → Bus → List UInt8 × UInt8 × Bus
  | 0, scratchpad, crc, s => (scratchpad, crc, s)
  | i + 1, scratchpad, crc, s =>
    let (b, s) := onewireReadByte s
    readScratchpadLoop i (scratchpad ++ [b]) (onewireCrcUpdate crc b) s

/-- `none` where the function returns 0: the buffer of the caller is then not written. -/
def ds18b20ReadScratchpad (s : Bus) (addr : Vector UInt8 8) : Option (List UInt8) × Bus :=
  match onewireMatchRom s addr with
  | (false, s) => (none, s)
  | (true, s) =>
    let (scratchpad, crc, s) := readScratchpadLoop DS18B20_SCRATCHPAD_BYTE_NUM [] 0
      (onewireSendByte s DS18B20_CMD_READ_SCRATCHPAD)
    let (b, s) := onewireReadByte s
    if b ≠ crc then (none, s) else (some scratchpad, s)

/-- The four additions of the fractional part. -/
def addFraction (t : ℚ) (v : UInt16) : ℚ :=
  let t := if v &&& 0x0001 ≠ 0 then t + 0.0625 else t
  let t := if v &&& 0x0002 ≠ 0 then t + 0.1250 else t
  let t := if v &&& 0x0004 ≠ 0 then t + 0.2500 else t
  if v &&& 0x0008 ≠ 0 then t + 0.5000 else t

def dsToFloat (v : UInt16) : ℚ :=
  if v ≥ 0x800 then
    let t := addFraction 0 v
    let v := (v >>> 4) &&& 0x00FF
    let v := v - 0x0001
    let v := ~~~v
    t - (v &&& 0xFF).toNat
  else addFraction ((v >>> 4) &&& 0x00FF).toNat v

/-- `(scratchpad[1] << 8) | scratchpad[0]` -/
def tempWord (scratchpad : List UInt8) : UInt16 :=
  (scratchpad.getD 1 0).toUInt16 <<< 8 ||| (scratchpad.getD 0 0).toUInt16

def ds18b20ReadTemp (s : Bus) (addr : Vector UInt8 8) : Option ℚ × Bus :=
  match ds18b20ReadScratchpad s addr with
  | (none, s) => (none, s)
  | (some scratchpad, s) => (some (dsToFloat (tempWord scratchpad)), s)

/-! ### The wire -/

/-- The bus when the bytes `bs` were sent, each with its lowest bit first. -/
def Bus.send (bs : List UInt8) (s : Bus) : Bus := { s with sent := s.sent ++ bs.flatMap bits }

theorem Bus.send_send (as bs : List UInt8) (s : Bus) : (s.send as).send bs = s.send (as ++ bs) := by
  simp [Bus.send]

theorem sendBits_eq (p : ℕ) (s : Bus) (b : UInt8) :
    sendBits p s b = { s with sent := s.sent ++ (List.range p).map b.toBitVec.getLsbD } := by
  induction p generalizing s b with
  | zero => simp [sendBits]
  | succ p ih =>
    have hshift : (b >>> 1).toBitVec = b.toBitVec >>> 1 := by simp
    rw [sendBits, ih, List.range_succ_eq_map, List.map_cons, List.map_map, hshift]
    simp [onewireSendBit, lowBit_ne_zero, Function.comp_def, Nat.add_comm]

theorem onewireSendByte_eq (s : Bus) (b : UInt8) : onewireSendByte s b = s.send [b] := by
  rw [onewireSendByte, sendBits_eq, Bus.send, List.flatMap_singleton, bits]

theorem foldl_onewireSendByte (s : Bus) (bs : List UInt8) :
    bs.foldl onewireSendByte s = s.send bs := by
  induction bs generalizing s with
  | nil => simp [Bus.send]
  | cons b bs ih => rw [List.foldl_cons, ih, onewireSendByte_eq, Bus.send_send]; rfl

/-- A byte is put together of the next readings, the lowest bit first. -/
theorem readBits_eq (p : ℕ) (hp : p ≤ 8) (r : UInt8) (s : Bus) :
    (readBits p r s).2 = s.drop p ∧ ∀ i < 8, (readBits p r s).1.toBitVec.getLsbD i =
      if i + p < 8 then r.toBitVec.getLsbD (i + p) else s.line (i + p - 8) := by
  induction p generalizing r s with
  | zero => exact ⟨s.drop_zero.symm, fun i hi => by rw [if_pos (by omega)]; rfl⟩
  | succ p ih =>
    obtain ⟨hbus, hbits⟩ := ih (by omega)
      (if s.line 0 then r >>> 1 ||| 0x80 else r >>> 1) (s.drop 1)
    refine ⟨?_, fun i hi => ?_⟩
    · rw [readBits]
      exact hbus.trans (by rw [Bus.drop_drop, Nat.add_comm])
    -- the bit that is read now goes in at the top and is shifted down `p` times
    have htop (j : ℕ) (hj : j < 8) :
        (if s.line 0 then r >>> 1 ||| 0x80 else r >>> 1).toBitVec.getLsbD j =
          if j = 7 then s.line 0 else r.toBitVec.getLsbD (j + 1) := by
      interval_cases j <;> cases s.line 0 <;> simp
    rw [readBits]
    refine (hbits i hi).trans ?_
    by_cases hlt : i + (p + 1) < 8
    · rw [if_pos hlt, if_pos (by omega), htop _ (by omega), if_neg (by omega)]
      rfl
    · rw [if_neg hlt]
      by_cases hip : i + p < 8
      · rw [if_pos hip, htop _ hip, if_pos (by omega)]
        congr 1
        omega
      · rw [if_neg hip, Bus.drop_line]
        congr 1
        omega

theorem onewireReadByte_eq (s : Bus) :
    ∃ b, bits b = (List.range 8).map s.line ∧ onewireReadByte s = (b, s.drop 8) := by
  obtain ⟨hbus, hbits⟩ := readBits_eq 8 le_rfl 0 s
  refine ⟨(onewireReadByte s).1, List.map_congr_left fun i hi => ?_, Prod.ext rfl hbus⟩
  rw [List.mem_range] at hi
  refine (hbits i hi).trans ?_
  rw [if_neg (by omega)]
  rfl

/-- The presence pulse ends with reading `n`: the line goes low within 80 readings and high again
within 250 more. -/
def Present (s : Bus) (n : ℕ) : Prop := ∃ i < 80, ∃ j < 250, n = i + j + 2 ∧
  (∀ k < i, s.line k = true) ∧ (∀ k, i ≤ k → k ≤ i + j → s.line k = false) ∧
    s.line (i + j + 1) = true

/-- The first index with a property is the first one, or lies behind it. -/
theorem exists_first_succ {p q : ℕ → Prop} {m : ℕ} :
    (∃ i < m + 1, (∀ k < i, p k) ∧ q i) ↔
      q 0 ∨ p 0 ∧ ∃ i < m, (∀ k < i, p (1 + k)) ∧ q (1 + i) := by
  constructor
  · rintro ⟨i, hi, hp, hq⟩
    cases i with
    | zero => exact Or.inl hq
    | succ i =>
      refine Or.inr ⟨hp 0 i.succ_pos, i, by omega, fun k hk => hp _ (by omega), ?_⟩
      rwa [Nat.add_comm]
  · rintro (hq | ⟨h0, i, hi, hp, hq⟩)
    · exact ⟨0, m.succ_pos, fun k hk => absurd hk k.not_lt_zero, hq⟩
    · refine ⟨1 + i, by omega, fun k hk => ?_, hq⟩
      cases k with
      | zero => exact h0
      | succ k => simpa [Nat.add_comm] using hp k (by omega)

theorem resetHigh_eq_true {m : ℕ} {s t : Bus} : resetHigh m s = (true, t) ↔
    ∃ j < m, (∀ k < j, s.line k = false) ∧ s.line j = true ∧ t = s.drop (j + 1) := by
  induction m generalizing s with
  | zero => simp [resetHigh]
  | succ m ih =>
    rw [exists_first_succ, resetHigh, pinRead]
    have hrest := ih (s := s.drop 1)
    simp only [Bus.drop_line, Bus.drop_drop, ← Nat.add_assoc] at hrest
    cases h : s.line 0 with
    | true => simpa using (eq_comm : s.drop 1 = t ↔ t = s.drop 1)
    | false => simpa using hrest

theorem resetLow_eq_true {m : ℕ} {s t : Bus} : resetLow m s = (true, t) ↔
    ∃ i < m, (∀ k < i, s.line k = true) ∧ s.line i = false ∧
      resetHigh 250 (s.drop (i + 1)) = (true, t) := by
  induction m generalizing s with
  | zero => simp [resetLow]
  | succ m ih =>
    rw [exists_first_succ, resetLow, pinRead]
    have hrest := ih (s := s.drop 1)
    simp only [Bus.drop_line, Bus.drop_drop, ← Nat.add_assoc] at hrest
    cases h : s.line 0 with
    | true => simpa using hrest
    | false => simp

theorem onewireReset_eq_true {s t : Bus} :
    onewireReset s = (true, t) ↔ ∃ n, Present s n ∧ t = s.drop n := by
  rw [onewireReset, resetLow_eq_true]
  constructor
  · rintro ⟨i, hi, hhigh, hlow, h⟩
    obtain ⟨j, hj, hlow', hhigh', rfl⟩ := resetHigh_eq_true.mp h
    refine ⟨i + j + 2, ⟨i, hi, j, hj, rfl, hhigh, fun k hik hkj => ?_, ?_⟩, ?_⟩
    · rcases hik.eq_or_lt with rfl | hlt
      · exact hlow
      · simpa [show i + 1 + (k - (i + 1)) = k by omega] using hlow' (k - (i + 1)) (by omega)
    · rwa [show i + j + 1 = i + 1 + j by omega]
    · rw [Bus.drop_drop]
      congr 1
      omega
  · rintro ⟨n, ⟨i, hi, j, hj, rfl, hhigh, hlow, hend⟩, rfl⟩
    refine ⟨i, hi, hhigh, hlow i le_rfl (by omega), resetHigh_eq_true.mpr
      ⟨j, hj, fun k hk => hlow _ (by omega) (by omega), ?_, ?_⟩⟩
    · rwa [Bus.drop_line, show i + 1 + j = i + j + 1 by omega]
    · rw [Bus.drop_drop]
      congr 1
      omega

theorem onewireMatchRom_eq_true {s t : Bus} {addr : Vector UInt8 8} :
    onewireMatchRom s addr = (true, t) ↔
      ∃ n, Present s n ∧ t = (s.drop n).send (OW_CMD_MATCH_ROM :: addr.toList) := by
  unfold onewireMatchRom
  rcases h : onewireReset s with ⟨ok, u⟩
  cases ok with
  | false =>
    refine iff_of_false (by simp) fun ⟨n, hn, _⟩ => ?_
    have := onewireReset_eq_true.mpr ⟨n, hn, rfl⟩
    rw [h] at this
    cases this
  | true =>
    obtain ⟨n, hn, rfl⟩ := onewireReset_eq_true.mp h
    simp only [← List.foldl_cons, foldl_onewireSendByte, Prod.mk.injEq, true_and]
    constructor
    · rintro rfl
      exact ⟨n, hn, rfl⟩
    · rintro ⟨n', hn', rfl⟩
      have := onewireReset_eq_true.mpr ⟨n', hn', rfl⟩
      rw [h, Prod.mk.injEq] at this
      rw [this.2]

/-- The bytes that are read are the next readings, eight a byte. -/
theorem readScratchpadLoop_eq (i : ℕ) (scratchpad : List UInt8) (crc : UInt8) (s : Bus) :
    ∃ bs : List UInt8, bs.length = i ∧ bs.flatMap bits = (List.range (8 * i)).map s.line ∧
      readScratchpadLoop i scratchpad crc s =
        (scratchpad ++ bs, crcUpdateByStr crc bs, s.drop (8 * i)) := by
  induction i generalizing scratchpad crc s with
  | zero => exact ⟨[], rfl, rfl, by rw [List.append_nil, s.drop_zero]; rfl⟩
  -- the byte that is read now comes before those of the rest of the loop
  | succ i ih =>
    obtain ⟨b, hb, hread⟩ := onewireReadByte_eq s
    obtain ⟨bs, hlen, hbits, hloop⟩ := ih (scratchpad ++ [b]) (onewireCrcUpdate crc b) (s.drop 8)
    have hsum : 8 * (i + 1) = 8 + 8 * i := by omega
    refine ⟨b :: bs, by rw [List.length_cons, hlen], ?_, ?_⟩
    · rw [List.flatMap_cons, hb, hbits, hsum, List.range_add, List.map_append, List.map_map]
      rfl
    · rw [readScratchpadLoop, hread]
      refine hloop.trans ?_
      rw [List.append_assoc, Bus.drop_drop, ← hsum]
      rfl

/-- The bits that a sensor sends: its scratchpad and the CRC of it. -/
def frame (sp : List UInt8) : List Bool := (sp ++ [crcUpdateByStr 0 sp]).flatMap bits

/-- The pin reads the scratchpad `sp`, with errors `e` on eight consecutive bits at most. -/
structure Garbled (s : Bus) (sp : List UInt8) (e : List Bool) : Prop where
  size : sp.length = DS18B20_SCRATCHPAD_BYTE_NUM
  errors : e.length = 72
  confined : ∃ k, ∀ p, e.getD p false = true → k ≤ p ∧ p < k + 8
  line : (List.range 72).map s.line = (frame sp).zipWith Bool.xor e

theorem length_frame {sp : List UInt8} (h : sp.length = DS18B20_SCRATCHPAD_BYTE_NUM) :
    (frame sp).length = 72 := by
  rw [frame, length_flatMap_bits, List.length_append, h]
  rfl

/-- The readings pass for a frame if and only if none of them is wrong. -/
theorem Garbled.run_eq_zero {s : Bus} {sp : List UInt8} {e : List Bool} (h : Garbled s sp e) :
    Crc.run 0x8c#8 0 ((List.range 72).map s.line) = 0 ↔ ∀ b ∈ e, b = false := by
  have hframe : Crc.run 0x8c#8 0 (frame sp) = 0 := (crc_eq_iff _ sp).mp rfl
  have hrun : Crc.run 0x8c#8 0 ((List.range 72).map s.line) = Crc.run 0x8c#8 0 e := by
    have hxor := Crc.run_xor 0x8c#8 0 0 ((length_frame h.size).trans h.errors.symm)
    rw [hframe, ← h.line] at hxor
    simpa using hxor
  rw [hrun]
  constructor
  · obtain ⟨k, hk⟩ := h.confined
    exact Crc.eq_false_of_run_burst rfl hk
  · intro hzero
    rw [List.eq_replicate_of_mem hzero]
    exact Crc.run_zero _ _

theorem Garbled.line_of_right {s : Bus} {sp : List UInt8} {e : List Bool} (h : Garbled s sp e)
    (hzero : ∀ b ∈ e, b = false) : (List.range 72).map s.line = frame sp := by
  rw [h.line, List.eq_replicate_of_mem hzero, h.errors, ← length_frame h.size]
  refine List.ext_getElem (by simp) fun i hi _ => ?_
  simp

theorem bits_injective : Function.Injective bits := by
  intro a b h
  rw [← UInt8.toBitVec_inj]
  apply BitVec.eq_of_getLsbD_eq
  intro i hi
  rw [getD_bits a (by simpa using hi), getD_bits b (by simpa using hi), h]

theorem flatMap_bits_injective {xs ys : List UInt8} (h : xs.flatMap bits = ys.flatMap bits) :
    xs = ys := by
  induction xs generalizing ys with
  | nil =>
    have := congrArg List.length h
    rw [length_flatMap_bits, length_flatMap_bits] at this
    exact (List.length_eq_zero_iff.mp (by simpa using this.symm)).symm
  | cons x xs ih =>
    cases ys with
    | nil => simpa [length_flatMap_bits] using congrArg List.length h
    | cons y ys =>
      obtain ⟨hx, hxs⟩ := List.append_inj h (by simp)
      rw [bits_injective hx, ih hxs]

/-- What `ds18b20_read_scratchpad` makes of the readings behind the presence pulse. -/
theorem ds18b20ReadScratchpad_eq {s : Bus} {n : ℕ} (addr : Vector UInt8 8) (hn : Present s n) :
    ∃ bs : List UInt8, ∃ b,
      (bs ++ [b]).flatMap bits = (List.range 72).map (s.drop n).line ∧
      ds18b20ReadScratchpad s addr = (if b ≠ crcUpdateByStr 0 bs then none else some bs,
        ((s.drop n).send (OW_CMD_MATCH_ROM :: addr.toList ++ [DS18B20_CMD_READ_SCRATCHPAD])).drop
          72) := by
  have hmatch := onewireMatchRom_eq_true.mpr ⟨n, hn, (rfl :
    (s.drop n).send (OW_CMD_MATCH_ROM :: addr.toList) = _)⟩
  obtain ⟨bs, -, hbits, hloop⟩ := readScratchpadLoop_eq DS18B20_SCRATCHPAD_BYTE_NUM [] 0
    ((s.drop n).send (OW_CMD_MATCH_ROM :: addr.toList ++ [DS18B20_CMD_READ_SCRATCHPAD]))
  obtain ⟨b, hb, hread⟩ := onewireReadByte_eq
    (((s.drop n).send (OW_CMD_MATCH_ROM :: addr.toList ++ [DS18B20_CMD_READ_SCRATCHPAD])).drop
      (8 * DS18B20_SCRATCHPAD_BYTE_NUM))
  refine ⟨bs, b, ?_, ?_⟩
  · rw [List.flatMap_append, hbits, List.flatMap_singleton, hb, show (72 : ℕ) = 64 + 8 from rfl,
      List.range_add, List.map_append, List.map_map]
    rfl
  · unfold ds18b20ReadScratchpad
    simp only [hmatch, onewireSendByte_eq, Bus.send_send, hloop, hread]
    rw [Bus.drop_drop]
    split_ifs <;> rfl

/-! ### The temperature -/

/-- A bit of a word that is tested with a mask. -/
theorem mask_ne_zero (v : UInt16) {m : UInt16} (i : ℕ) (hm : m.toNat = 2 ^ i) :
    v &&& m ≠ 0 ↔ v.toNat / 2 ^ i % 2 = 1 := by
  rw [ne_eq, ← UInt16.toNat_inj, UInt16.toNat_and, hm, Nat.and_two_pow,
    Nat.testBit_eq_decide_div_mod_eq]
  by_cases h : v.toNat / 2 ^ i % 2 = 1 <;> simp [h]

theorem ite_add (t c : ℚ) (x : ℕ) :
    (if x % 2 = 1 then t + c else t) = t + c * (x % 2 : ℕ) := by
  rcases Nat.mod_two_eq_zero_or_one x with h | h <;> simp [h]

/-- The fraction is the lowest four bits, as sixteenths. -/
theorem addFraction_eq (t : ℚ) (v : UInt16) : addFraction t v = t + (v.toNat % 16 : ℕ) / 16 := by
  simp only [addFraction, mask_ne_zero v 0 (m := 0x0001) rfl, mask_ne_zero v 1 (m := 0x0002) rfl,
    mask_ne_zero v 2 (m := 0x0004) rfl, mask_ne_zero v 3 (m := 0x0008) rfl, ite_add]
  have hbits : v.toNat % 16 = v.toNat / 2 ^ 0 % 2 + 2 * (v.toNat / 2 ^ 1 % 2) +
      4 * (v.toNat / 2 ^ 2 % 2) + 8 * (v.toNat / 2 ^ 3 % 2) := by omega
  rw [hbits]
  push_cast
  ring

theorem and_ff (v : UInt16) : (v &&& 0xFF).toNat = v.toNat % 256 := by
  rw [UInt16.toNat_and]
  exact Nat.and_two_pow_sub_one_eq_mod v.toNat 8

/-- The whole part of a negative number: its two's complement, of a byte. -/
theorem complement_toNat (w : UInt16) (hw : w.toNat < 256) :
    (~~~(w - 1) &&& 0xFF).toNat = (256 - w.toNat) % 256 := by
  rw [and_ff, UInt16.toNat_not, UInt16.toNat_sub]
  have h1 : (1 : UInt16).toNat = 1 := rfl
  have hs : UInt16.size = 65536 := rfl
  rw [h1]
  omega

theorem toNat_whole (v : UInt16) : (v >>> 4 &&& 0x00FF).toNat = v.toNat / 16 % 256 := by
  have hshift : UInt16.toNat 4 % 16 = 4 := rfl
  rw [and_ff, UInt16.toNat_shiftRight, hshift, Nat.shiftRight_eq_div_pow]

theorem dsToFloat_eq (v : UInt16) : dsToFloat v =
    if v ≥ 0x800 then ((v.toNat % 16 : ℕ) : ℚ) / 16 - ((256 - v.toNat / 16 % 256) % 256 : ℕ)
    else ((v.toNat / 16 % 256 : ℕ) : ℚ) + (v.toNat % 16 : ℕ) / 16 := by
  simp only [dsToFloat, addFraction_eq, toNat_whole, zero_add]
  have hone : (0x0001 : UInt16) = 1 := rfl
  rw [hone, complement_toNat _ (by rw [toNat_whole]; omega), toNat_whole]

/-- The number that is returned is the word in signed sixteenths if and only if the word does not
lie between these bounds. -/
theorem dsToFloat_eq_iff (v : UInt16) :
    dsToFloat v = (v.toBitVec.toInt : ℚ) / 16 ↔ v < 0x800 ∨ 0xF010 ≤ v := by
  have hlt := v.toNat_lt
  have hint : v.toBitVec.toInt = if 2 * v.toNat < 65536 then (v.toNat : ℤ) else v.toNat - 65536 :=
    BitVec.toInt_eq_toNat_cond _
  have h800 : v ≥ 0x800 ↔ 2048 ≤ v.toNat := UInt16.le_iff_toNat_le
  have hF : 0xF010 ≤ v ↔ 61456 ≤ v.toNat := UInt16.le_iff_toNat_le
  have hl : v < 0x800 ↔ v.toNat < 2048 := UInt16.lt_iff_toNat_lt
  -- everything times 16, as integers
  have hneg (a b : ℕ) (c : ℤ) : (b : ℚ) / 16 - a = c / 16 ↔ (b : ℤ) - 16 * a = c := by
    rw [← @Int.cast_inj ℚ]
    push_cast
    constructor <;> intro h <;> linarith
  have hpos (a b : ℕ) (c : ℤ) : (a : ℚ) + b / 16 = c / 16 ↔ 16 * (a : ℤ) + b = c := by
    rw [← @Int.cast_inj ℚ]
    push_cast
    constructor <;> intro h <;> linarith
  rw [dsToFloat_eq, hint, hF, hl]
  by_cases h : v ≥ 0x800
  · rw [if_pos h, hneg]
    rw [h800] at h
    split_ifs <;> omega
  · rw [if_neg h, hpos]
    rw [h800] at h
    split_ifs <;> omega

/-- A temperature is read if and only if the sensor answers and no reading of the pin is wrong; it
is then the one that the sensor sent. -/
theorem ds18b20_read_temp_exact {s : Bus} {sp : List UInt8} {e : List Bool}
    (h : ∀ n, Present s n → Garbled (s.drop n) sp e) (addr : Vector UInt8 8) :
    (∀ t, (ds18b20ReadTemp s addr).1 = some t ↔
      (∃ n, Present s n) ∧ (∀ b ∈ e, b = false) ∧ t = dsToFloat (tempWord sp)) ∧
    (∀ n, Present s n → (ds18b20ReadTemp s addr).2.sent = s.sent ++
      (OW_CMD_MATCH_ROM :: addr.toList ++ [DS18B20_CMD_READ_SCRATCHPAD]).flatMap bits) ∧
    (dsToFloat (tempWord sp) = ((tempWord sp).toBitVec.toInt : ℚ) / 16 ↔
      tempWord sp < 0x800 ∨ 0xF010 ≤ tempWord sp) := by
  refine ⟨fun t => ?_, fun n hn => ?_, dsToFloat_eq_iff _⟩
  · by_cases hp : ∃ n, Present s n
    · obtain ⟨n, hn⟩ := hp
      obtain ⟨bs, b, hbits, hread⟩ := ds18b20ReadScratchpad_eq addr hn
      have hpass : b ≠ crcUpdateByStr 0 bs ↔ ¬∀ b ∈ e, b = false := by
        rw [ne_eq, crc_eq_iff, hbits, (h n hn).run_eq_zero]
      unfold ds18b20ReadTemp
      rw [hread]
      by_cases hzero : ∀ b ∈ e, b = false
      · -- nothing is wrong: the bytes are those of the sensor
        have hsp : bs = sp := by
          rw [(h n hn).line_of_right hzero] at hbits
          exact (List.append_inj' (flatMap_bits_injective hbits) rfl).1
        rw [if_neg (by rwa [hpass, not_not]), hsp]
        simp only [Option.some.injEq]
        exact ⟨fun ht => ⟨⟨n, hn⟩, hzero, ht.symm⟩, fun ht => ht.2.2.symm⟩
      · rw [if_pos (hpass.mpr hzero)]
        exact iff_of_false nofun fun ht => hzero ht.2.1
    · refine iff_of_false ?_ fun ht => hp ht.1
      unfold ds18b20ReadTemp ds18b20ReadScratchpad
      rcases hm : onewireMatchRom s addr with ⟨ok, u⟩
      cases ok with
      | false => nofun
      | true =>
        obtain ⟨n, hn, -⟩ := onewireMatchRom_eq_true.mp hm
        exact absurd ⟨n, hn⟩ hp
  · obtain ⟨bs, b, -, hread⟩ := ds18b20ReadScratchpad_eq addr hn
    unfold ds18b20ReadTemp
    rw [hread]
    split_ifs <;> rfl

/-- 25.0625 degrees. -/
def exampleScratchpad : List UInt8 := [0x91, 0x01, 0x4b, 0x46, 0x7f, 0xff, 0x0f, 0x10]

/-- The sensor answers the second reading, and sends its scratchpad with the errors `e`. -/
def exampleBus (e : List Bool) : Bus :=
  ⟨fun i => ([true, false, true] ++ (frame exampleScratchpad).zipWith Bool.xor e).getD i true, []⟩

theorem exampleBus_garbled {e : List Bool} (k : ℕ) (he : e.length = 72)
    (hburst : ∀ p < 72, e.getD p false = true → k ≤ p ∧ p < k + 8) (n : ℕ)
    (hn : Present (exampleBus e) n) : Garbled ((exampleBus e).drop n) exampleScratchpad e := by
  obtain ⟨i, -, j, -, rfl, hhigh, hlow, -⟩ := hn
  have hi : i = 1 := by
    rcases Nat.lt_trichotomy i 1 with h | h | h
    · obtain rfl : i = 0 := by omega
      cases hlow 0 le_rfl (Nat.zero_le _)
    · exact h
    · cases hhigh 1 h
  subst hi
  have hj : j = 0 := by
    by_contra h
    cases hlow 2 (by omega) (by omega)
  subst hj
  refine ⟨rfl, he, ⟨k, fun p hp => hburst p ?_ hp⟩, ?_⟩
  · by_contra h
    rw [List.getD_eq_default _ _ (by omega)] at hp
    cases hp
  have hlen : ((frame exampleScratchpad).zipWith Bool.xor e).length = 72 := by
    rw [List.length_zipWith, length_frame rfl, he, Nat.min_self]
  refine List.ext_getElem (by simp [hlen]) fun i _ hi => ?_
  rw [List.getElem_map, List.getElem_range, ← List.getD_eq_getElem _ true hi]
  simp only [Bus.drop_line, exampleBus]
  rw [List.getD_append_right _ _ _ _ (by simp)]
  congr 1
  simp

/-- The last theorem for a sensor at 25.0625 degrees, without errors and with two wrong readings. -/
theorem ds18b20_read_temp_exact_example :
    (ds18b20ReadTemp (exampleBus (List.replicate 72 false)) (Vector.replicate 8 0x28)).1 =
      some (401 / 16) ∧
    ∀ t, (ds18b20ReadTemp (exampleBus (((List.replicate 72 false).set 3 true).set 8 true))
      (Vector.replicate 8 0x28)).1 ≠ some t := by
  have hword : tempWord exampleScratchpad = 0x0191 := by decide
  constructor
  · obtain ⟨hread, -, hexact⟩ := ds18b20_read_temp_exact
      (exampleBus_garbled (e := List.replicate 72 false) 0 (by decide) (by decide))
      (Vector.replicate 8 0x28)
    have hpresent : Present (exampleBus (List.replicate 72 false)) 3 :=
      ⟨1, by decide, 0, by decide, rfl, by decide, fun k hk hk' => by
        rw [show k = 1 by omega]
        rfl, rfl⟩
    refine (hread _).mpr ⟨⟨3, hpresent⟩, fun b hb => List.eq_of_mem_replicate hb, ?_⟩
    rw [hexact.mpr (by rw [hword]; decide), hword]
    have hint : (0x0191 : UInt16).toBitVec.toInt = 401 := rfl
    rw [hint, Int.cast_ofNat]
  · intro t ht
    have hwrong := (((ds18b20_read_temp_exact (exampleBus_garbled
      (e := ((List.replicate 72 false).set 3 true).set 8 true) 3 (by decide) (by decide))
      (Vector.replicate 8 0x28)).1 t).mp ht).2.1 true (by decide)
    cases hwrong

end Regonf.OneWire
