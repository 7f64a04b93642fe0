import Regonf.AcpPacket

/-! The CRC check and the two packet parsers on the blocks of a packet. -/
namespace Regonf

open Blocks

/-- The text of a packet with three blocks, as far as its CRC counts it. -/
def packetText (x₀ x₁ x₂ : List UInt8) : List UInt8 :=
  x₀ ++ ACP_DELIMITER_BLOCK :: (x₁ ++ ACP_DELIMITER_BLOCK :: (x₂ ++ [ACP_DELIMITER_BLOCK]))

theorem packetText_append (x₀ x₁ x₂ t : List UInt8) :
    packetText x₀ x₁ x₂ ++ t = x₀ ++ ACP_DELIMITER_BLOCK ::
      (x₁ ++ ACP_DELIMITER_BLOCK :: (x₂ ++ ACP_DELIMITER_BLOCK :: t)) := by
  simp [packetText]

/-- A block is fed to the CRC without a change of state. -/
theorem acpCrcCheckFrom_block {x : List UInt8} (hx : ACP_DELIMITER_BLOCK ∉ x) {n : ℕ}
    (hn : n ≠ ACP_BLOCK_IND_CRC) (crc : UInt8) (t : List UInt8) :
    acpCrcCheckFrom false n crc (x ++ t) = acpCrcCheckFrom false n (crcUpdateByStr crc x) t := by
  induction x generalizing crc with
  | nil => rfl
  | cons b x ih =>
    obtain ⟨hb, hx⟩ := not_or.mp (mt List.mem_cons.mpr hx)
    simp only [List.cons_append, acpCrcCheckFrom, Bool.false_eq_true, if_neg (Ne.symm hb),
      beq_false_of_ne hn, ↓reduceIte]
    exact ih hx (crcUpdate crc b)

theorem acpCrcCheckFrom_delimiter (n : ℕ) (crc : UInt8) (t : List UInt8) :
    acpCrcCheckFrom false n crc (ACP_DELIMITER_BLOCK :: t) =
      acpCrcCheckFrom (n + 1 == ACP_BLOCK_IND_CRC) (n + 1)
        (crcUpdate crc ACP_DELIMITER_BLOCK) t := by
  simp only [acpCrcCheckFrom, Bool.false_eq_true, ↓reduceIte]

/-- The CRC check compares the byte behind the third block with the CRC of the text. -/
theorem acpCrcCheck_packet {x₀ x₁ x₂ : List UInt8} (h₀ : ACP_DELIMITER_BLOCK ∉ x₀)
    (h₁ : ACP_DELIMITER_BLOCK ∉ x₁) (h₂ : ACP_DELIMITER_BLOCK ∉ x₂) (c : UInt8)
    (t : List UInt8) :
    acpCrcCheck (packetText x₀ x₁ x₂ ++ c :: t) =
      (c == crcUpdateByStr 0 (packetText x₀ x₁ x₂)) := by
  -- three times a block and its delimiter; the count of the delimiters turns to the CRC byte
  rw [packetText_append, acpCrcCheck, acpCrcCheckFrom_block h₀ (by decide),
    acpCrcCheckFrom_delimiter, show ((0 + 1 : ℕ) == ACP_BLOCK_IND_CRC) = false from rfl,
    acpCrcCheckFrom_block h₁ (by decide), acpCrcCheckFrom_delimiter,
    show ((0 + 1 + 1 : ℕ) == ACP_BLOCK_IND_CRC) = false from rfl,
    acpCrcCheckFrom_block h₂ (by decide), acpCrcCheckFrom_delimiter,
    show ((0 + 1 + 1 + 1 : ℕ) == ACP_BLOCK_IND_CRC) = true from rfl]
  simp [acpCrcCheckFrom, packetText, crcUpdateByStr]

/-! The parser of requests. -/

variable {cs ds : ℕ}

theorem requestParseLoop_delimiter (s : RequestParse) (t : List UInt8) :
    requestParseLoop cs ds (ACP_DELIMITER_BLOCK :: t) s =
      requestParseLoop cs ds t { s with block_count := s.block_count + 1, j := 0 } := by
  simp only [requestParseLoop, requestParseByte, ↓reduceIte]

section
variable {b : UInt8} (hb : b ≠ ACP_DELIMITER_BLOCK) (cmd data : List UInt8) (j : ℕ)
  (str : List UInt8)
include hb

theorem requestParseByte_cmd : requestParseByte cs ds b ⟨cmd, data, 0, j, str⟩ =
    if j < cs then some (.next ⟨cmd.set j b, data, 0, j + 1, str⟩)
    else some (.fail ⟨cmd, data, 0, j, str⟩) := by
  rw [requestParseByte, if_neg hb]
  rfl

theorem requestParseByte_data : requestParseByte cs ds b ⟨cmd, data, 1, j, str⟩ =
    if j < ds then some (.next ⟨cmd, data.set j b, 1, j + 1, str⟩)
    else some (.fail ⟨cmd, data, 1, j, str⟩) := by
  rw [requestParseByte, if_neg hb]
  rfl

theorem requestParseByte_id : requestParseByte cs ds b ⟨cmd, data, 2, j, str⟩ =
    if !isdigit b then some (.fail ⟨cmd, data, 2, j, str⟩)
    else (putNum str j b).map fun a => .next ⟨cmd, data, 2, j + 1, a⟩ := by
  rw [requestParseByte, if_neg hb]
  rfl

end

/-- A turn on a byte of one of the first three blocks stays in the block or ends the loop. -/
theorem requestParseByte_cases (cs ds : ℕ) {b : UInt8} {s : RequestParse}
    (hb : b ≠ ACP_DELIMITER_BLOCK) (hc : s.block_count < 3) :
    requestParseByte cs ds b s = none ∨ (∃ s', requestParseByte cs ds b s = some (.fail s')) ∨
      ∃ s', requestParseByte cs ds b s = some (.next s') ∧ s'.block_count = s.block_count := by
  obtain ⟨cmd, data, n, j, str⟩ := s
  match n, hc with
  | 0, _ =>
    rw [requestParseByte_cmd hb]
    split_ifs <;> simp
  | 1, _ =>
    rw [requestParseByte_data hb]
    split_ifs <;> simp
  | 2, _ =>
    rw [requestParseByte_id hb, putNum]
    split_ifs <;> simp

/-- The loop on a text that begins with a part of a block. -/
theorem requestParseLoop_append {x : List UInt8} (hx : ACP_DELIMITER_BLOCK ∉ x)
    {s : RequestParse} (hc : s.block_count < 3) (t : List UInt8) :
    requestParseLoop cs ds (x ++ t) s =
      match requestParseLoop cs ds x s with
      | some (.done s') => requestParseLoop cs ds t s'
      | r => r := by
  induction x generalizing s with
  | nil => rfl
  | cons b x ih =>
    obtain ⟨hb, hx⟩ := not_or.mp (mt List.mem_cons.mpr hx)
    rw [List.cons_append, requestParseLoop, requestParseLoop]
    rcases requestParseByte_cases cs ds (Ne.symm hb) hc with h | ⟨s', h⟩ | ⟨s', h, hs'⟩
    · rw [h]
    · rw [h]
    · rw [h]
      exact ih hx (by omega)

variable {cmd data str : List UInt8} {j : ℕ} {u : RequestParse}

/-- Block 0 goes to the command field, if it fits. -/
theorem requestParseLoop_cmd {x : List UInt8} (hx : ACP_DELIMITER_BLOCK ∉ x) (hj : j ≤ cs)
    (hl : cs ≤ cmd.length) :
    requestParseLoop cs ds x ⟨cmd, data, 0, j, str⟩ = some (.done u) ↔ j + x.length ≤ cs ∧
      u = ⟨writeAt cmd j x, data, 0, j + x.length, str⟩ := by
  refine (ends_iff_stored (u := u) (fun x s => requestParseLoop cs ds x s = some (.done u))
    (fun a j => ⟨a, data, 0, j, str⟩) (fun _ => True) (fun a j => ?_) (fun b x a j hb => ?_)
    hx hj hl).trans (by simp)
  · simp [requestParseLoop, eq_comm]
  · rw [requestParseLoop, requestParseByte_cmd hb]
    split_ifs with hlt <;> simp [hlt]

/-- Block 1 goes to the data field, if it fits. -/
theorem requestParseLoop_data {x : List UInt8} (hx : ACP_DELIMITER_BLOCK ∉ x) (hj : j ≤ ds)
    (hl : ds ≤ data.length) :
    requestParseLoop cs ds x ⟨cmd, data, 1, j, str⟩ = some (.done u) ↔ j + x.length ≤ ds ∧
      u = ⟨cmd, writeAt data j x, 1, j + x.length, str⟩ := by
  refine (ends_iff_stored (u := u) (fun x s => requestParseLoop cs ds x s = some (.done u))
    (fun a j => ⟨cmd, a, 1, j, str⟩) (fun _ => True) (fun a j => ?_) (fun b x a j hb => ?_)
    hx hj hl).trans (by simp)
  · simp [requestParseLoop, eq_comm]
  · rw [requestParseLoop, requestParseByte_data hb]
    split_ifs with hlt <;> simp [hlt]

/-- Block 2 goes to the string of the id, if it has digits only. -/
theorem requestParseLoop_id {x : List UInt8} (hx : ACP_DELIMITER_BLOCK ∉ x)
    (hj : j ≤ ACP_NUM_STR_LENGTH) (hl : str.length = ACP_NUM_STR_LENGTH) :
    requestParseLoop cs ds x ⟨cmd, data, 2, j, str⟩ = some (.done u) ↔
      (∀ b ∈ x, isdigit b = true) ∧ j + x.length ≤ ACP_NUM_STR_LENGTH ∧
      u = ⟨cmd, data, 2, j + x.length, writeAt str j x⟩ := by
  refine ends_iff_stored (fun x s => requestParseLoop cs ds x s = some (.done u))
    (fun a j => ⟨cmd, data, 2, j, a⟩) (fun b => isdigit b = true) (fun a j => ?_)
    (fun b x a j hb => ?_) hx hj hl.ge
  · simp [requestParseLoop, eq_comm]
  -- a digit is stored whether or not the string has room for its NUL
  · rw [requestParseLoop, requestParseByte_id hb, putNum]
    by_cases hd : isdigit b = true
    · by_cases hlt : j < ACP_NUM_STR_LENGTH <;> simp [hd, hlt]
    · simp [hd]

/-- The loop comes to its end with these three fields. -/
def RequestParses (cs ds : ℕ) (l : List UInt8) (s : RequestParse)
    (r : List UInt8 × List UInt8 × List UInt8) : Prop :=
  ∃ u, requestParseLoop cs ds l s = some (.done u) ∧ r = (u.cmd, u.data, u.id_str)

/-- Behind the third delimiter nothing is stored any more. -/
theorem requestParses_rest {l : List UInt8} {s : RequestParse} (hc : 3 ≤ s.block_count)
    {r : List UInt8 × List UInt8 × List UInt8} :
    RequestParses cs ds l s r ↔ r = (s.cmd, s.data, s.id_str) := by
  induction l generalizing s with
  | nil => simp [RequestParses, requestParseLoop]
  | cons b l ih =>
    -- a delimiter is counted, and any other byte ends the loop
    by_cases hb : b = ACP_DELIMITER_BLOCK
    · subst hb
      unfold RequestParses at ih ⊢
      rw [requestParseLoop_delimiter, ih (Nat.le_succ_of_le hc)]
    · obtain ⟨n, hn⟩ := Nat.exists_eq_add_of_le' hc
      simp [RequestParses, requestParseLoop, requestParseByte, hb, hn]

theorem requestParses_block {s : RequestParse} (hc : s.block_count < 3)
    {r : List UInt8 × List UInt8 × List UInt8} (l : List UInt8) :
    RequestParses cs ds l s r ↔
      ∃ u, requestParseLoop cs ds (block ACP_DELIMITER_BLOCK 0 l) s = some (.done u) ∧
        RequestParses cs ds (l.dropWhile (· ≠ ACP_DELIMITER_BLOCK)).tail
          { u with block_count := u.block_count + 1, j := 0 } r := by
  refine reads_block (fun x s u => requestParseLoop cs ds x s = some (.done u))
    (fun x _ => ?_) (fun x t hx => ?_) l
  · simp only [RequestParses, requestParseLoop, Option.some.injEq, RequestTurn.done.injEq,
      exists_eq_left']
  -- the loop can only come to the delimiter if it passes the block in front of it
  · unfold RequestParses
    rw [requestParseLoop_append hx hc]
    rcases requestParseLoop cs ds x s with _ | turn
    · simp
    · cases turn <;> simp [requestParseLoop_delimiter]

/-- The loop of `acp_requestParse` on the blocks of a packet. -/
theorem requestParses_iff {l : List UInt8} (hcmd : cs ≤ cmd.length)
    (hdata : ds ≤ data.length) (hstr : str.length = ACP_NUM_STR_LENGTH)
    {r : List UInt8 × List UInt8 × List UInt8} :
    RequestParses cs ds l ⟨cmd, data, 0, 0, str⟩ r ↔
      (block ACP_DELIMITER_BLOCK 0 l).length ≤ cs ∧
      (block ACP_DELIMITER_BLOCK 1 l).length ≤ ds ∧
      (∀ b ∈ block ACP_DELIMITER_BLOCK 2 l, isdigit b = true) ∧
      (block ACP_DELIMITER_BLOCK 2 l).length ≤ ACP_NUM_STR_LENGTH ∧
      r = (writeAt cmd 0 (block ACP_DELIMITER_BLOCK 0 l),
        writeAt data 0 (block ACP_DELIMITER_BLOCK 1 l),
        writeAt str 0 (block ACP_DELIMITER_BLOCK 2 l)) := by
  rw [requestParses_block (by simp)]
  simp only [requestParseLoop_cmd (not_mem_block _ _ _) (Nat.zero_le _) hcmd, and_assoc,
    exists_and_left, exists_eq_left, Nat.zero_add]
  rw [requestParses_block (by simp)]
  simp only [requestParseLoop_data (not_mem_block _ _ _) (Nat.zero_le _) hdata, and_assoc,
    exists_and_left, exists_eq_left, Nat.zero_add]
  rw [requestParses_block (by simp)]
  simp only [requestParseLoop_id (not_mem_block _ _ _) (Nat.zero_le _) hstr, and_assoc,
    exists_and_left, exists_eq_left, Nat.zero_add]
  rw [requestParses_rest (by simp)]
  rfl

theorem cString_append {x : List UInt8} (hx : 0 ∉ x) (t : List UInt8) :
    cString (x ++ 0 :: t) = some x := by
  rw [cString, if_pos (by simp), takeWhile_ne_append hx]

/-- A string that is stored in zeroed memory keeps its NUL if it is shorter than the array. -/
theorem cString_zeros {x : List UInt8} (hx : 0 ∉ x) (n : ℕ) :
    cString (writeAt (List.replicate n 0) 0 x) = if x.length < n then some x else none := by
  rw [writeAt_zero, List.drop_replicate]
  split_ifs with h
  · obtain ⟨k, hk⟩ := Nat.exists_eq_add_of_lt h
    rw [hk, show x.length + k + 1 - x.length = k + 1 by omega, List.replicate_succ,
      cString_append hx]
  · rw [show n - x.length = 0 by omega, List.replicate_zero, List.append_nil, cString, if_neg hx]

theorem not_mem_of_isdigit {x : List UInt8} (h : ∀ b ∈ x, isdigit b = true) : 0 ∉ x :=
  fun h₀ => absurd (h 0 h₀) (by decide)

theorem requestParseLoop_ne_next (l : List UInt8) (s u : RequestParse) :
    requestParseLoop cs ds l s ≠ some (.next u) := by
  induction l generalizing s with
  | nil => simp [requestParseLoop]
  | cons b l ih =>
    rw [requestParseLoop]
    cases h : requestParseByte cs ds b s with
    | none => simp
    | some turn =>
      cases turn with
      | next s' => exact ih s'
      | fail s' => simp
      | done s' => simp

/-- The requests that `acp_requestParse` accepts, and what it leaves in the item: the blocks,
each in its field. -/
theorem acpRequestParse_true {item item' : ACPRequest} (hcmd : item.cmd_size ≤ item.cmd.length)
    (hdata : item.data_size ≤ item.data.length) (hbuf : item.buf.length ≤ item.buf_size) :
    acpRequestParse item = some (true, item') ↔
      ACP_REQUEST_BUF_SIZE_MIN ≤ (item.buf.takeWhile (· ≠ 0)).length ∧
      (block ACP_DELIMITER_BLOCK 0 item.buf).length ≤ item.cmd_size ∧
      (block ACP_DELIMITER_BLOCK 1 item.buf).length ≤ item.data_size ∧
      (∀ b ∈ block ACP_DELIMITER_BLOCK 2 item.buf, isdigit b = true) ∧
      (block ACP_DELIMITER_BLOCK 2 item.buf).length < ACP_NUM_STR_LENGTH ∧
      item' = { acpCountDataRows { item with
          cmd := writeAt item.cmd 0 (block ACP_DELIMITER_BLOCK 0 item.buf)
          data := writeAt item.data 0 (block ACP_DELIMITER_BLOCK 1 item.buf) } with
        id := UInt32.ofNat (digitsVal (block ACP_DELIMITER_BLOCK 2 item.buf)) } := by
  have hloop : ∀ r, RequestParses item.cmd_size item.data_size item.buf
      ⟨item.cmd, item.data, 0, 0, List.replicate ACP_NUM_STR_LENGTH 0⟩ r ↔ _ :=
    fun r => requestParses_iff hcmd hdata List.length_replicate
  unfold acpRequestParse
  rw [List.take_of_length_le hbuf]
  by_cases hmin : (item.buf.takeWhile (· ≠ 0)).length < ACP_REQUEST_BUF_SIZE_MIN
  · rw [if_pos hmin]
    constructor
    · intro h
      cases h
    · rintro ⟨h, -⟩
      exact absurd h (not_le.mpr hmin)
  rw [if_neg hmin]
  constructor
  -- an accepted request has come to the end of the loop, with a string in its number array
  · intro h
    rcases hl : requestParseLoop item.cmd_size item.data_size item.buf
      ⟨item.cmd, item.data, 0, 0, List.replicate ACP_NUM_STR_LENGTH 0⟩ with _ | s | s | s <;>
      rw [hl] at h
    · cases h
    · exact absurd hl (requestParseLoop_ne_next _ _ _)
    · cases h
    · obtain ⟨h₀, h₁, h₂, -, hs⟩ := (hloop _).mp ⟨s, hl, rfl⟩
      simp only [Prod.mk.injEq] at hs
      simp only [hs.1, hs.2.1, hs.2.2, cString_zeros (not_mem_of_isdigit h₂)] at h
      split_ifs at h with hlen
      · simp only [Option.map_some, Option.some.injEq, Prod.mk.injEq, true_and] at h
        exact ⟨not_lt.mp hmin, h₀, h₁, h₂, hlen, h.symm⟩
      · cases h
  · rintro ⟨-, h₀, h₁, h₂, hlen, rfl⟩
    obtain ⟨s, hl, hs⟩ := (hloop _).mpr ⟨h₀, h₁, h₂, hlen.le, rfl⟩
    simp only [Prod.mk.injEq] at hs
    rw [hl]
    dsimp only
    rw [← hs.1, ← hs.2.1, ← hs.2.2, cString_zeros (not_mem_of_isdigit h₂), if_pos hlen,
      Option.map_some]

end Regonf
