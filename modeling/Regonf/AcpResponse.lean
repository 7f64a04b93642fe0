import Regonf.AcpBlocks

/-! `acp_responseParse` on the blocks of a packet. -/
namespace Regonf

open Blocks

variable {ds : ℕ}

theorem responseParseLoop_delimiter (s : ResponseParse) (t : List UInt8) :
    responseParseLoop ds (ACP_DELIMITER_BLOCK :: t) s =
      responseParseLoop ds t { s with block_count := s.block_count + 1, j := 0 } := by
  simp only [responseParseLoop, responseParseByte, ↓reduceIte]

section
variable {b : UInt8} (hb : b ≠ ACP_DELIMITER_BLOCK) (data : List UInt8) (j : ℕ) (f1 : Bool)
  (seq id inl : List UInt8)
include hb

theorem responseParseByte_head : responseParseByte ds b ⟨data, 0, j, f1, seq, id, inl⟩ =
    if b = ACP_DELIMITER_COLUMN then some (.next ⟨data, 0, 0, true, seq, id, inl⟩)
    else if !isdigit b then some (.fail ⟨data, 0, j, f1, seq, id, inl⟩)
    else if f1 then (putNum inl j b).map fun a => .next ⟨data, 0, j + 1, f1, seq, id, a⟩
    else (putNum seq j b).map fun a => .next ⟨data, 0, j + 1, f1, a, id, inl⟩ := by
  rw [responseParseByte, if_neg hb]
  rfl

theorem responseParseByte_data : responseParseByte ds b ⟨data, 1, j, f1, seq, id, inl⟩ =
    if j < ds then some (.next ⟨data.set j b, 1, j + 1, f1, seq, id, inl⟩)
    else some (.fail ⟨data, 1, j, f1, seq, id, inl⟩) := by
  rw [responseParseByte, if_neg hb]
  rfl

theorem responseParseByte_id : responseParseByte ds b ⟨data, 2, j, f1, seq, id, inl⟩ =
    if !isdigit b then some (.fail ⟨data, 2, j, f1, seq, id, inl⟩)
    else (putNum id j b).map fun a => .next ⟨data, 2, j + 1, f1, seq, a, inl⟩ := by
  rw [responseParseByte, if_neg hb]
  rfl

end

/-- A turn on a byte of one of the first three blocks stays in the block or ends the loop. -/
theorem responseParseByte_cases (ds : ℕ) {b : UInt8} {s : ResponseParse}
    (hb : b ≠ ACP_DELIMITER_BLOCK) (hc : s.block_count < 3) :
    responseParseByte ds b s = none ∨ (∃ s', responseParseByte ds b s = some (.fail s')) ∨
      ∃ s', responseParseByte ds b s = some (.next s') ∧ s'.block_count = s.block_count := by
  obtain ⟨data, n, j, f1, seq, id, inl⟩ := s
  match n, hc with
  | 0, _ =>
    rw [responseParseByte_head hb, putNum, putNum]
    split_ifs <;> simp
  | 1, _ =>
    rw [responseParseByte_data hb]
    split_ifs <;> simp
  | 2, _ =>
    rw [responseParseByte_id hb, putNum]
    split_ifs <;> simp

theorem responseParseLoop_append {x : List UInt8} (hx : ACP_DELIMITER_BLOCK ∉ x)
    {s : ResponseParse} (hc : s.block_count < 3) (t : List UInt8) :
    responseParseLoop ds (x ++ t) s =
      match responseParseLoop ds x s with
      | some (.done s') => responseParseLoop ds t s'
      | r => r := by
  induction x generalizing s with
  | nil => rfl
  | cons b x ih =>
    obtain ⟨hb, hx⟩ := not_or.mp (mt List.mem_cons.mpr hx)
    rw [List.cons_append, responseParseLoop, responseParseLoop]
    rcases responseParseByte_cases ds (Ne.symm hb) hc with h | ⟨s', h⟩ | ⟨s', h, hs'⟩
    · rw [h]
    · rw [h]
    · rw [h]
      exact ih hx (by omega)

variable {data seq id inl : List UInt8} {j : ℕ} {f1 : Bool} {u : ResponseParse}

/-- Block 0 leaves the data and the id alone; it has digits and tabs only. -/
theorem responseParseLoop_head {x : List UInt8} (hx : ACP_DELIMITER_BLOCK ∉ x)
    (h : responseParseLoop ds x ⟨data, 0, j, f1, seq, id, inl⟩ = some (.done u)) :
    (∀ b ∈ x, isdigit b = true ∨ b = ACP_DELIMITER_COLUMN) ∧
      u = ⟨data, 0, u.j, u.f1, u.seq_str, id, u.inl_str⟩ := by
  induction x generalizing j f1 seq inl with
  | nil =>
    simp only [responseParseLoop, Option.some.injEq, ParseTurn.done.injEq] at h
    rw [← h]
    simp
  | cons b x ih =>
    obtain ⟨hb, hx⟩ := not_or.mp (mt List.mem_cons.mpr hx)
    rw [responseParseLoop, responseParseByte_head (Ne.symm hb), putNum, putNum] at h
    rw [List.forall_mem_cons]
    -- a tab, a byte that ends the loop, or a digit of the flag or the number, with or without room
    split_ifs at h with h₁ h₂ h₃ h₄ h₄
    · exact ⟨⟨Or.inr h₁, (ih hx h).1⟩, (ih hx h).2⟩
    · simp at h
    · exact ⟨⟨Or.inl (by simpa using h₂), (ih hx h).1⟩, (ih hx h).2⟩
    · simp at h
    · exact ⟨⟨Or.inl (by simpa using h₂), (ih hx h).1⟩, (ih hx h).2⟩
    · simp at h

/-- Block 1 goes to the data field, if it fits. -/
theorem responseParseLoop_data {x : List UInt8} (hx : ACP_DELIMITER_BLOCK ∉ x) (hj : j ≤ ds)
    (hl : ds ≤ data.length) :
    responseParseLoop ds x ⟨data, 1, j, f1, seq, id, inl⟩ = some (.done u) ↔
      j + x.length ≤ ds ∧ u = ⟨writeAt data j x, 1, j + x.length, f1, seq, id, inl⟩ := by
  refine (ends_iff_stored (u := u) (fun x s => responseParseLoop ds x s = some (.done u))
    (fun a j => ⟨a, 1, j, f1, seq, id, inl⟩) (fun _ => True) (fun a j => ?_)
    (fun b x a j hb => ?_) hx hj hl).trans (by simp)
  · simp [responseParseLoop, eq_comm]
  · rw [responseParseLoop, responseParseByte_data hb]
    split_ifs with hlt <;> simp [hlt]

/-- Block 2 goes to the string of the id, if it has digits only. -/
theorem responseParseLoop_id {x : List UInt8} (hx : ACP_DELIMITER_BLOCK ∉ x)
    (hj : j ≤ ACP_NUM_STR_LENGTH) (hl : id.length = ACP_NUM_STR_LENGTH) :
    responseParseLoop ds x ⟨data, 2, j, f1, seq, id, inl⟩ = some (.done u) ↔
      (∀ b ∈ x, isdigit b = true) ∧ j + x.length ≤ ACP_NUM_STR_LENGTH ∧
      u = ⟨data, 2, j + x.length, f1, seq, writeAt id j x, inl⟩ := by
  refine ends_iff_stored (fun x s => responseParseLoop ds x s = some (.done u))
    (fun a j => ⟨data, 2, j, f1, seq, a, inl⟩) (fun b => isdigit b = true) (fun a j => ?_)
    (fun b x a j hb => ?_) hx hj hl.ge
  · simp [responseParseLoop, eq_comm]
  · rw [responseParseLoop, responseParseByte_id hb, putNum]
    by_cases hd : isdigit b = true
    · by_cases hlt : j < ACP_NUM_STR_LENGTH <;> simp [hd, hlt]
    · simp [hd]

/-- The loop comes to its end with these fields: the data, the sequence number, the flag and
the id. -/
def ResponseParses (ds : ℕ) (l : List UInt8) (s : ResponseParse)
    (r : List UInt8 × List UInt8 × List UInt8 × List UInt8) : Prop :=
  ∃ u, responseParseLoop ds l s = some (.done u) ∧ r = (u.data, u.seq_str, u.inl_str, u.id_str)

variable {r : List UInt8 × List UInt8 × List UInt8 × List UInt8}

/-- Behind the third delimiter nothing is stored any more. -/
theorem responseParses_rest {l : List UInt8} {s : ResponseParse} (hc : 3 ≤ s.block_count) :
    ResponseParses ds l s r ↔ r = (s.data, s.seq_str, s.inl_str, s.id_str) := by
  induction l generalizing s with
  | nil => simp [ResponseParses, responseParseLoop]
  | cons b l ih =>
    -- a delimiter is counted, and any other byte ends the loop
    by_cases hb : b = ACP_DELIMITER_BLOCK
    · subst hb
      unfold ResponseParses at ih ⊢
      rw [responseParseLoop_delimiter, ih (Nat.le_succ_of_le hc)]
    · obtain ⟨n, hn⟩ := Nat.exists_eq_add_of_le' hc
      simp [ResponseParses, responseParseLoop, responseParseByte, hb, hn]

theorem responseParses_block {s : ResponseParse} (hc : s.block_count < 3) (l : List UInt8) :
    ResponseParses ds l s r ↔
      ∃ u, responseParseLoop ds (block ACP_DELIMITER_BLOCK 0 l) s = some (.done u) ∧
        ResponseParses ds (l.dropWhile (· ≠ ACP_DELIMITER_BLOCK)).tail
          { u with block_count := u.block_count + 1, j := 0 } r := by
  refine reads_block (fun x s u => responseParseLoop ds x s = some (.done u))
    (fun x _ => ?_) (fun x t hx => ?_) l
  · simp only [ResponseParses, responseParseLoop, Option.some.injEq, ParseTurn.done.injEq,
      exists_eq_left']
  · unfold ResponseParses
    rw [responseParseLoop_append hx hc]
    rcases responseParseLoop ds x s with _ | turn
    · simp
    · cases turn <;> simp [responseParseLoop_delimiter]

/-- The loop of `acp_responseParse` on the blocks of a packet; `u` is the state at the end of
block 0. -/
theorem responseParses_iff {l : List UInt8} (hdata : ds ≤ data.length)
    (hid : id.length = ACP_NUM_STR_LENGTH) :
    ResponseParses ds l ⟨data, 0, 0, false, seq, id, inl⟩ r ↔
      ∃ u, responseParseLoop ds (block ACP_DELIMITER_BLOCK 0 l)
          ⟨data, 0, 0, false, seq, id, inl⟩ = some (.done u) ∧
        (block ACP_DELIMITER_BLOCK 1 l).length ≤ ds ∧
        (∀ b ∈ block ACP_DELIMITER_BLOCK 2 l, isdigit b = true) ∧
        (block ACP_DELIMITER_BLOCK 2 l).length ≤ ACP_NUM_STR_LENGTH ∧
        r = (writeAt data 0 (block ACP_DELIMITER_BLOCK 1 l), u.seq_str, u.inl_str,
          writeAt id 0 (block ACP_DELIMITER_BLOCK 2 l)) := by
  -- what block 0 leaves in its two strings stays with `u`; the other two blocks are as in a request
  rw [responseParses_block (by simp)]
  refine exists_congr fun u => and_congr_right fun hu => ?_
  rw [(responseParseLoop_head (not_mem_block _ _ _) hu).2]
  dsimp only
  rw [responseParses_block (by simp)]
  simp only [Nat.zero_add, responseParseLoop_data (not_mem_block _ _ _) (Nat.zero_le _) hdata,
    and_assoc, exists_and_left, exists_eq_left]
  rw [responseParses_block (by simp)]
  simp only [responseParseLoop_id (not_mem_block _ _ _) (Nat.zero_le _) hid, and_assoc,
    exists_and_left, exists_eq_left, Nat.zero_add]
  rw [responseParses_rest (by simp)]
  rfl

theorem responseParseLoop_ne_next (l : List UInt8) (s u : ResponseParse) :
    responseParseLoop ds l s ≠ some (.next u) := by
  induction l generalizing s with
  | nil => simp [responseParseLoop]
  | cons b l ih =>
    rw [responseParseLoop]
    cases h : responseParseByte ds b s with
    | none => simp
    | some turn =>
      cases turn with
      | next s' => exact ih s'
      | fail s' => simp
      | done s' => simp

/-- A run of digits at the front of block 0 is stored in the string of its field. -/
theorem responseParseLoop_digits {x : List UInt8} (hx : ∀ b ∈ x, isdigit b = true)
    (hl : (if f1 then inl else seq).length = ACP_NUM_STR_LENGTH)
    (hj : j + x.length ≤ ACP_NUM_STR_LENGTH) (t : List UInt8) :
    responseParseLoop ds (x ++ t) ⟨data, 0, j, f1, seq, id, inl⟩ =
      responseParseLoop ds t ⟨data, 0, j + x.length, f1, if f1 then seq else writeAt seq j x, id,
        if f1 then writeAt inl j x else inl⟩ := by
  induction x generalizing seq inl j with
  | nil => cases f1 <;> simp
  | cons b x ih =>
    obtain ⟨hb, hx⟩ := List.forall_mem_cons.mp hx
    have hb₁ : b ≠ ACP_DELIMITER_BLOCK := by
      rintro rfl
      exact absurd hb (by decide)
    have hb₂ : b ≠ ACP_DELIMITER_COLUMN := by
      rintro rfl
      exact absurd hb (by decide)
    rw [List.length_cons] at hj ⊢
    have hlt : j < ACP_NUM_STR_LENGTH := by omega
    rw [List.cons_append, responseParseLoop, responseParseByte_head hb₁, if_neg hb₂, hb]
    -- the induction goes on with the string that the digit was stored in
    cases f1 with
    | false =>
      simp only [Bool.not_true, Bool.false_eq_true, ↓reduceIte, putNum, hlt, Option.map_some]
        at hl ⊢
      rw [ih hx (by simpa using hl) (by omega)]
      simp only [Bool.false_eq_true, ↓reduceIte, writeAt_set (hl ▸ hlt), Nat.add_assoc,
        Nat.add_comm 1]
    | true =>
      simp only [Bool.not_true, Bool.false_eq_true, ↓reduceIte, putNum, hlt, Option.map_some]
        at hl ⊢
      rw [ih hx (by simpa using hl) (by omega)]
      simp only [↓reduceIte, writeAt_set (hl ▸ hlt), Nat.add_assoc, Nat.add_comm 1]

/-- Block 0 as a sender writes it: the number, a tab, the flag. -/
theorem responseParseLoop_numbers {q f : List UInt8} (hq : ∀ b ∈ q, isdigit b = true)
    (hf : ∀ b ∈ f, isdigit b = true) (hql : q.length ≤ ACP_NUM_STR_LENGTH)
    (hfl : f.length ≤ ACP_NUM_STR_LENGTH) (hseq : seq.length = ACP_NUM_STR_LENGTH)
    (hinl : inl.length = ACP_NUM_STR_LENGTH) :
    responseParseLoop ds (q ++ ACP_DELIMITER_COLUMN :: f) ⟨data, 0, 0, false, seq, id, inl⟩ =
      some (.done ⟨data, 0, f.length, true, writeAt seq 0 q, id, writeAt inl 0 f⟩) := by
  -- the tab turns to the flag, and starts its index again
  have htab (s : ResponseParse) (t : List UInt8) (hs : s.block_count = 0) :
      responseParseLoop ds (ACP_DELIMITER_COLUMN :: t) s =
        responseParseLoop ds t { s with f1 := true, j := 0 } := by
    obtain ⟨data, n, j, f1, seq, id, inl⟩ := s
    subst hs
    rw [responseParseLoop, responseParseByte_head (by decide), if_pos rfl]
  rw [responseParseLoop_digits hq (by simpa using hseq) (by simpa using hql), htab _ _ rfl]
  have h : responseParseLoop ds (f ++ []) ⟨data, 0, 0, true, writeAt seq 0 q, id, inl⟩ = _ :=
    responseParseLoop_digits hf (by simpa using hinl) (by simpa using hfl) []
  simpa [responseParseLoop] using h

/-- The responses that `acp_responseParse` accepts, and what it leaves in the item. -/
theorem acpResponseParse_true {item item' : ACPResponse}
    (hdata : item.data_size ≤ item.data.length) (hbuf : item.buf.length ≤ item.buf_size) :
    acpResponseParse item = some (true, item') ↔
      ACP_RESPONSE_BUF_SIZE_MIN ≤ (item.buf.takeWhile (· ≠ 0)).length ∧
      ∃ u seq inl, responseParseLoop item.data_size (block ACP_DELIMITER_BLOCK 0 item.buf)
          ⟨item.data, 0, 0, false, List.replicate ACP_NUM_STR_LENGTH 0,
            List.replicate ACP_NUM_STR_LENGTH 0, List.replicate ACP_NUM_STR_LENGTH 0⟩ =
          some (.done u) ∧
        cString u.seq_str = some seq ∧ seq ≠ [] ∧ cString u.inl_str = some inl ∧ inl ≠ [] ∧
        (block ACP_DELIMITER_BLOCK 1 item.buf).length ≤ item.data_size ∧
        (∀ b ∈ block ACP_DELIMITER_BLOCK 2 item.buf, isdigit b = true) ∧
        (block ACP_DELIMITER_BLOCK 2 item.buf).length < ACP_NUM_STR_LENGTH ∧
        block ACP_DELIMITER_BLOCK 2 item.buf ≠ [] ∧
        item' = { item with
          data := writeAt item.data 0 (block ACP_DELIMITER_BLOCK 1 item.buf)
          seq := UInt32.ofNat (digitsVal seq), is_not_last := Int32.ofNat (digitsVal inl)
          id := UInt32.ofNat (digitsVal (block ACP_DELIMITER_BLOCK 2 item.buf)) } := by
  have hloop : ∀ r, ResponseParses item.data_size item.buf
      ⟨item.data, 0, 0, false, List.replicate ACP_NUM_STR_LENGTH 0,
        List.replicate ACP_NUM_STR_LENGTH 0, List.replicate ACP_NUM_STR_LENGTH 0⟩ r ↔ _ :=
    fun r => responseParses_iff hdata List.length_replicate
  unfold acpResponseParse
  rw [List.take_of_length_le hbuf]
  by_cases hmin : (item.buf.takeWhile (· ≠ 0)).length < ACP_RESPONSE_BUF_SIZE_MIN
  · rw [if_pos hmin]
    constructor
    · intro h
      cases h
    · rintro ⟨h, -⟩
      exact absurd h (not_le.mpr hmin)
  rw [if_neg hmin]
  constructor
  · intro h
    dsimp only at h
    rcases hl : responseParseLoop item.data_size item.buf
      ⟨item.data, 0, 0, false, List.replicate ACP_NUM_STR_LENGTH 0,
        List.replicate ACP_NUM_STR_LENGTH 0, List.replicate ACP_NUM_STR_LENGTH 0⟩ with
      _ | s | s | s <;> rw [hl] at h
    · cases h
    · exact absurd hl (responseParseLoop_ne_next _ _ _)
    · cases h
    · obtain ⟨u, hu, h₁, h₂, hlen, hs⟩ := (hloop _).mp ⟨s, hl, rfl⟩
      simp only [Prod.mk.injEq] at hs
      obtain ⟨seq, inl, id, hseq, hne, hinl, hne', hid, hne'', rfl⟩ :=
        responseParseNumbers_true.mp h
      rw [hs.2.2.2, cString_zeros (not_mem_of_isdigit h₂)] at hid
      -- an id that fills its array has no end there
      split_ifs at hid with hlt
      cases hid
      exact ⟨not_lt.mp hmin, u, seq, inl, hu, hs.2.1 ▸ hseq, hne, hs.2.2.1 ▸ hinl, hne', h₁, h₂,
        hlt, hne'', by rw [hs.1]⟩
  · rintro ⟨-, u, seq, inl, hu, hseq, hne, hinl, hne', h₁, h₂, hlt, hne'', rfl⟩
    obtain ⟨s, hl, hs⟩ := (hloop _).mpr ⟨u, hu, h₁, h₂, hlt.le, rfl⟩
    simp only [Prod.mk.injEq] at hs
    dsimp only
    rw [hl]
    refine responseParseNumbers_true.mpr ⟨seq, inl, _, hs.2.1 ▸ hseq, hne, hs.2.2.1 ▸ hinl, hne',
      ?_, hne'', by rw [hs.1]⟩
    rw [← hs.2.2.2, cString_zeros (not_mem_of_isdigit h₂), if_pos hlt]

end Regonf
