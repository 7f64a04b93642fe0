import Regonf.AcpResponse

/-! The stores of the two parsers into their number strings. Nothing bounds the index of these
stores, so they stay below the last byte only for numbers that are short enough. -/
namespace Regonf

open Blocks

/-- The index of the store into `id_str` that a turn of `acp_requestParse` makes. -/
def requestNumIndex (b : UInt8) (s : RequestParse) : Option ℕ :=
  if b ≠ ACP_DELIMITER_BLOCK ∧ s.block_count = 2 ∧ isdigit b = true then some s.j else none

/-- The indices of all these stores, up to and with one that falls outside the array. -/
def requestNumWrites (cs ds : ℕ) : List UInt8 → RequestParse → List ℕ
  | [], _ => []
  | b :: bs, s =>
    (requestNumIndex b s).toList ++
      match requestParseByte cs ds b s with
      | some (.next s) => requestNumWrites cs ds bs s
      | _ => []

/-- The index of the store into `seq_str`, `inl_str` or `id_str` that a turn of
`acp_responseParse` makes. -/
def responseNumIndex (b : UInt8) (s : ResponseParse) : Option ℕ :=
  if b ≠ ACP_DELIMITER_BLOCK ∧ (s.block_count = 0 ∨ s.block_count = 2) ∧ isdigit b = true then
    some s.j
  else none

def responseNumWrites (ds : ℕ) : List UInt8 → ResponseParse → List ℕ
  | [], _ => []
  | b :: bs, s =>
    (responseNumIndex b s).toList ++
      match responseParseByte ds b s with
      | some (.next s) => responseNumWrites ds bs s
      | _ => []

/-- A number string that has kept its length and its last NUL. -/
def Terminated (a : List UInt8) : Prop :=
  a.length = ACP_NUM_STR_LENGTH ∧ a[ACP_NUM_STR_LENGTH - 1]? = some 0

theorem terminated_zeros : Terminated (List.replicate ACP_NUM_STR_LENGTH 0) :=
  ⟨List.length_replicate, rfl⟩

theorem Terminated.set {a : List UInt8} (h : Terminated a) {j : ℕ}
    (hj : j < ACP_NUM_STR_LENGTH - 1) (b : UInt8) : Terminated (a.set j b) :=
  ⟨by rw [List.length_set]; exact h.1, by rw [List.getElem?_set_ne hj.ne]; exact h.2⟩

theorem Terminated.cString {a : List UInt8} (h : Terminated a) : ∃ s, cString a = some s := by
  rw [Regonf.cString, if_pos (List.mem_of_getElem? h.2)]
  exact ⟨_, rfl⟩

theorem putNum_terminated {a : List UInt8} (h : Terminated a) {j : ℕ}
    (hj : j < ACP_NUM_STR_LENGTH - 1) (b : UInt8) :
    ∃ a', putNum a j b = some a' ∧ Terminated a' :=
  ⟨a.set j b, by rw [putNum, if_pos (by omega)], h.set hj b⟩

variable {cs ds : ℕ}

/-- The state that a turn of `acp_requestParse` leaves, however it ends. -/
def RequestTurn.state : RequestTurn → RequestParse
  | .next s | .fail s | .done s => s

def ParseTurn.state : ParseTurn → ResponseParse
  | .next s | .fail s | .done s => s

/-- A turn that stores below the last byte is defined and keeps the string terminated. -/
theorem requestParseByte_safe (cs ds : ℕ) {b : UInt8} {s : RequestParse}
    (hs : Terminated s.id_str)
    (hj : ∀ j ∈ requestNumIndex b s, j < ACP_NUM_STR_LENGTH - 1) :
    ∃ turn, requestParseByte cs ds b s = some turn ∧ Terminated turn.state.id_str := by
  by_cases hb : b = ACP_DELIMITER_BLOCK
  · exact ⟨_, if_pos hb, hs⟩
  obtain ⟨cmd, data, n, j, str⟩ := s
  match n with
  -- the first two blocks do not touch the string
  | 0 =>
    rw [requestParseByte_cmd hb]
    split_ifs <;> exact ⟨_, rfl, hs⟩
  | 1 =>
    rw [requestParseByte_data hb]
    split_ifs <;> exact ⟨_, rfl, hs⟩
  | 2 =>
    rw [requestParseByte_id hb]
    by_cases hd : isdigit b = true
    · obtain ⟨a, ha, hta⟩ := putNum_terminated hs (hj j (by simp [requestNumIndex, hb, hd])) b
      rw [hd, ha]
      exact ⟨_, rfl, hta⟩
    · rw [if_pos (by simpa using hd)]
      exact ⟨_, rfl, hs⟩
  | n + 3 => exact ⟨_, if_neg hb, hs⟩

theorem requestParseLoop_safe {l : List UInt8} {s : RequestParse} (hs : Terminated s.id_str)
    (hj : ∀ j ∈ requestNumWrites cs ds l s, j < ACP_NUM_STR_LENGTH - 1) :
    ∃ turn, requestParseLoop cs ds l s = some turn ∧ Terminated turn.state.id_str := by
  induction l generalizing s with
  | nil => exact ⟨_, rfl, hs⟩
  | cons b l ih =>
    rw [requestNumWrites, List.forall_mem_append] at hj
    obtain ⟨turn, ht, hst⟩ := requestParseByte_safe cs ds hs
      fun j h => hj.1 j (Option.mem_toList.mpr h)
    rw [requestParseLoop, ht]
    rw [ht] at hj
    cases turn with
    | next s' => exact ih hst hj.2
    | fail s' => exact ⟨_, rfl, hst⟩
    | done s' => exact ⟨_, rfl, hst⟩

theorem responseParseByte_safe (ds : ℕ) {b : UInt8} {s : ResponseParse}
    (hs : Terminated s.seq_str ∧ Terminated s.inl_str ∧ Terminated s.id_str)
    (hj : ∀ j ∈ responseNumIndex b s, j < ACP_NUM_STR_LENGTH - 1) :
    ∃ turn, responseParseByte ds b s = some turn ∧ Terminated turn.state.seq_str ∧
      Terminated turn.state.inl_str ∧ Terminated turn.state.id_str := by
  by_cases hb : b = ACP_DELIMITER_BLOCK
  · exact ⟨_, if_pos hb, hs⟩
  obtain ⟨data, n, j, f1, seq, id, inl⟩ := s
  obtain ⟨hseq, hinl, hid⟩ := hs
  match n with
  | 0 =>
    rw [responseParseByte_head hb]
    by_cases ht : b = ACP_DELIMITER_COLUMN
    · rw [if_pos ht]
      exact ⟨_, rfl, hseq, hinl, hid⟩
    rw [if_neg ht]
    by_cases hd : isdigit b = true
    · have hlt := hj j (by simp [responseNumIndex, hb, hd])
      rw [hd]
      -- the digit goes to the sequence number, and behind the tab to the flag
      cases f1 with
      | false =>
        obtain ⟨a, ha, hta⟩ := putNum_terminated hseq hlt b
        rw [ha]
        exact ⟨_, rfl, hta, hinl, hid⟩
      | true =>
        obtain ⟨a, ha, hta⟩ := putNum_terminated hinl hlt b
        rw [ha]
        exact ⟨_, rfl, hseq, hta, hid⟩
    · rw [if_pos (by simpa using hd)]
      exact ⟨_, rfl, hseq, hinl, hid⟩
  | 1 =>
    rw [responseParseByte_data hb]
    split_ifs <;> exact ⟨_, rfl, hseq, hinl, hid⟩
  | 2 =>
    rw [responseParseByte_id hb]
    by_cases hd : isdigit b = true
    · obtain ⟨a, ha, hta⟩ := putNum_terminated hid (hj j (by simp [responseNumIndex, hb, hd])) b
      rw [hd, ha]
      exact ⟨_, rfl, hseq, hinl, hta⟩
    · rw [if_pos (by simpa using hd)]
      exact ⟨_, rfl, hseq, hinl, hid⟩
  | n + 3 => exact ⟨_, if_neg hb, hseq, hinl, hid⟩

theorem responseParseLoop_safe {l : List UInt8} {s : ResponseParse}
    (hs : Terminated s.seq_str ∧ Terminated s.inl_str ∧ Terminated s.id_str)
    (hj : ∀ j ∈ responseNumWrites ds l s, j < ACP_NUM_STR_LENGTH - 1) :
    ∃ turn, responseParseLoop ds l s = some turn ∧ Terminated turn.state.seq_str ∧
      Terminated turn.state.inl_str ∧ Terminated turn.state.id_str := by
  induction l generalizing s with
  | nil => exact ⟨_, rfl, hs⟩
  | cons b l ih =>
    rw [responseNumWrites, List.forall_mem_append] at hj
    obtain ⟨turn, ht, hst⟩ := responseParseByte_safe ds hs
      fun j h => hj.1 j (Option.mem_toList.mpr h)
    rw [responseParseLoop, ht]
    rw [ht] at hj
    cases turn with
    | next s' => exact ih hst hj.2
    | fail s' => exact ⟨_, rfl, hst⟩
    | done s' => exact ⟨_, rfl, hst⟩

/-! Which packets keep the stores below the last byte: the requests. -/

theorem requestNumWrites_append {x : List UInt8} (hx : ACP_DELIMITER_BLOCK ∉ x)
    {s : RequestParse} (hc : s.block_count < 3) (t : List UInt8) :
    requestNumWrites cs ds (x ++ t) s = requestNumWrites cs ds x s ++
      match requestParseLoop cs ds x s with
      | some (.done u) => requestNumWrites cs ds t u
      | _ => [] := by
  induction x generalizing s with
  | nil => rfl
  | cons b x ih =>
    obtain ⟨hb, hx⟩ := not_or.mp (mt List.mem_cons.mpr hx)
    rw [List.cons_append, requestNumWrites, requestNumWrites, requestParseLoop]
    -- a turn that ends the loop ends both lists; any other stays in the block
    rcases requestParseByte_cases cs ds (Ne.symm hb) hc with h | ⟨s', h⟩ | ⟨s', h, hs'⟩
    · simp [h]
    · simp [h]
    · rw [h, List.append_assoc]
      dsimp only
      rw [ih hx (by omega)]

/-- The stores of the loop, one block at a time. -/
theorem requestNumWrites_block {P : ℕ → Prop} {s : RequestParse} (hc : s.block_count < 3)
    (l : List UInt8) :
    (∀ j ∈ requestNumWrites cs ds l s, P j) ↔
      (∀ j ∈ requestNumWrites cs ds (block ACP_DELIMITER_BLOCK 0 l) s, P j) ∧
      ∀ u, requestParseLoop cs ds (block ACP_DELIMITER_BLOCK 0 l) s = some (.done u) →
        ∀ j ∈ requestNumWrites cs ds (l.dropWhile (· ≠ ACP_DELIMITER_BLOCK)).tail
          { u with block_count := u.block_count + 1, j := 0 }, P j := by
  rcases block_cases ACP_DELIMITER_BLOCK l with hx | ⟨x, t, hx, rfl⟩
  · rw [block_zero_self hx, dropWhile_ne_self hx]
    simp [requestNumWrites]
  · rw [block_zero_append hx, dropWhile_ne_append hx, List.tail_cons,
      requestNumWrites_append hx hc, List.forall_mem_append]
    refine and_congr_right fun _ => ?_
    have hcr (u : RequestParse) : requestNumWrites cs ds (ACP_DELIMITER_BLOCK :: t) u =
        requestNumWrites cs ds t { u with block_count := u.block_count + 1, j := 0 } := by
      simp [requestNumWrites, requestNumIndex, requestParseByte]
    rcases requestParseLoop cs ds x s with _ | turn
    · simp
    · cases turn <;> simp [hcr]

/-- Outside block 2 nothing is stored into `id_str`. -/
theorem requestNumWrites_other {l : List UInt8} {s : RequestParse}
    (h : (s.block_count < 2 ∧ ACP_DELIMITER_BLOCK ∉ l) ∨ 3 ≤ s.block_count) :
    requestNumWrites cs ds l s = [] := by
  induction l generalizing s with
  | nil => rfl
  | cons b l ih =>
    have hne : s.block_count ≠ 2 := by omega
    rw [requestNumWrites, requestNumIndex, if_neg (by simp [hne]), Option.toList_none,
      List.nil_append]
    rcases h with ⟨hc, hx⟩ | hc
    -- in front of block 2, as far as the delimiter
    · obtain ⟨hb, hx⟩ := not_or.mp (mt List.mem_cons.mpr hx)
      rcases requestParseByte_cases cs ds (s := s) (Ne.symm hb) (by omega) with
        h | ⟨s', h⟩ | ⟨s', h, hs'⟩
      · rw [h]
      · rw [h]
      · rw [h]
        exact ih (Or.inl ⟨by omega, hx⟩)
    -- behind it, where only a delimiter lets the loop go on
    · by_cases hb : b = ACP_DELIMITER_BLOCK
      · rw [requestParseByte, if_pos hb]
        exact ih (Or.inr (Nat.le_succ_of_le hc))
      · obtain ⟨n, hn⟩ := Nat.exists_eq_add_of_le' hc
        simp [requestParseByte, hb, hn]

theorem requestNumWrites_id {x : List UInt8} (hx : ACP_DELIMITER_BLOCK ∉ x)
    {cmd data str : List UInt8} {j : ℕ} (hj : j ≤ ACP_NUM_STR_LENGTH - 1) :
    (∀ i ∈ requestNumWrites cs ds x ⟨cmd, data, 2, j, str⟩, i < ACP_NUM_STR_LENGTH - 1) ↔
      j + (x.takeWhile isdigit).length ≤ ACP_NUM_STR_LENGTH - 1 := by
  refine forall_stored_lt (requestNumWrites cs ds) (fun a j => ⟨cmd, data, 2, j, a⟩)
    (fun _ _ => rfl) (fun b x a j hb hd hlt => ?_) (fun b x a j hb hd => ?_)
    (fun b x a j hb hd => ?_) hx hj
  -- a digit that fits, a digit that does not, and a byte that is no digit
  · have hput : putNum a j b = some (a.set j b) := if_pos (by omega)
    rw [requestNumWrites, requestParseByte_id hb, hd, hput]
    simp [requestNumIndex, hb, hd]
  · rw [requestNumWrites]
    simp [requestNumIndex, hb, hd]
  · rw [requestNumWrites, requestParseByte_id hb]
    simp [requestNumIndex, hd]

theorem requestNumWrites_iff {cmd data str l : List UInt8} (hcmd : cs ≤ cmd.length)
    (hdata : ds ≤ data.length) (hstr : str.length = ACP_NUM_STR_LENGTH) :
    (∀ j ∈ requestNumWrites cs ds l ⟨cmd, data, 0, 0, str⟩, j < ACP_NUM_STR_LENGTH - 1) ↔
      ((block ACP_DELIMITER_BLOCK 0 l).length ≤ cs → (block ACP_DELIMITER_BLOCK 1 l).length ≤ ds →
        ((block ACP_DELIMITER_BLOCK 2 l).takeWhile isdigit).length ≤ ACP_NUM_STR_LENGTH - 1) := by
  -- block 0 stores no digit, and the loop passes it if the command fits
  rw [requestNumWrites_block (by simp),
    requestNumWrites_other (Or.inl ⟨by simp, not_mem_block _ _ _⟩)]
  simp only [requestParseLoop_cmd (not_mem_block _ _ _) (Nat.zero_le _) hcmd, Nat.zero_add,
    and_imp, forall_eq_apply_imp_iff, List.not_mem_nil, false_implies, implies_true, true_and]
  refine imp_congr_right fun h₀ => ?_
  -- and so does block 1, with the data
  rw [requestNumWrites_block (by simp),
    requestNumWrites_other (Or.inl ⟨by simp, not_mem_block _ _ _⟩)]
  simp only [requestParseLoop_data (not_mem_block _ _ _) (Nat.zero_le _) hdata, Nat.zero_add,
    and_imp, forall_eq_apply_imp_iff, List.not_mem_nil, false_implies, implies_true, true_and]
  refine imp_congr_right fun h₁ => ?_
  rw [requestNumWrites_block (by simp), requestNumWrites_id (not_mem_block _ _ _) (Nat.zero_le _),
    Nat.zero_add, and_iff_left]
  · rfl
  -- nothing is stored behind block 2
  · intro u hu
    obtain ⟨-, -, rfl⟩ := (requestParseLoop_id (not_mem_block _ _ _) (Nat.zero_le _) hstr).mp hu
    rw [requestNumWrites_other (Or.inr (by simp))]
    simp

end Regonf
