import Mathlib.Data.List.TakeWhile
import Regonf.AcpNumbers
import Regonf.AcpWire

/-! The stores of `acp_responseParse` into its number strings, and when both parsers refuse a
number that is too long. -/
namespace Regonf

open Blocks

variable {ds : ℕ}

theorem responseNumWrites_append {x : List UInt8} (hx : ACP_DELIMITER_BLOCK ∉ x)
    {s : ResponseParse} (hc : s.block_count < 3) (t : List UInt8) :
    responseNumWrites ds (x ++ t) s = responseNumWrites ds x s ++
      match responseParseLoop ds x s with
      | some (.done u) => responseNumWrites ds t u
      | _ => [] := by
  induction x generalizing s with
  | nil => rfl
  | cons b x ih =>
    obtain ⟨hb, hx⟩ := not_or.mp (mt List.mem_cons.mpr hx)
    rw [List.cons_append, responseNumWrites, responseNumWrites, responseParseLoop]
    rcases responseParseByte_cases ds (Ne.symm hb) hc with h | ⟨s', h⟩ | ⟨s', h, hs'⟩
    · simp [h]
    · simp [h]
    · rw [h, List.append_assoc]
      dsimp only
      rw [ih hx (by omega)]

/-- The stores of the loop, one block at a time. -/
theorem responseNumWrites_block {P : ℕ → Prop} {s : ResponseParse} (hc : s.block_count < 3)
    (l : List UInt8) :
    (∀ j ∈ responseNumWrites ds l s, P j) ↔
      (∀ j ∈ responseNumWrites ds (block ACP_DELIMITER_BLOCK 0 l) s, P j) ∧
      ∀ u, responseParseLoop ds (block ACP_DELIMITER_BLOCK 0 l) s = some (.done u) →
        ∀ j ∈ responseNumWrites ds (l.dropWhile (· ≠ ACP_DELIMITER_BLOCK)).tail
          { u with block_count := u.block_count + 1, j := 0 }, P j := by
  rcases block_cases ACP_DELIMITER_BLOCK l with hx | ⟨x, t, hx, rfl⟩
  · rw [block_zero_self hx, dropWhile_ne_self hx]
    simp [responseNumWrites]
  · rw [block_zero_append hx, dropWhile_ne_append hx, List.tail_cons,
      responseNumWrites_append hx hc, List.forall_mem_append]
    refine and_congr_right fun _ => ?_
    have hcr (u : ResponseParse) : responseNumWrites ds (ACP_DELIMITER_BLOCK :: t) u =
        responseNumWrites ds t { u with block_count := u.block_count + 1, j := 0 } := by
      simp [responseNumWrites, responseNumIndex, responseParseByte]
    rcases responseParseLoop ds x s with _ | turn
    · simp
    · cases turn <;> simp [hcr]

/-- Outside the blocks 0 and 2 nothing is stored into a number string. -/
theorem responseNumWrites_other {l : List UInt8} {s : ResponseParse}
    (h : (s.block_count = 1 ∧ ACP_DELIMITER_BLOCK ∉ l) ∨ 3 ≤ s.block_count) :
    responseNumWrites ds l s = [] := by
  induction l generalizing s with
  | nil => rfl
  | cons b l ih =>
    have hne : ¬(s.block_count = 0 ∨ s.block_count = 2) := by omega
    rw [responseNumWrites, responseNumIndex, if_neg (by simp [hne]), Option.toList_none,
      List.nil_append]
    rcases h with ⟨hc, hx⟩ | hc
    · obtain ⟨hb, hx⟩ := not_or.mp (mt List.mem_cons.mpr hx)
      rcases responseParseByte_cases ds (s := s) (Ne.symm hb) (by omega) with
        h | ⟨s', h⟩ | ⟨s', h, hs'⟩
      · rw [h]
      · rw [h]
      · rw [h]
        exact ih (Or.inl ⟨by omega, hx⟩)
    · by_cases hb : b = ACP_DELIMITER_BLOCK
      · rw [responseParseByte, if_pos hb]
        exact ih (Or.inr (Nat.le_succ_of_le hc))
      · obtain ⟨n, hn⟩ := Nat.exists_eq_add_of_le' hc
        simp [responseParseByte, hb, hn]

theorem responseNumWrites_id {x : List UInt8} (hx : ACP_DELIMITER_BLOCK ∉ x)
    {data seq id inl : List UInt8} {f1 : Bool} {j : ℕ} (hj : j ≤ ACP_NUM_STR_LENGTH - 1) :
    (∀ i ∈ responseNumWrites ds x ⟨data, 2, j, f1, seq, id, inl⟩, i < ACP_NUM_STR_LENGTH - 1) ↔
      j + (x.takeWhile isdigit).length ≤ ACP_NUM_STR_LENGTH - 1 := by
  refine forall_stored_lt (responseNumWrites ds) (fun a j => ⟨data, 2, j, f1, seq, a, inl⟩)
    (fun _ _ => rfl) (fun b x a j hb hd hlt => ?_) (fun b x a j hb hd => ?_)
    (fun b x a j hb hd => ?_) hx hj
  · have hput : putNum a j b = some (a.set j b) := if_pos (by omega)
    rw [responseNumWrites, responseParseByte_id hb, hd, hput]
    simp [responseNumIndex, hb, hd]
  · rw [responseNumWrites]
    simp [responseNumIndex, hb, hd]
  · rw [responseNumWrites, responseParseByte_id hb]
    simp [responseNumIndex, hd]

/-- The bytes that the loop goes on with in block 0. -/
def isNumByte (b : UInt8) : Bool := isdigit b || b == ACP_DELIMITER_COLUMN

/-- The runs of digits in the part of block 0 that the loop reads, between the tabs. -/
def numberRuns (x : List UInt8) : List (List UInt8) :=
  (x.takeWhile isNumByte).splitOn ACP_DELIMITER_COLUMN

theorem numberRuns_ne_nil (x : List UInt8) : numberRuns x ≠ [] := List.splitOn_ne_nil _ _

theorem numberRuns_column (x : List UInt8) :
    numberRuns (ACP_DELIMITER_COLUMN :: x) = [] :: numberRuns x := by
  rw [numberRuns, List.takeWhile_cons_of_pos (by decide), List.splitOn_cons_eq_if_modifyHead,
    if_pos (by decide)]
  rfl

theorem numberRuns_digit {b : UInt8} (hb : isdigit b = true) {x f : List UInt8}
    {fs : List (List UInt8)} (h : numberRuns x = f :: fs) :
    numberRuns (b :: x) = (b :: f) :: fs := by
  have hne : (b == ACP_DELIMITER_COLUMN) = false := by
    apply beq_false_of_ne
    rintro rfl
    exact absurd hb (by decide)
  unfold numberRuns at h ⊢
  rw [List.takeWhile_cons_of_pos (by simp [isNumByte, hb]), List.splitOn_cons_eq_if_modifyHead,
    hne, h]
  rfl

theorem responseNumWrites_head {x : List UInt8} (hx : ACP_DELIMITER_BLOCK ∉ x)
    {data seq id inl : List UInt8} {f1 : Bool} {j : ℕ} (hj : j ≤ ACP_NUM_STR_LENGTH - 1)
    {f : List UInt8} {fs : List (List UInt8)} (hf : numberRuns x = f :: fs) :
    (∀ i ∈ responseNumWrites ds x ⟨data, 0, j, f1, seq, id, inl⟩, i < ACP_NUM_STR_LENGTH - 1) ↔
      j + f.length ≤ ACP_NUM_STR_LENGTH - 1 ∧ ∀ g ∈ fs, g.length ≤ ACP_NUM_STR_LENGTH - 1 := by
  induction x generalizing j f1 seq inl f fs with
  | nil =>
    have he : [[]] = f :: fs := hf
    cases he
    simpa [responseNumWrites] using hj
  | cons b x ih =>
    obtain ⟨hb, hx'⟩ := not_or.mp (mt List.mem_cons.mpr hx)
    obtain ⟨g, gs, hg⟩ := List.exists_cons_of_ne_nil (numberRuns_ne_nil x)
    rw [responseNumWrites, responseParseByte_head (Ne.symm hb)]
    by_cases ht : b = ACP_DELIMITER_COLUMN
    · -- the tab ends the run, and the index starts again
      subst ht
      rw [numberRuns_column, hg] at hf
      cases hf
      rw [if_pos rfl, responseNumIndex, if_neg fun h => absurd h.2.2 (by decide),
        Option.toList_none, List.nil_append]
      rw [ih hx' (Nat.zero_le _) hg, List.forall_mem_cons, Nat.zero_add, List.length_nil]
      exact (and_iff_right hj).symm
    rw [if_neg ht]
    by_cases hd : isdigit b = true
    · rw [numberRuns_digit hd hg] at hf
      cases hf
      rw [responseNumIndex, if_pos ⟨Ne.symm hb, Or.inl rfl, hd⟩, Option.toList_some,
        List.forall_mem_append, List.forall_mem_singleton, hd, List.length_cons]
      by_cases hlt : j < ACP_NUM_STR_LENGTH - 1
      · have hput (a : List UInt8) : putNum a j b = some (a.set j b) := if_pos (by omega)
        cases f1 <;>
          simp only [hput, Bool.not_true, Bool.false_eq_true, ↓reduceIte, Option.map_some, hlt,
            true_and] <;>
          rw [ih hx' (show j + 1 ≤ _ by omega) hg] <;>
          rw [Nat.add_assoc, Nat.add_comm 1]
      · simp only [hlt, false_and, false_iff, not_and]
        omega
    · have he : numberRuns (b :: x) = [[]] := by
        rw [numberRuns, List.takeWhile_cons_of_neg (by simp [isNumByte, hd, ht])]
        rfl
      rw [he] at hf
      cases hf
      simpa [responseNumIndex, hd] using hj

/-- On number bytes the loop does not fail. -/
theorem responseParseLoop_numBytes (ds : ℕ) {x : List UInt8} (hx : ∀ b ∈ x, isNumByte b = true)
    {s : ResponseParse} (hc : s.block_count = 0) :
    responseParseLoop ds x s = none ∨ ∃ u, responseParseLoop ds x s = some (.done u) := by
  induction x generalizing s with
  | nil => exact Or.inr ⟨s, rfl⟩
  | cons b x ih =>
    obtain ⟨hb, hx⟩ := List.forall_mem_cons.mp hx
    obtain ⟨data, n, j, f1, seq, id, inl⟩ := s
    dsimp only at hc
    subst hc
    have hne : b ≠ ACP_DELIMITER_BLOCK := by
      rintro rfl
      exact absurd hb (by decide)
    rw [responseParseLoop, responseParseByte_head hne]
    by_cases ht : b = ACP_DELIMITER_COLUMN
    · rw [if_pos ht]
      exact ih hx rfl
    have hd : isdigit b = true := by simpa [isNumByte, ht] using hb
    rw [if_neg ht, hd, putNum, putNum]
    by_cases hj : j < ACP_NUM_STR_LENGTH
    · rw [if_pos hj, if_pos hj]
      cases f1 <;> exact ih hx rfl
    · rw [if_neg hj, if_neg hj]
      cases f1 <;> exact Or.inl rfl

theorem responseNumWrites_iff {data seq id inl l : List UInt8} (hdata : ds ≤ data.length)
    (hseq : Terminated seq) (hinl : Terminated inl) (hid : Terminated id) :
    (∀ j ∈ responseNumWrites ds l ⟨data, 0, 0, false, seq, id, inl⟩,
      j < ACP_NUM_STR_LENGTH - 1) ↔
      (∀ f ∈ numberRuns (block ACP_DELIMITER_BLOCK 0 l), f.length ≤ ACP_NUM_STR_LENGTH - 1) ∧
      ((∀ b ∈ block ACP_DELIMITER_BLOCK 0 l, isNumByte b = true) →
        (block ACP_DELIMITER_BLOCK 1 l).length ≤ ds →
        ((block ACP_DELIMITER_BLOCK 2 l).takeWhile isdigit).length ≤ ACP_NUM_STR_LENGTH - 1) := by
  have hrest {u : ResponseParse}
      (hu : u = ⟨data, 0, u.j, u.f1, u.seq_str, id, u.inl_str⟩) :
      (∀ j ∈ responseNumWrites ds (l.dropWhile (· ≠ ACP_DELIMITER_BLOCK)).tail
          { u with block_count := u.block_count + 1, j := 0 }, j < ACP_NUM_STR_LENGTH - 1) ↔
        ((block ACP_DELIMITER_BLOCK 1 l).length ≤ ds →
          ((block ACP_DELIMITER_BLOCK 2 l).takeWhile isdigit).length ≤
            ACP_NUM_STR_LENGTH - 1) := by
    rw [hu]
    dsimp only
    rw [responseNumWrites_block (by simp),
      responseNumWrites_other (Or.inl ⟨by simp, not_mem_block _ _ _⟩)]
    simp only [Nat.zero_add, responseParseLoop_data (not_mem_block _ _ _) (Nat.zero_le _) hdata,
      and_imp, forall_eq_apply_imp_iff, List.not_mem_nil, false_implies, implies_true, true_and]
    refine imp_congr_right fun h₁ => ?_
    rw [responseNumWrites_block (by simp),
      responseNumWrites_id (not_mem_block _ _ _) (Nat.zero_le _), Nat.zero_add, and_iff_left]
    · rfl
    · intro u hu
      obtain ⟨-, -, rfl⟩ :=
        (responseParseLoop_id (not_mem_block _ _ _) (Nat.zero_le _) hid.1).mp hu
      rw [responseNumWrites_other (Or.inr (by simp))]
      simp
  obtain ⟨f, fs, hf⟩ := List.exists_cons_of_ne_nil
    (numberRuns_ne_nil (block ACP_DELIMITER_BLOCK 0 l))
  have hhead : (∀ i ∈ responseNumWrites ds (block ACP_DELIMITER_BLOCK 0 l)
      ⟨data, 0, 0, false, seq, id, inl⟩, i < ACP_NUM_STR_LENGTH - 1) ↔ _ :=
    responseNumWrites_head (not_mem_block _ _ _) (Nat.zero_le _) hf
  rw [responseNumWrites_block (by simp), hf, List.forall_mem_cons, hhead, Nat.zero_add]
  refine and_congr_right fun hfit => ?_
  constructor
  · intro h hnum
    -- the strings still end in their NUL, so the loop runs through block 0
    obtain ⟨turn, ht, -⟩ := responseParseLoop_safe (s := ⟨data, 0, 0, false, seq, id, inl⟩)
      ⟨hseq, hinl, hid⟩ (hhead.mpr (by rw [Nat.zero_add]; exact hfit))
    rcases responseParseLoop_numBytes ds hnum (s := ⟨data, 0, 0, false, seq, id, inl⟩) rfl with
      hn | ⟨u, hu⟩
    · rw [hn] at ht
      cases ht
    · exact (hrest (responseParseLoop_head (not_mem_block _ _ _) hu).2).mp (h u hu)
  · intro h u hu
    obtain ⟨hb, hu'⟩ := responseParseLoop_head (not_mem_block _ _ _) hu
    refine (hrest hu').mpr (h fun b hmem => ?_)
    rcases hb b hmem with hd | ht
    · simp [isNumByte, hd]
    · simp [isNumByte, ht]

/-- The stores of one call of `acp_requestParse` into its number string. -/
def acpRequestNumWrites (item : ACPRequest) : List ℕ :=
  if (item.buf.takeWhile (· ≠ 0)).length < ACP_REQUEST_BUF_SIZE_MIN then []
  else requestNumWrites item.cmd_size item.data_size (item.buf.take item.buf_size)
    ⟨item.cmd, item.data, 0, 0, List.replicate ACP_NUM_STR_LENGTH 0⟩

/-- The stores of one call of `acp_responseParse` into its number strings. -/
def acpResponseNumWrites (item : ACPResponse) : List ℕ :=
  let str := List.replicate ACP_NUM_STR_LENGTH 0
  if (item.buf.takeWhile (· ≠ 0)).length < ACP_RESPONSE_BUF_SIZE_MIN then []
  else responseNumWrites item.data_size (item.buf.take item.buf_size)
    ⟨item.data, 0, 0, false, str, str, str⟩

/-- The number of a request is stored in front of the last byte of its string, and a request
with a longer one is refused. -/
def RequestNumbersFit (item : ACPRequest) : Prop :=
  (∀ j ∈ acpRequestNumWrites item, j < ACP_NUM_STR_LENGTH - 1) ∧
  (ACP_NUM_STR_LENGTH - 1 < (block ACP_DELIMITER_BLOCK 2 item.buf).length →
    ∃ item', acpRequestParse item = some (false, item'))

/-- The same for the three numbers of a response: the id is block 2, the sequence number and
the flag stand between the tabs of block 0. -/
def ResponseNumbersFit (item : ACPResponse) : Prop :=
  (∀ j ∈ acpResponseNumWrites item, j < ACP_NUM_STR_LENGTH - 1) ∧
  ((∃ f ∈ block ACP_DELIMITER_BLOCK 2 item.buf ::
      (block ACP_DELIMITER_BLOCK 0 item.buf).splitOn ACP_DELIMITER_COLUMN,
      ACP_NUM_STR_LENGTH - 1 < f.length) →
    ∃ item', acpResponseParse item = some (false, item'))

theorem requestNumbersFit_iff {item : ACPRequest} (hcmd : item.cmd_size ≤ item.cmd.length)
    (hdata : item.data_size ≤ item.data.length) (hbuf : item.buf.length ≤ item.buf_size) :
    RequestNumbersFit item ↔
      (item.buf.takeWhile (· ≠ 0)).length < ACP_REQUEST_BUF_SIZE_MIN ∨
      item.cmd_size < (block ACP_DELIMITER_BLOCK 0 item.buf).length ∨
      item.data_size < (block ACP_DELIMITER_BLOCK 1 item.buf).length ∨
      ((block ACP_DELIMITER_BLOCK 2 item.buf).takeWhile isdigit).length ≤
        ACP_NUM_STR_LENGTH - 1 := by
  unfold RequestNumbersFit acpRequestNumWrites
  rw [List.take_of_length_le hbuf]
  by_cases hmin : (item.buf.takeWhile (· ≠ 0)).length < ACP_REQUEST_BUF_SIZE_MIN
  · rw [if_pos hmin]
    refine iff_of_true ⟨by simp, fun _ => ⟨item, ?_⟩⟩ (Or.inl hmin)
    rw [acpRequestParse, if_pos hmin]
  rw [if_neg hmin, requestNumWrites_iff hcmd hdata List.length_replicate, or_iff_right hmin]
  constructor
  · rintro ⟨h, -⟩
    by_cases h₀ : (block ACP_DELIMITER_BLOCK 0 item.buf).length ≤ item.cmd_size
    · by_cases h₁ : (block ACP_DELIMITER_BLOCK 1 item.buf).length ≤ item.data_size
      · exact Or.inr (Or.inr (h h₀ h₁))
      · exact Or.inr (Or.inl (not_le.mp h₁))
    · exact Or.inl (not_le.mp h₀)
  · intro h
    have hfit : (block ACP_DELIMITER_BLOCK 0 item.buf).length ≤ item.cmd_size →
        (block ACP_DELIMITER_BLOCK 1 item.buf).length ≤ item.data_size →
        ((block ACP_DELIMITER_BLOCK 2 item.buf).takeWhile isdigit).length ≤
          ACP_NUM_STR_LENGTH - 1 := by
      intro h₀ h₁
      exact (h.resolve_left (not_lt.mpr h₀)).resolve_left (not_lt.mpr h₁)
    refine ⟨hfit, fun hlong => ?_⟩
    obtain ⟨turn, ht, hs⟩ := requestParseLoop_safe
      (s := ⟨item.cmd, item.data, 0, 0, List.replicate ACP_NUM_STR_LENGTH 0⟩) terminated_zeros
      ((requestNumWrites_iff hcmd hdata List.length_replicate).mpr hfit)
    -- it is defined, and what is accepted has a short number
    rcases hp : acpRequestParse item with _ | ⟨_ | _, item'⟩
    · rw [acpRequestParse, if_neg hmin, List.take_of_length_le hbuf, ht] at hp
      obtain ⟨str, hstr⟩ := hs.cString
      cases turn <;> simp only [RequestTurn.state] at hstr <;> simp [hstr] at hp
    · exact ⟨item', rfl⟩
    · have hshort := ((acpRequestParse_true hcmd hdata hbuf).mp hp).2.2.2.2.1
      omega

theorem responseParseNumbers_defined {s : ResponseParse} (hseq : Terminated s.seq_str)
    (hinl : Terminated s.inl_str) (hid : Terminated s.id_str) (item : ACPResponse) :
    ∃ r, responseParseNumbers item s = some r := by
  obtain ⟨seq, hseq⟩ := hseq.cString
  obtain ⟨inl, hinl⟩ := hinl.cString
  obtain ⟨id, hid⟩ := hid.cString
  simp only [responseParseNumbers, hseq, hinl, hid, Option.bind_some]
  split_ifs <;> exact ⟨_, rfl⟩

theorem responseNumbersFit_iff {item : ACPResponse} (hdata : item.data_size ≤ item.data.length)
    (hbuf : item.buf.length ≤ item.buf_size) :
    ResponseNumbersFit item ↔
      (item.buf.takeWhile (· ≠ 0)).length < ACP_RESPONSE_BUF_SIZE_MIN ∨
      (∀ f ∈ numberRuns (block ACP_DELIMITER_BLOCK 0 item.buf),
        f.length ≤ ACP_NUM_STR_LENGTH - 1) ∧
      ((∀ b ∈ block ACP_DELIMITER_BLOCK 0 item.buf, isNumByte b = true) →
        (block ACP_DELIMITER_BLOCK 1 item.buf).length ≤ item.data_size →
        ((block ACP_DELIMITER_BLOCK 2 item.buf).takeWhile isdigit).length ≤
          ACP_NUM_STR_LENGTH - 1) := by
  unfold ResponseNumbersFit acpResponseNumWrites
  rw [List.take_of_length_le hbuf]
  dsimp only
  by_cases hmin : (item.buf.takeWhile (· ≠ 0)).length < ACP_RESPONSE_BUF_SIZE_MIN
  · rw [if_pos hmin]
    refine iff_of_true ⟨by simp, fun _ => ⟨item, ?_⟩⟩ (Or.inl hmin)
    rw [acpResponseParse, if_pos hmin]
  rw [if_neg hmin, or_iff_right hmin,
    ← responseNumWrites_iff hdata terminated_zeros terminated_zeros terminated_zeros]
  refine and_iff_left_of_imp fun h => ?_
  rintro ⟨f, hf, hlong⟩
  obtain ⟨turn, ht, hseq, hinl, hid⟩ :=
    responseParseLoop_safe ⟨terminated_zeros, terminated_zeros, terminated_zeros⟩ h
  obtain ⟨hruns, -⟩ :=
    (responseNumWrites_iff hdata terminated_zeros terminated_zeros terminated_zeros).mp h
  -- it is defined, and what is accepted has short numbers
  have hdef : ∃ r, acpResponseParse item = some r := by
    rw [acpResponseParse, if_neg hmin, List.take_of_length_le hbuf]
    dsimp only
    rw [ht]
    cases turn with
    | fail s => exact ⟨_, rfl⟩
    | next s => exact responseParseNumbers_defined hseq hinl hid item
    | done s => exact responseParseNumbers_defined hseq hinl hid item
  obtain ⟨⟨_ | _, item'⟩, hp⟩ := hdef
  · exact ⟨item', hp⟩
  obtain ⟨-, u, seq, inl, hu, -, -, -, -, -, -, hshort, -, -⟩ :=
    (acpResponseParse_true hdata hbuf).mp hp
  obtain ⟨hnum, -⟩ := responseParseLoop_head (not_mem_block _ _ _) hu
  have hall : (block ACP_DELIMITER_BLOCK 0 item.buf).takeWhile isNumByte =
      block ACP_DELIMITER_BLOCK 0 item.buf := by
    rw [List.takeWhile_eq_self_iff]
    intro b hb
    rcases hnum b hb with hd | ht
    · simp [isNumByte, hd]
    · simp [isNumByte, ht]
  rcases List.mem_cons.mp hf with rfl | hf
  · omega
  · have := hruns f (by rwa [numberRuns, hall])
    omega

/-- The numbers of a packet stay in front of the last byte of their strings, and a packet with a
longer number is refused, when the parsers do not come to the twelfth digit: a run of digits in
block 0 of a response or at the front of block 2 is short, or an earlier block is refused. -/
theorem packet_numbers_fit (item : ACPRequest) (id : UInt32) {buf : List UInt8}
    (hbuf : buf.length ≤ ACP_BUFFER_MAX_SIZE) :
    (RequestNumbersFit { acpRequestInit item with buf := buf } ↔
      (buf.takeWhile (· ≠ 0)).length < ACP_REQUEST_BUF_SIZE_MIN ∨
      ACP_COMMAND_MAX_SIZE < (block ACP_DELIMITER_BLOCK 0 buf).length ∨
      ACP_DATA_MAX_SIZE < (block ACP_DELIMITER_BLOCK 1 buf).length ∨
      ((block ACP_DELIMITER_BLOCK 2 buf).takeWhile isdigit).length ≤ ACP_NUM_STR_LENGTH - 1) ∧
    (ResponseNumbersFit { acpResponseInit id with buf := buf } ↔
      (buf.takeWhile (· ≠ 0)).length < ACP_RESPONSE_BUF_SIZE_MIN ∨
      (∀ f ∈ numberRuns (block ACP_DELIMITER_BLOCK 0 buf), f.length ≤ ACP_NUM_STR_LENGTH - 1) ∧
      ((∀ b ∈ block ACP_DELIMITER_BLOCK 0 buf, isNumByte b = true) →
        (block ACP_DELIMITER_BLOCK 1 buf).length ≤ ACP_DATA_MAX_SIZE →
        ((block ACP_DELIMITER_BLOCK 2 buf).takeWhile isdigit).length ≤
          ACP_NUM_STR_LENGTH - 1)) := by
  constructor
  · exact requestNumbersFit_iff (List.length_replicate).ge (List.length_replicate).ge hbuf
  · exact responseNumbersFit_iff (List.length_replicate).ge hbuf

theorem packet_numbers_fit_example : RequestNumbersFit
    { acpRequestInit blankRequest with
      buf := field ACP_BUFFER_MAX_SIZE [112, 13, 13, 49, 13, 7, 7] } :=
  (packet_numbers_fit blankRequest 0 (by decide +kernel)).1.mpr (by decide +kernel)

/-- The command `pst` with a number of twelve digits. -/
theorem twelve_digits_overrun :
    let text : List UInt8 := packetText [112, 115, 116] [] (List.replicate 12 49)
    let buf := field ACP_BUFFER_MAX_SIZE (text ++ [crcUpdateByStr 0 text])
    acpCrcCheck buf = true ∧
      ¬RequestNumbersFit { acpRequestInit blankRequest with buf := buf } := by
  refine ⟨by decide +kernel, fun h => ?_⟩
  exact absurd h.1 (by decide +kernel)

end Regonf
