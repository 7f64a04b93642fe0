import Regonf.AcpResponse

/-! A packet on the wire: what the packer leaves in the buffer, how many bytes of it are sent,
and what the receiver makes of them. -/
namespace Regonf

open Blocks

/-- A string in a zeroed field of `n` bytes. -/
def field (n : ℕ) (x : List UInt8) : List UInt8 := x ++ List.replicate (n - x.length) 0

theorem length_field {n : ℕ} {x : List UInt8} (h : x.length ≤ n) : (field n x).length = n := by
  simp only [field, List.length_append, List.length_replicate]
  omega

theorem writeAt_replicate (n : ℕ) (x : List UInt8) :
    writeAt (List.replicate n 0) 0 x = field n x := by
  rw [writeAt_zero, List.drop_replicate, field]

theorem cString_field {n : ℕ} {x : List UInt8} (hx : 0 ∉ x) (h : x.length < n) :
    cString (field n x) = some x := by
  rw [← writeAt_replicate, cString_zeros hx, if_pos h]

/-- `strncpy` fills the field, whatever it held. -/
theorem strncpy_field {dst x : List UInt8} {n : ℕ} (hn : dst.length = n) (h : x.length ≤ n) :
    strncpy dst x n = field n x := by
  have ht : (x ++ List.replicate n 0).take n = field n x := by
    rw [List.take_append, List.take_of_length_le h, List.take_replicate,
      Nat.min_eq_left (Nat.sub_le _ _), field]
  rw [strncpy, ht, writeAt_zero, length_field h, ← hn, List.drop_length, List.append_nil]

theorem field_cons {n : ℕ} {x : List UInt8} (h : x.length < n) :
    field n x = x ++ 0 :: List.replicate (n - x.length - 1) 0 := by
  rw [field, ← List.replicate_succ]
  congr 2
  omega

theorem strcat_append {x y r : List UInt8} (hx : 0 ∉ x) (h : y.length ≤ r.length) :
    strcat (x ++ 0 :: r) y = some (x ++ y ++ 0 :: r.drop y.length) := by
  rw [strcat, cString_append hx, Option.bind_some, if_pos (by simp; omega), writeAt,
    List.take_left, List.drop_append, List.drop_of_length_le (Nat.le_add_right _ _),
    List.length_append, List.length_singleton]
  simp

theorem strcat_field {n : ℕ} {x y : List UInt8} (hx : 0 ∉ x) (h : x.length + y.length < n) :
    strcat (field n x) y = some (field n (x ++ y)) := by
  rw [field_cons (by omega), strcat_append hx (by rw [List.length_replicate]; omega),
    List.drop_replicate, field_cons (by rw [List.length_append]; omega), List.length_append]
  congr 4
  omega

/-- `acp_requestStrCat` and `acp_responseStrCat` on a field: a string is appended if two bytes
remain free behind it. -/
theorem dataStrCat_field {n : ℕ} {x y : List UInt8} (hx : 0 ∉ x) (h : x.length < n) :
    dataStrCat (field n x) n y = if x.length + y.length + 1 ≥ n then some (false, field n x)
      else some (true, field n (x ++ y)) := by
  rw [dataStrCat, cString_field hx h, Option.bind_some]
  split_ifs with hl
  · rfl
  · rw [strcat_field hx (by omega), Option.map_some]

/-- What the packer leaves in a buffer that has room for the text and two bytes: the text, its
CRC, and a NUL behind a CRC that is not 0 itself. -/
theorem packText_eq {buf text : List UInt8} (h₀ : 0 ∉ text) (hl : text.length + 2 ≤ buf.length)
    (crc : UInt8) :
    ∃ b t, packText buf buf.length crc text =
        some (text ++ crcUpdateByStr crc text :: b :: t, crcUpdateByStr crc text) ∧
      text.length + 2 + t.length = buf.length ∧ (crcUpdateByStr crc text ≠ 0 → b = 0) := by
  have hsn : snprintf buf buf.length text = text ++ 0 :: buf.drop (text.length + 1) := by
    rw [snprintf, List.take_of_length_le (by omega), writeAt_zero, List.length_append,
      List.length_singleton, List.append_assoc, List.singleton_append]
  unfold packText
  dsimp only
  rw [hsn, cString_append h₀, Option.bind_some]
  by_cases hc : crcUpdateByStr crc text = 0
  -- the CRC is the NUL of the text, and the byte behind it is what the buffer held there
  · obtain ⟨b, t, ht⟩ : ∃ b t, buf.drop (text.length + 1) = b :: t :=
      List.exists_cons_of_length_pos (by rw [List.length_drop]; omega)
    have hlen := congrArg List.length ht
    rw [List.length_drop, List.length_cons] at hlen
    refine ⟨b, t, ?_, by omega, fun h => absurd hc h⟩
    rw [if_pos hc, strcat_append h₀ (Nat.zero_le _), hc, ht]
    simp
  · refine ⟨0, buf.drop (text.length + 2), ?_, ?_, fun _ => rfl⟩
    · rw [if_neg hc, strcat_append h₀ (by simp; omega)]
      simp
    · rw [List.length_drop]
      omega

theorem acpPacklenFrom_block {x : List UInt8} (hx : ACP_DELIMITER_BLOCK ∉ x) {k : ℕ} (hk : k < 3)
    (n : ℕ) (t : List UInt8) :
    acpPacklenFrom k n (x ++ ACP_DELIMITER_BLOCK :: t) =
      acpPacklenFrom (k + 1) (n + (x.length + 1)) t := by
  -- the three states that wait for a delimiter do the same
  have hbyte (b : UInt8) (n : ℕ) (bs : List UInt8) : acpPacklenFrom k n (b :: bs) =
      acpPacklenFrom (if b = ACP_DELIMITER_BLOCK then k + 1 else k) (n + 1) bs := by
    match k, hk with
    | 0, _ | 1, _ | 2, _ => rfl
  induction x generalizing n with
  | nil => rw [List.nil_append, hbyte, if_pos rfl, List.length_nil]
  | cons b x ih =>
    obtain ⟨hb, hx⟩ := not_or.mp (mt List.mem_cons.mpr hx)
    rw [List.cons_append, hbyte, if_neg (Ne.symm hb), ih hx, List.length_cons]
    congr 1
    omega

theorem length_packetText (x₀ x₁ x₂ : List UInt8) :
    (packetText x₀ x₁ x₂).length = x₀.length + x₁.length + x₂.length + 3 := by
  simp only [packetText, List.length_append, List.length_cons, List.length_nil]
  omega

/-- The CRC byte and the byte behind it are sent, whatever they are. -/
theorem acpPacklen_packet {x₀ x₁ x₂ : List UInt8} (h₀ : ACP_DELIMITER_BLOCK ∉ x₀)
    (h₁ : ACP_DELIMITER_BLOCK ∉ x₁) (h₂ : ACP_DELIMITER_BLOCK ∉ x₂) (c b : UInt8)
    (t : List UInt8) :
    acpPacklen (packetText x₀ x₁ x₂ ++ c :: b :: t) = (packetText x₀ x₁ x₂).length + 2 := by
  rw [packetText_append, acpPacklen, acpPacklenFrom_block h₀ (by decide),
    acpPacklenFrom_block h₁ (by decide), acpPacklenFrom_block h₂ (by decide), length_packetText]
  simp only [acpPacklenFrom]
  omega

theorem fmtU_digits (n : UInt32) : ∀ b ∈ fmtU n, isdigit b = true := by
  intro b hb
  obtain ⟨h₁, h₂⟩ := Decimal.mem_write hb
  simp [isdigit, h₁, h₂]

theorem length_fmtU (n : UInt32) : (fmtU n).length ≤ 10 :=
  Decimal.length_write_le (by decide) (lt_trans n.toNat_lt (by decide))

theorem length_fmtU_pos (n : UInt32) : 0 < (fmtU n).length :=
  List.length_pos_iff.mpr (Decimal.write_ne_nil _)

theorem digitsVal_fmtU (n : UInt32) : UInt32.ofNat (digitsVal (fmtU n)) = n := by
  have h : digitsVal (fmtU n) = n.toNat := Decimal.read_write n.toNat
  rw [h, UInt32.ofNat_toNat]

theorem not_mem_fmtU (n : UInt32) : ACP_DELIMITER_BLOCK ∉ fmtU n ∧ 0 ∉ fmtU n :=
  ⟨fun h => absurd (fmtU_digits n _ h) (by decide), not_mem_of_isdigit (fmtU_digits n)⟩

theorem not_mem_packetText {x₀ x₁ x₂ : List UInt8} (h₀ : 0 ∉ x₀) (h₁ : 0 ∉ x₁) (h₂ : 0 ∉ x₂) :
    0 ∉ packetText x₀ x₁ x₂ := by
  simp [packetText, h₀, h₁, h₂, ACP_DELIMITER_BLOCK]

/-- A datagram that fits into a zeroed buffer. -/
theorem recvInto_zeros {n : ℕ} {d : Datagram} (h : d.bytes.length ≤ n) :
    recvInto (List.replicate n 0) d = field n d.bytes := by
  rw [recvInto, List.length_replicate, List.take_of_length_le h, List.drop_replicate, field]

theorem le_length_takeWhile {p : List UInt8} (h₀ : 0 ∉ p) (t : List UInt8) :
    p.length ≤ ((p ++ t).takeWhile (· ≠ 0)).length := by
  have hne : ∀ b ∈ p, (fun b : UInt8 => decide (b ≠ 0)) b = true := by
    intro b hb
    have : b ≠ 0 := fun h => h₀ (h ▸ hb)
    exact decide_eq_true this
  rw [List.takeWhile_append_of_pos hne, List.length_append]
  exact Nat.le_add_right _ _

section
variable {x₀ x₁ x₂ : List UInt8} (h₀ : ACP_DELIMITER_BLOCK ∉ x₀) (h₁ : ACP_DELIMITER_BLOCK ∉ x₁)
  (h₂ : ACP_DELIMITER_BLOCK ∉ x₂) (t : List UInt8)
include h₀

theorem block_zero_packet :
    block ACP_DELIMITER_BLOCK 0 (packetText x₀ x₁ x₂ ++ t) = x₀ := by
  rw [packetText_append, block_zero_append h₀]

include h₁

theorem block_one_packet :
    block ACP_DELIMITER_BLOCK 1 (packetText x₀ x₁ x₂ ++ t) = x₁ := by
  rw [packetText_append, block_succ_append h₀, block_zero_append h₁]

include h₂

theorem block_two_packet :
    block ACP_DELIMITER_BLOCK 2 (packetText x₀ x₁ x₂ ++ t) = x₂ := by
  rw [packetText_append, block_succ_append h₀, block_succ_append h₁, block_zero_append h₂]

end

/-- The bytes that are sent of a packet: its text, the CRC and the byte behind it. -/
def sentBytes (text : List UInt8) (b : UInt8) : List UInt8 := text ++ [crcUpdateByStr 0 text, b]

theorem take_sentBytes (text : List UInt8) (b : UInt8) (t : List UInt8) :
    (text ++ crcUpdateByStr 0 text :: b :: t).take (text.length + 2) = sentBytes text b := by
  rw [List.take_append, List.take_of_length_le (by omega), Nat.add_sub_cancel_left]
  rfl

theorem sendBuf_all (buf : List UInt8) : sendBuf buf sendtoAll = buf.length := by
  unfold sendBuf sendtoAll
  exact if_neg (not_lt.mpr (Int.natCast_nonneg _))

theorem length_sentBytes (text : List UInt8) (b : UInt8) :
    (sentBytes text b).length = text.length + 2 := by
  simp [sentBytes]

theorem acpSendBuf_packet {x₀ x₁ x₂ : List UInt8} (h₀ : ACP_DELIMITER_BLOCK ∉ x₀)
    (h₁ : ACP_DELIMITER_BLOCK ∉ x₁) (h₂ : ACP_DELIMITER_BLOCK ∉ x₂) (b : UInt8)
    (t : List UInt8) :
    acpSendBuf (packetText x₀ x₁ x₂ ++ crcUpdateByStr 0 (packetText x₀ x₁ x₂) :: b :: t) sendtoAll =
      ((((packetText x₀ x₁ x₂).length + 2 : ℕ) : ℤ), sentBytes (packetText x₀ x₁ x₂) b) := by
  unfold acpSendBuf
  dsimp only
  rw [acpPacklen_packet h₀ h₁ h₂, take_sentBytes, sendBuf_all, length_sentBytes]

/-- `acp_sendBuf` on a buffer that a packet has been packed into. -/
theorem acpSendBuf_packed {x₀ x₁ x₂ buf : List UInt8} {buf_size : ℕ}
    (h₀ : ACP_DELIMITER_BLOCK ∉ x₀) (h₁ : ACP_DELIMITER_BLOCK ∉ x₁)
    (h₂ : ACP_DELIMITER_BLOCK ∉ x₂) {b : UInt8} {t : List UInt8}
    (hbuf : buf = packetText x₀ x₁ x₂ ++ crcUpdateByStr 0 (packetText x₀ x₁ x₂) :: b :: t)
    (hlen : (packetText x₀ x₁ x₂).length + 2 + t.length = ACP_BUFFER_MAX_SIZE)
    (hsize : buf_size = ACP_BUFFER_MAX_SIZE) :
    acpSendBuf (buf.take buf_size) sendtoAll =
      ((((packetText x₀ x₁ x₂).length + 2 : ℕ) : ℤ), sentBytes (packetText x₀ x₁ x₂) b) := by
  have htake : buf.take buf_size = buf := by
    refine List.take_of_length_le ?_
    rw [hbuf, hsize, ← hlen]
    simp only [List.length_append, List.length_cons]
    omega
  rw [htake, hbuf, acpSendBuf_packet h₀ h₁ h₂]

/-- The request that a server makes of a packet. -/
def receivedRequest (srv : ACPRequest) (cmd data : List UInt8) (id : UInt32) (b : UInt8) :
    ACPRequest :=
  { acpCountDataRows { acpRequestInit srv with
      buf := field ACP_BUFFER_MAX_SIZE (sentBytes (packetText cmd data (fmtU id)) b)
      cmd := field ACP_COMMAND_MAX_SIZE cmd, data := field ACP_DATA_MAX_SIZE data } with
    id := id }

/-- A server accepts a packet with a correct CRC, and gets its blocks. -/
theorem acpRequestRead_packet (cmd data : List UInt8) (id : UInt32)
    (hc : ACP_DELIMITER_BLOCK ∉ cmd ∧ 0 ∉ cmd) (hd : ACP_DELIMITER_BLOCK ∉ data ∧ 0 ∉ data)
    (hcl : cmd.length ≤ ACP_COMMAND_MAX_SIZE) (hdl : data.length ≤ ACP_DATA_MAX_SIZE)
    (hmin : 3 ≤ cmd.length + data.length) (srv : ACPRequest) (peer : Peer) (src : SockAddr)
    (b : UInt8) :
    acpRequestRead (acpRequestInit srv) peer
        (some ⟨src, sentBytes (packetText cmd data (fmtU id)) b⟩) =
      some (true, receivedRequest srv cmd data id b, ⟨src⟩) := by
  obtain ⟨hi, hi₀⟩ := not_mem_fmtU id
  have hidl := length_fmtU id
  set bytes := sentBytes (packetText cmd data (fmtU id)) b with hbytes
  -- 16 and 456 bytes, an id of at most 10 digits, three delimiters, the CRC and the last byte
  have hlen : bytes.length ≤ ACP_BUFFER_MAX_SIZE := by
    simp only [hbytes, sentBytes, List.length_append, List.length_cons, List.length_nil,
      length_packetText]
    simp only [ACP_COMMAND_MAX_SIZE, ACP_DATA_MAX_SIZE, ACP_BUFFER_MAX_SIZE] at *
    omega
  have hbuf : field ACP_BUFFER_MAX_SIZE bytes = packetText cmd data (fmtU id) ++
      crcUpdateByStr 0 (packetText cmd data (fmtU id)) ::
        b :: List.replicate (ACP_BUFFER_MAX_SIZE - bytes.length) 0 := by
    simp [field, hbytes, sentBytes]
  have hcrc : acpRead (acpRequestInit srv).buf peer (some ⟨src, bytes⟩) =
      (true, field ACP_BUFFER_MAX_SIZE bytes, ⟨src⟩) := by
    rw [acpRead, show (acpRequestInit srv).buf = List.replicate ACP_BUFFER_MAX_SIZE 0 from rfl,
      recvInto_zeros hlen, hbuf, acpCrcCheck_packet hc.1 hd.1 hi]
    simp
  have hparse : acpRequestParse { acpRequestInit srv with buf := field ACP_BUFFER_MAX_SIZE bytes } =
      some (true, receivedRequest srv cmd data id b) := by
    rw [acpRequestParse_true (by simp [acpRequestInit]) (by simp [acpRequestInit])
      (by rw [length_field hlen]; rfl)]
    dsimp only
    rw [hbuf, block_zero_packet hc.1, block_one_packet hc.1 hd.1, block_two_packet hc.1 hd.1 hi]
    refine ⟨?_, hcl, hdl, fmtU_digits id, ?_, ?_⟩
    -- three bytes, three delimiters and a digit are enough for `ACP_REQUEST_BUF_SIZE_MIN`
    · refine le_trans ?_ (le_length_takeWhile (not_mem_packetText hc.2 hd.2 hi₀) _)
      have := length_fmtU_pos id
      rw [length_packetText, ACP_REQUEST_BUF_SIZE_MIN]
      omega
    · exact lt_of_le_of_lt hidl (by decide)
    · rw [digitsVal_fmtU, ← hbuf]
      simp only [receivedRequest, acpRequestInit, writeAt_replicate, hbytes]
  rw [acpRequestRead, hcrc]
  dsimp only
  rw [hparse, Option.map_some]

/-- The request between `acp_requestSetCmd` and `acp_requestPack`. -/
def builtRequest (item : ACPRequest) (cmd data : List UInt8) : ACPRequest :=
  { acpRequestInit item with
    cmd := field ACP_COMMAND_MAX_SIZE cmd, data := field ACP_DATA_MAX_SIZE data }

theorem acpRequestSetCmd_built {cmd : List UInt8} (h : cmd.length ≤ ACP_COMMAND_MAX_SIZE)
    (item : ACPRequest) :
    acpRequestSetCmd (acpRequestInit item) cmd = builtRequest item cmd [] := by
  simp only [acpRequestSetCmd, builtRequest, acpRequestInit,
    strncpy_field (List.length_replicate) h]
  rfl

/-- A run of `acp_requestStrCat`: all the strings are appended if two bytes remain free, and
else one of the calls fails. -/
theorem acpRequestStrCats_built (item : ACPRequest) (cmd : List UInt8) {x : List UInt8}
    {qs : List (List UInt8)} (hx : 0 ∉ x) (hq : ∀ q ∈ qs, 0 ∉ q)
    (hl : x.length + 1 < ACP_DATA_MAX_SIZE) :
    if (x ++ qs.flatten).length + 1 < ACP_DATA_MAX_SIZE then
      acpRequestStrCats (builtRequest item cmd x) qs =
        some (true, builtRequest item cmd (x ++ qs.flatten))
    else ∃ item', acpRequestStrCats (builtRequest item cmd x) qs = some (false, item') := by
  induction qs generalizing x with
  | nil => rw [List.flatten_nil, List.append_nil, if_pos hl, acpRequestStrCats]
  | cons q qs ih =>
    obtain ⟨hq₀, hq⟩ := List.forall_mem_cons.mp hq
    have hcat : acpRequestStrCat (builtRequest item cmd x) q =
        if x.length + q.length + 1 ≥ ACP_DATA_MAX_SIZE then some (false, builtRequest item cmd x)
        else some (true, builtRequest item cmd (x ++ q)) := by
      rw [acpRequestStrCat,
        show (builtRequest item cmd x).data = field ACP_DATA_MAX_SIZE x from rfl,
        show (builtRequest item cmd x).data_size = ACP_DATA_MAX_SIZE from rfl,
        dataStrCat_field hx (by omega)]
      split_ifs <;> rfl
    rw [acpRequestStrCats, hcat]
    by_cases hfit : x.length + q.length + 1 ≥ ACP_DATA_MAX_SIZE
    -- the first string that does not fit ends the calls, and neither would the whole
    · rw [if_pos hfit, if_neg (by simp; omega)]
      exact ⟨_, rfl⟩
    · rw [if_neg hfit]
      have h := ih (x := x ++ q) (by simp [hx, hq₀]) hq (by rw [List.length_append]; omega)
      simpa using h

/-- The packet that `acp_requestPack` makes of a command and its data. -/
theorem acpRequestPack_built (item : ACPRequest) {cmd data : List UInt8} (hc : 0 ∉ cmd)
    (hcl : cmd.length < ACP_COMMAND_MAX_SIZE) (hd : 0 ∉ data)
    (hdl : data.length + 1 < ACP_DATA_MAX_SIZE) (id : UInt32) :
    ∃ b t, acpRequestPack (builtRequest item cmd data) id = some { builtRequest item cmd data with
        id := id, crc := crcUpdateByStr 0 (packetText cmd data (fmtU id))
        buf := packetText cmd data (fmtU id) ++
          crcUpdateByStr 0 (packetText cmd data (fmtU id)) :: b :: t } ∧
      (packetText cmd data (fmtU id)).length + 2 + t.length = ACP_BUFFER_MAX_SIZE := by
  have hid := length_fmtU id
  have hbl : (builtRequest item cmd data).buf.length = ACP_BUFFER_MAX_SIZE :=
    List.length_replicate
  have hl : (packetText cmd data (fmtU id)).length + 2 ≤
      (builtRequest item cmd data).buf.length := by
    rw [length_packetText, hbl]
    simp only [ACP_COMMAND_MAX_SIZE, ACP_DATA_MAX_SIZE, ACP_BUFFER_MAX_SIZE] at *
    omega
  obtain ⟨b, t, hp, hlen, -⟩ := packText_eq (not_mem_packetText hc hd (not_mem_fmtU id).2) hl 0
  rw [hbl] at hp hlen
  refine ⟨b, t, ?_, hlen⟩
  have htext : cmd ++ ACP_DELIMITER_BLOCK :: data ++ ACP_DELIMITER_BLOCK :: fmtU id ++
      [ACP_DELIMITER_BLOCK] = packetText cmd data (fmtU id) := by
    simp [packetText]
  rw [acpRequestPack, show cString (builtRequest item cmd data).cmd = some cmd from
      cString_field hc hcl, Option.bind_some,
    show cString (builtRequest item cmd data).data = some data from
      cString_field hd (by omega), Option.bind_some, htext,
    show (builtRequest item cmd data).buf_size = ACP_BUFFER_MAX_SIZE from rfl,
    show (builtRequest item cmd data).crc = 0 from rfl, hp, Option.map_some]
  rfl

/-- `acp_cmdcmp` on a buffer that begins with a command and a delimiter. -/
theorem acpCmdcmp_eq {request : ACPRequest} {cmd c t : List UInt8}
    (hbuf : request.buf = cmd ++ ACP_DELIMITER_BLOCK :: t) (hcmd : ACP_DELIMITER_BLOCK ∉ cmd)
    (hc : ACP_DELIMITER_BLOCK ∉ c) (hne : cmd ≠ []) (hl : cmd.length < request.buf_size) :
    acpCmdcmp request c = some (decide (c = cmd)) := by
  have hpos : 0 < cmd.length := List.length_pos_iff.mpr hne
  unfold acpCmdcmp
  dsimp only
  rw [hbuf]
  by_cases he : c = cmd
  · subst he
    rw [Nat.min_eq_left hl.le, List.take_left, List.take_length]
    have hn : (c.length == 0) = false := beq_false_of_ne hpos.ne'
    simp [hn]
  rw [decide_eq_false he]
  split_ifs with h
  · rfl
  simp only [Bool.or_eq_true, bne_iff_ne, ne_eq, beq_iff_eq, not_or, not_not] at h
  obtain ⟨htake, hn⟩ := h
  -- the delimiter is not in `c`, so `c` ends within the command
  have hle : min c.length request.buf_size ≤ cmd.length := by
    by_contra hlt
    have hmem : ACP_DELIMITER_BLOCK ∈ c.take (min c.length request.buf_size) := by
      rw [← htake, List.take_append, List.take_of_length_le (by omega)]
      obtain ⟨k, hk⟩ := Nat.exists_eq_add_of_lt (not_le.mp hlt)
      rw [hk, show cmd.length + k + 1 - cmd.length = k + 1 by omega, List.take_succ_cons]
      simp
    exact hc (List.mem_of_mem_take hmem)
  have hmin : min c.length request.buf_size = c.length := by omega
  rw [hmin] at htake hle ⊢
  rw [List.take_length, List.take_append_of_le_length hle] at htake
  -- behind `c` there is then a byte of the command, which is not the delimiter
  have hlt : c.length < cmd.length := by
    refine lt_of_le_of_ne hle fun heq => he ?_
    rw [← htake, heq, List.take_length]
  rw [List.getElem?_append_left hlt, List.getElem?_eq_getElem hlt, Option.map_some]
  congr 1
  have : cmd[c.length] ≠ ACP_DELIMITER_BLOCK := fun h => hcmd (h ▸ List.getElem_mem hlt)
  exact beq_false_of_ne this

/-- A request survives the wire: it is packed without truncation, what is sent includes the CRC
byte and the byte behind it, and the server recovers it and takes it for one command only. -/
theorem request_survives_wire (cmd : List UInt8) (pieces : List (List UInt8))
    (hc : ACP_DELIMITER_BLOCK ∉ cmd ∧ 0 ∉ cmd) (hcl : 3 ≤ cmd.length ∧ cmd.length ≤ 15)
    (hp : ∀ q ∈ pieces, ACP_DELIMITER_BLOCK ∉ q ∧ 0 ∉ q)
    (hpl : pieces.flatten.length ≤ ACP_DATA_MAX_SIZE - 2) (item srv : ACPRequest) (id : UInt32)
    (peer : Peer) (src : SockAddr) :
    ∃ built packed b t,
      acpRequestStrCats (acpRequestSetCmd (acpRequestInit item) cmd) pieces = some (true, built) ∧
      acpRequestPack built id = some packed ∧
      packed.buf = packetText cmd pieces.flatten (fmtU id) ++ packed.crc :: b :: t ∧
      packed.buf.length = ACP_BUFFER_MAX_SIZE ∧
      packed.crc = crcUpdateByStr 0 (packetText cmd pieces.flatten (fmtU id)) ∧
      acpPacklen packed.buf = (packetText cmd pieces.flatten (fmtU id)).length + 2 ∧
      ∃ request, acpRequestRead (acpRequestInit srv) peer
          (some ⟨src, packed.buf.take (acpPacklen packed.buf)⟩) = some (true, request, ⟨src⟩) ∧
        cString request.cmd = some cmd ∧ cString request.data = some pieces.flatten ∧
        request.id = id ∧
        ∀ c, ACP_DELIMITER_BLOCK ∉ c → 0 ∉ c → acpCmdcmp request c = some (decide (c = cmd)) := by
  have hd : ACP_DELIMITER_BLOCK ∉ pieces.flatten ∧ 0 ∉ pieces.flatten := by
    constructor <;> intro h <;> obtain ⟨q, hq, hm⟩ := List.mem_flatten.mp h
    · exact (hp q hq).1 hm
    · exact (hp q hq).2 hm
  have hdl : pieces.flatten.length + 1 < ACP_DATA_MAX_SIZE := by
    rw [ACP_DATA_MAX_SIZE] at hpl ⊢
    omega
  have hcl' : cmd.length < ACP_COMMAND_MAX_SIZE := by
    rw [ACP_COMMAND_MAX_SIZE]
    omega
  have hcat := acpRequestStrCats_built item cmd (x := []) List.not_mem_nil
    (fun q hq => (hp q hq).2) (by decide)
  rw [List.nil_append, if_pos hdl] at hcat
  obtain ⟨b, t, hpack, hbl⟩ := acpRequestPack_built item hc.2 hcl' hd.2 hdl id
  have hpl := acpPacklen_packet hc.1 hd.1 (not_mem_fmtU id).1
    (crcUpdateByStr 0 (packetText cmd pieces.flatten (fmtU id))) b t
  have hread := acpRequestRead_packet _ _ id hc hd hcl'.le (by omega) (by omega) srv peer src b
  -- the sender's steps give the buffer, and the receiver's the request
  rw [acpRequestSetCmd_built hcl'.le]
  refine ⟨_, _, b, t, hcat, hpack, rfl, ?_, rfl, hpl,
    receivedRequest srv cmd pieces.flatten id b, ?_, cString_field hc.2 hcl',
    cString_field hd.2 (Nat.lt_of_succ_lt hdl), rfl, fun c hc' _ => ?_⟩
  · simpa [Nat.add_assoc, Nat.add_comm, Nat.add_left_comm] using hbl
  · dsimp only
    rw [hpl, take_sentBytes]
    exact hread
  · have hne : cmd ≠ [] := List.ne_nil_of_length_pos (by omega)
    have hbuf : ∃ t', (receivedRequest srv cmd pieces.flatten id b).buf =
        cmd ++ ACP_DELIMITER_BLOCK :: t' := by
      simp only [receivedRequest, acpCountDataRows, field, sentBytes, packetText,
        List.append_assoc, List.cons_append]
      exact ⟨_, rfl⟩
    obtain ⟨t', hbuf⟩ := hbuf
    have hsize : ACP_COMMAND_MAX_SIZE < ACP_BUFFER_MAX_SIZE := by decide
    exact acpCmdcmp_eq hbuf hc.1 hc' hne (lt_trans hcl' hsize)

def blankRequest : ACPRequest := ⟨[], [], [], 0, 0, 0, 0, 0, 0⟩

/-- The last theorem for `psp` with the rows 1 and 2, sent as request 7. -/
theorem request_survives_wire_example :
    ∃ packed request : ACPRequest, acpPacklen packed.buf = 13 ∧
      acpRequestRead (acpRequestInit blankRequest) ⟨⟨0, 0⟩⟩
        (some ⟨⟨0x7f000001, 49178⟩, packed.buf.take 13⟩) =
          some (true, request, ⟨⟨0x7f000001, 49178⟩⟩) ∧
      cString request.cmd = some [112, 115, 112] ∧
      cString request.data = some [49, 10, 50, 10] ∧ request.id = 7 := by
  obtain ⟨-, packed, b, t, -, -, -, -, -, hlen, request, hread, hcmd, hdata, hid, -⟩ :=
    request_survives_wire [112, 115, 112] [[49, 10], [50, 10]] (by decide) (by decide)
      (by decide) (by simp [ACP_DATA_MAX_SIZE]) blankRequest blankRequest 7 ⟨⟨0, 0⟩⟩
      ⟨0x7f000001, 49178⟩
  have h13 : acpPacklen packed.buf = 13 := by
    rw [hlen]
    decide
  rw [h13] at hread
  exact ⟨packed, request, h13, hread, hcmd, hdata, hid⟩

end Regonf
