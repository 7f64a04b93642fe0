import Regonf.AcpFTS
import Regonf.AcpWire

/-! Strings that are sent one after another with `acp_responseSendStr` on the same response, and
what a client makes of each datagram. -/
namespace Regonf

open Blocks

/-- The text of the packet that carries the string `s` as number `k`. -/
def responseText (id : UInt32) (k : ℕ) (s : List UInt8) (is_not_last : Int32) : List UInt8 :=
  packetText (fmtU (UInt32.ofNat k) ++ ACP_DELIMITER_COLUMN :: fmtD is_not_last.toInt) s (fmtU id)

/-- The two values of the flag: `ACP_LAST_PACK` and `ACP_MIDDLE_PACK`. -/
def IsPack (is_not_last : Int32) : Prop := is_not_last = 0 ∨ is_not_last = 1

/-- A string that `acp_responseSendStr` may be given. -/
def IsStr (s : List UInt8) : Prop :=
  ACP_DELIMITER_BLOCK ∉ s ∧ 0 ∉ s ∧ s.length < ACP_DATA_MAX_SIZE - 1

/-- The response before its string number `k` is sent: nothing is assumed of what earlier
packets left in the buffer and in the data field. -/
structure Sending (id : UInt32) (k : ℕ) (r : ACPResponseOut) : Prop where
  data : r.data.length = ACP_DATA_MAX_SIZE
  data_size : r.data_size = ACP_DATA_MAX_SIZE
  buf : r.buf.length = ACP_BUFFER_MAX_SIZE
  buf_size : r.buf_size = ACP_BUFFER_MAX_SIZE
  id : r.id = id
  seq : r.seq = UInt32.ofNat k
  last_is_ok : r.last_is_ok = true

theorem sending_init (id id₀ : UInt32) :
    Sending id 0 (acpResponseCoopRequest (acpResponseOutInit id₀) id) where
  data := List.length_replicate
  data_size := rfl
  buf := List.length_replicate
  buf_size := rfl
  id := rfl
  seq := rfl
  last_is_ok := rfl

theorem fmtD_pack {f : Int32} (hf : IsPack f) :
    (∀ b ∈ fmtD f.toInt, isdigit b = true) ∧ (fmtD f.toInt).length = 1 ∧
      Int32.ofNat (digitsVal (fmtD f.toInt)) = f := by
  rcases hf with rfl | rfl <;> decide +kernel

theorem length_responseText {f : Int32} (hf : IsPack f) (id : UInt32) (k : ℕ) (s : List UInt8) :
    (responseText id k s f).length =
      (fmtU (UInt32.ofNat k)).length + s.length + (fmtU id).length + 5 := by
  rw [responseText, length_packetText, List.length_append, List.length_cons, (fmtD_pack hf).2.1]
  omega

theorem not_mem_head {f : Int32} (hf : IsPack f) (n : UInt32) :
    ACP_DELIMITER_BLOCK ∉ fmtU n ++ ACP_DELIMITER_COLUMN :: fmtD f.toInt ∧
      0 ∉ fmtU n ++ ACP_DELIMITER_COLUMN :: fmtD f.toInt := by
  have hd := (fmtD_pack hf).1
  have h₁ : ACP_DELIMITER_BLOCK ∉ fmtD f.toInt := fun h => absurd (hd _ h) (by decide)
  have h₂ := not_mem_of_isdigit hd
  obtain ⟨h₃, h₄⟩ := not_mem_fmtU n
  simp only [List.mem_append, List.mem_cons, not_or]
  exact ⟨⟨h₃, by decide, h₁⟩, ⟨h₄, by decide, h₂⟩⟩

/-- The packet that `acp_responsePack` makes of a string in the data field. A CRC that is not 0 has
a NUL behind it. -/
theorem acpResponsePack_field {r : ACPResponseOut} {k : ℕ} {s : List UInt8} (hs : IsStr s)
    (hf : IsPack r.is_not_last) (hdata : r.data = field ACP_DATA_MAX_SIZE s)
    (hbuf : r.buf.length = ACP_BUFFER_MAX_SIZE) (hsize : r.buf_size = ACP_BUFFER_MAX_SIZE)
    (hseq : r.seq = UInt32.ofNat k) (hcrc : r.crc = 0) :
    ∃ b t, acpResponsePack r = some { r with
        buf := responseText r.id k s r.is_not_last ++
          crcUpdateByStr 0 (responseText r.id k s r.is_not_last) :: b :: t
        crc := crcUpdateByStr 0 (responseText r.id k s r.is_not_last) } ∧
      (responseText r.id k s r.is_not_last).length + 2 + t.length = ACP_BUFFER_MAX_SIZE ∧
      (crcUpdateByStr 0 (responseText r.id k s r.is_not_last) ≠ 0 → b = 0) := by
  obtain ⟨-, h0, hl⟩ := hs
  obtain ⟨-, hh0⟩ := not_mem_head hf (UInt32.ofNat k)
  obtain ⟨-, hi0⟩ := not_mem_fmtU r.id
  have hlen : (responseText r.id k s r.is_not_last).length + 2 ≤ r.buf.length := by
    have h₁ := length_fmtU (UInt32.ofNat k)
    have h₂ := length_fmtU r.id
    rw [length_responseText hf, hbuf]
    simp only [ACP_DATA_MAX_SIZE, ACP_BUFFER_MAX_SIZE] at *
    omega
  obtain ⟨b, t, hp, htl, hz⟩ := packText_eq (not_mem_packetText hh0 h0 hi0) hlen 0
  rw [← responseText] at hp htl hz
  rw [hbuf] at hp htl
  have htext : fmtU r.seq ++ ACP_DELIMITER_COLUMN :: fmtD r.is_not_last.toInt ++
      ACP_DELIMITER_BLOCK :: s ++ ACP_DELIMITER_BLOCK :: fmtU r.id ++ [ACP_DELIMITER_BLOCK] =
      responseText r.id k s r.is_not_last := by
    simp [responseText, packetText, hseq]
  refine ⟨b, t, ?_, htl, hz⟩
  rw [acpResponsePack, hdata, cString_field h0 (by omega), Option.bind_some, htext, hsize, hcrc, hp,
    Option.map_some]

/-- What `acp_sendBuf` makes of the packet. -/
theorem acpSendBuf_response {r : ACPResponseOut} {k : ℕ} {s t : List UInt8} {f : Int32}
    {id : UInt32} {b : UInt8} (hs : ACP_DELIMITER_BLOCK ∉ s) (hf : IsPack f)
    (hl : (responseText id k s f).length + 2 + t.length = ACP_BUFFER_MAX_SIZE)
    (hsize : r.buf_size = ACP_BUFFER_MAX_SIZE)
    (hbuf : r.buf = responseText id k s f ++ crcUpdateByStr 0 (responseText id k s f) :: b :: t) :
    acpSendBuf (r.buf.take r.buf_size) sendtoAll =
      ((((responseText id k s f).length + 2 : ℕ) : ℤ), sentBytes (responseText id k s f) b) :=
  acpSendBuf_packed (not_mem_head hf _).1 hs (not_mem_fmtU id).1 hbuf hl hsize

/-- One call: the datagram is the packet of the string, and the next call finds the response in
the same condition. -/
theorem acpResponseSendStr_sending {id : UInt32} {k : ℕ} {r : ACPResponseOut}
    (hr : Sending id k r) {s : List UInt8} {f : Int32} (hs : IsStr s) (hf : IsPack f) :
    ∃ r' b, acpResponseSendStr s f r sendtoAll =
        some (r', some (sentBytes (responseText id k s f) b)) ∧
      Sending id (k + 1) r' ∧ (crcUpdateByStr 0 (responseText id k s f) ≠ 0 → b = 0) := by
  obtain rfl := hr.id
  have hl : s.length ≤ ACP_DATA_MAX_SIZE := le_trans hs.2.2.le (by decide)
  have hdata : strncpy r.data s r.data_size = field ACP_DATA_MAX_SIZE s := by
    rw [hr.data_size]
    exact strncpy_field hr.data hl
  -- what was in the data field is overwritten to its end, and the CRC starts again from 0
  set filled : ACPResponseOut := { r with
    is_not_last := f, data := strncpy r.data s r.data_size, crc := 0, last_is_ok := true }
    with hfilled
  obtain ⟨b, t, hpack, hlen, hcrc⟩ := acpResponsePack_field (r := filled) (k := k) hs hf hdata
    hr.buf hr.buf_size hr.seq rfl
  have hid : filled.id = r.id := rfl
  have hlast : filled.is_not_last = f := rfl
  rw [hid, hlast] at hpack hlen hcrc
  set packed : ACPResponseOut := { filled with
    buf := responseText r.id k s f ++ crcUpdateByStr 0 (responseText r.id k s f) :: b :: t
    crc := crcUpdateByStr 0 (responseText r.id k s f) } with hpacked
  have hsend : acpSendBuf (packed.buf.take packed.buf_size) sendtoAll = _ :=
    acpSendBuf_response hs.1 hf hlen hr.buf_size rfl
  refine ⟨{ packed with seq := packed.seq + 1, last_is_ok := true }, b, ?_, ?_, hcrc⟩
  · rw [acpResponseSendStr, hr.last_is_ok]
    simp only [Bool.not_true, Bool.false_eq_true, ↓reduceIte]
    -- a datagram that is sent has a positive length, so the sequence number goes up
    have hpos : (((responseText r.id k s f).length + 2 : ℕ) : ℤ) > 0 := by omega
    have hstep : acpResponseSend filled sendtoAll = some
        ((((responseText r.id k s f).length + 2 : ℕ) : ℤ), packed,
          sentBytes (responseText r.id k s f) b) := by
      rw [acpResponseSend, hpack, Option.map_some]
      dsimp only
      rw [hsend]
    rw [← hfilled, hstep, Option.map_some]
    dsimp only
    rw [if_pos hpos]
  · refine ⟨?_, hr.data_size, ?_, hr.buf_size, hr.id, ?_, rfl⟩
    · exact (congrArg List.length hdata).trans (length_field hl)
    · rw [← hlen]
      simp only [hpacked, List.length_append, List.length_cons]
      omega
    · rw [show packed.seq = UInt32.ofNat k from hr.seq, UInt32.ofNat_add]
      rfl

/-- One string sent, as a step whose messages are the datagrams. -/
def sendStep (r : ACPResponseOut) (i : List UInt8 × Int32) :
    Option (ACPResponseOut × List (List UInt8)) :=
  (acpResponseSendStr i.1 i.2 r sendtoAll).map fun p => (p.1, p.2.toList)

/-- A whole sequence of strings: datagram number `j` is the packet of string number `j`. -/
theorem run_sendStep {id : UInt32} {k : ℕ} {r : ACPResponseOut} (hr : Sending id k r)
    {strs : List (List UInt8 × Int32)} (hs : ∀ i ∈ strs, IsStr i.1 ∧ IsPack i.2) :
    ∃ r' out, Controller.run sendStep r strs = some (r', out) ∧ out.length = strs.length ∧
      ∀ j s f, strs[j]? = some (s, f) → ∃ b,
        out[j]? = some (sentBytes (responseText id (k + j) s f) b) ∧
        (crcUpdateByStr 0 (responseText id (k + j) s f) ≠ 0 → b = 0) := by
  induction strs generalizing k r with
  | nil => exact ⟨r, [], rfl, rfl, fun j s f h => by simp at h⟩
  | cons i strs ih =>
    obtain ⟨hi, hs⟩ := List.forall_mem_cons.mp hs
    obtain ⟨r₁, b, hsend, hr₁, hb⟩ := acpResponseSendStr_sending hr hi.1 hi.2
    obtain ⟨r', out, hrun, hlen, hout⟩ := ih hr₁ hs
    have hstep : sendStep r i = some (r₁, [sentBytes (responseText id k i.1 i.2) b]) := by
      rw [sendStep, hsend]
      rfl
    refine ⟨r', _, Controller.run_cons_some.mpr ⟨r₁, _, out, hstep, hrun, rfl⟩, by simp [hlen],
      fun j s f h => ?_⟩
    -- datagram 0 is that of the step, and number `j + 1` is number `j` of the rest of the run
    cases j with
    | zero =>
      simp only [List.getElem?_cons_zero, Option.some.injEq] at h
      subst h
      exact ⟨b, rfl, hb⟩
    | succ j =>
      obtain ⟨b', h₁, h₂⟩ := hout j s f (by simpa using h)
      rw [show k + 1 + j = k + (j + 1) by omega] at h₁ h₂
      exact ⟨b', by simpa using h₁, h₂⟩

/-- A response of the sender's form is parsed, if it is long enough. -/
theorem acpResponseParse_packet (item : ACPResponse) {q f s i t : List UInt8}
    (hbuf : item.buf = packetText (q ++ ACP_DELIMITER_COLUMN :: f) s i ++ t)
    (hsize : item.buf.length ≤ item.buf_size) (hdata : item.data_size ≤ item.data.length)
    (hmin : ACP_RESPONSE_BUF_SIZE_MIN ≤ (item.buf.takeWhile (· ≠ 0)).length)
    (hq : ∀ b ∈ q, isdigit b = true) (hf : ∀ b ∈ f, isdigit b = true)
    (hi : ∀ b ∈ i, isdigit b = true) (hql : 0 < q.length ∧ q.length < ACP_NUM_STR_LENGTH)
    (hfl : 0 < f.length ∧ f.length < ACP_NUM_STR_LENGTH)
    (hil : 0 < i.length ∧ i.length < ACP_NUM_STR_LENGTH) (hs : ACP_DELIMITER_BLOCK ∉ s)
    (hsl : s.length ≤ item.data_size) :
    acpResponseParse item = some (true, { item with
      data := writeAt item.data 0 s, seq := UInt32.ofNat (digitsVal q)
      is_not_last := Int32.ofNat (digitsVal f), id := UInt32.ofNat (digitsVal i) }) := by
  have h13 {x : List UInt8} (hx : ∀ b ∈ x, isdigit b = true) : ACP_DELIMITER_BLOCK ∉ x :=
    fun h => absurd (hx _ h) (by decide)
  have hhead : ACP_DELIMITER_BLOCK ∉ q ++ ACP_DELIMITER_COLUMN :: f := by
    simp only [List.mem_append, List.mem_cons, not_or]
    exact ⟨h13 hq, by decide, h13 hf⟩
  have hstr {x : List UInt8} (hx : ∀ b ∈ x, isdigit b = true)
      (hl : x.length < ACP_NUM_STR_LENGTH) :
      cString (writeAt (List.replicate ACP_NUM_STR_LENGTH 0) 0 x) = some x := by
    rw [cString_zeros (not_mem_of_isdigit hx), if_pos hl]
  rw [acpResponseParse_true hdata hsize]
  refine ⟨hmin, ⟨item.data, 0, f.length, true, writeAt (List.replicate ACP_NUM_STR_LENGTH 0) 0 q,
    List.replicate ACP_NUM_STR_LENGTH 0, writeAt (List.replicate ACP_NUM_STR_LENGTH 0) 0 f⟩,
    q, f, ?_, hstr hq hql.2, List.ne_nil_of_length_pos hql.1, hstr hf hfl.2,
    List.ne_nil_of_length_pos hfl.1, ?_⟩
  · rw [hbuf, block_zero_packet hhead]
    exact responseParseLoop_numbers hq hf hql.2.le hfl.2.le List.length_replicate
      List.length_replicate
  · rw [hbuf, block_one_packet hhead hs, block_two_packet hhead hs (h13 hi)]
    exact ⟨hsl, hi, hil.2, List.ne_nil_of_length_pos hil.1, rfl⟩

/-- The client accepts the datagram, and recovers what was sent. -/
def Recovered (id : UInt32) (k : ℕ) (s : List UInt8) (is_not_last : Int32) (d : Datagram) :
    Prop :=
  acpCrcCheck (receivedResponse d).buf = true ∧
    ∃ item, acpResponseParse (receivedResponse d) = some (true, item) ∧
      item.seq = UInt32.ofNat k ∧ item.is_not_last = is_not_last ∧
      cString item.data = some s ∧ item.id = id

/-- What the client's buffer holds. -/
theorem receivedResponse_sent {text : List UInt8} (hl : text.length + 2 ≤ ACP_BUFFER_MAX_SIZE)
    (src : SockAddr) (b : UInt8) :
    ∃ t, (receivedResponse ⟨src, sentBytes text b⟩).buf =
        text ++ crcUpdateByStr 0 text :: b :: t ∧
      (receivedResponse ⟨src, sentBytes text b⟩).buf.length = ACP_BUFFER_MAX_SIZE := by
  have hlen : (sentBytes text b).length ≤ ACP_BUFFER_MAX_SIZE := by
    simpa [sentBytes] using hl
  rw [receivedResponse_buf, recvInto_zeros hlen]
  refine ⟨List.replicate (ACP_BUFFER_MAX_SIZE - (sentBytes text b).length) 0, ?_,
    length_field hlen⟩
  simp [field, sentBytes]

/-- The length of the C string in the buffer counts the CRC byte, unless it is 0. -/
theorem strlen_sent {text : List UInt8} (h₀ : 0 ∉ text) {c b : UInt8} (hb : c ≠ 0 → b = 0)
    (t : List UInt8) :
    ((text ++ c :: b :: t).takeWhile (· ≠ 0)).length = text.length + if c = 0 then 0 else 1 := by
  by_cases hc : c = 0
  · rw [if_pos hc, hc, takeWhile_ne_append h₀, Nat.add_zero]
  · have h : 0 ∉ text ++ [c] := by
      rw [List.mem_append, List.mem_singleton, not_or]
      exact ⟨h₀, Ne.symm hc⟩
    have he : text ++ c :: b :: t = (text ++ [c]) ++ 0 :: t := by
      rw [hb hc]
      simp
    rw [if_neg hc, he, takeWhile_ne_append h, List.length_append, List.length_singleton]

/-- A packet with its CRC passes the check. -/
theorem acpCrcCheck_sent (id : UInt32) (k : ℕ) {s : List UInt8} {f : Int32} (hs : IsStr s)
    (hf : IsPack f) (src : SockAddr) (b : UInt8) :
    ∃ t, (receivedResponse ⟨src, sentBytes (responseText id k s f) b⟩).buf =
        responseText id k s f ++ crcUpdateByStr 0 (responseText id k s f) :: b :: t ∧
      (receivedResponse ⟨src, sentBytes (responseText id k s f) b⟩).buf.length =
        ACP_BUFFER_MAX_SIZE ∧
      acpCrcCheck (receivedResponse ⟨src, sentBytes (responseText id k s f) b⟩).buf = true := by
  have hkl := length_fmtU (UInt32.ofNat k)
  have hil := length_fmtU id
  have hl := hs.2.2
  have hlen : (responseText id k s f).length + 2 ≤ ACP_BUFFER_MAX_SIZE := by
    rw [length_responseText hf]
    simp only [ACP_DATA_MAX_SIZE, ACP_BUFFER_MAX_SIZE] at *
    omega
  obtain ⟨t, hbuf, hbl⟩ := receivedResponse_sent hlen src b
  refine ⟨t, hbuf, hbl, ?_⟩
  rw [hbuf, responseText, acpCrcCheck_packet (not_mem_head hf _).1 hs.1 (not_mem_fmtU id).1]
  exact beq_self_eq_true _

/-- A packet is accepted and recovered exactly when it is not too short for the parser. -/
theorem recovered_iff {id : UInt32} {k : ℕ} {s : List UInt8} {f : Int32} (hs : IsStr s)
    (hf : IsPack f) {b : UInt8} (hb : crcUpdateByStr 0 (responseText id k s f) ≠ 0 → b = 0)
    (src : SockAddr) :
    Recovered id k s f ⟨src, sentBytes (responseText id k s f) b⟩ ↔
      ACP_RESPONSE_BUF_SIZE_MIN ≤ (responseText id k s f).length +
        if crcUpdateByStr 0 (responseText id k s f) = 0 then 0 else 1 := by
  obtain ⟨t, hbuf, hbl, hcrc⟩ := acpCrcCheck_sent id k hs hf src b
  obtain ⟨h13, h0, hl⟩ := hs
  obtain ⟨-, hh0⟩ := not_mem_head hf (UInt32.ofNat k)
  obtain ⟨-, hi0⟩ := not_mem_fmtU id
  obtain ⟨hfd, hfl, hfv⟩ := fmtD_pack hf
  have hkl := length_fmtU (UInt32.ofNat k)
  have hil := length_fmtU id
  have hmin := strlen_sent (not_mem_packetText hh0 h0 hi0) hb t
  rw [← responseText, ← hbuf] at hmin
  constructor
  -- the parser looks at `strlen` first
  · rintro ⟨-, item, hp, -⟩
    rw [← hmin]
    exact ((acpResponseParse_true (by simp [receivedResponse, acpResponseInit])
      (by rw [hbl]; rfl)).mp hp).1
  · intro h
    rw [← hmin] at h
    refine ⟨hcrc, _, acpResponseParse_packet _ hbuf (by rw [hbl]; rfl)
      (by simp [receivedResponse, acpResponseInit]) h (fmtU_digits _) hfd (fmtU_digits _)
      ⟨length_fmtU_pos _, lt_of_le_of_lt hkl (by decide)⟩ (by rw [hfl]; decide)
      ⟨length_fmtU_pos _, lt_of_le_of_lt hil (by decide)⟩ h13
      (show s.length ≤ ACP_DATA_MAX_SIZE by omega), digitsVal_fmtU _, hfv, ?_, digitsVal_fmtU _⟩
    dsimp only [receivedResponse, acpResponseInit]
    rw [writeAt_replicate, cString_field h0 (by omega)]

/-- A client that does not look at the result of the parser has the string all the same: a packet
that is too short for the parser has an empty one. -/
theorem acpResponseRead_sent {id : UInt32} {k : ℕ} {s : List UInt8} {f : Int32} (hs : IsStr s)
    (hf : IsPack f) (hshort : s = [] ∨ 2 ≤ s.length) {b : UInt8}
    (hb : crcUpdateByStr 0 (responseText id k s f) ≠ 0 → b = 0) (id₁ : UInt32) (peer : Peer)
    (src : SockAddr) :
    ∃ item, acpResponseRead (acpResponseInit id₁) peer
        (some ⟨src, sentBytes (responseText id k s f) b⟩) = some (true, item, ⟨src⟩) ∧
      item.data = field ACP_DATA_MAX_SIZE s := by
  obtain ⟨t, hbuf, hbl, hcrc⟩ := acpCrcCheck_sent id k hs hf src b
  set buf := (receivedResponse ⟨src, sentBytes (responseText id k s f) b⟩).buf with hbufd
  have hread : acpRead (acpResponseInit id₁).buf peer
      (some ⟨src, sentBytes (responseText id k s f) b⟩) = (true, buf, ⟨src⟩) := by
    rw [acpRead, ← hcrc, hbufd]
    rfl
  obtain ⟨h13, h0, hl⟩ := hs
  obtain ⟨-, hh0⟩ := not_mem_head hf (UInt32.ofNat k)
  obtain ⟨-, hi0⟩ := not_mem_fmtU id
  have hmin := strlen_sent (not_mem_packetText hh0 h0 hi0) hb t
  rw [← responseText, ← hbuf] at hmin
  rw [acpResponseRead, hread]
  dsimp only
  by_cases hm : ACP_RESPONSE_BUF_SIZE_MIN ≤ (buf.takeWhile (· ≠ 0)).length
  · obtain ⟨hfd, hfl, -⟩ := fmtD_pack hf
    have hkl := length_fmtU (UInt32.ofNat k)
    have hil := length_fmtU id
    have hp := acpResponseParse_packet { acpResponseInit id₁ with buf := buf } hbuf
      (by rw [hbl]; rfl) (List.length_replicate).ge hm (fmtU_digits _) hfd (fmtU_digits _)
      ⟨length_fmtU_pos _, lt_of_le_of_lt hkl (by decide)⟩ (by rw [hfl]; decide)
      ⟨length_fmtU_pos _, lt_of_le_of_lt hil (by decide)⟩ h13
      (show s.length ≤ ACP_DATA_MAX_SIZE by omega)
    rw [hp, Option.map_some]
    exact ⟨_, rfl, writeAt_replicate _ _⟩
  -- a string of two bytes makes the packet long enough
  · have hs₀ : s = [] := by
      refine hshort.resolve_right fun h2 => hm ?_
      have h₁ := length_fmtU_pos (UInt32.ofNat k)
      have h₂ := length_fmtU_pos id
      rw [hmin, length_responseText hf, ACP_RESPONSE_BUF_SIZE_MIN]
      omega
    rw [acpResponseParse, if_pos (not_le.mp hm), Option.map_some]
    exact ⟨_, rfl, by rw [hs₀]; rfl⟩

/-- A string that is sent as number `k` is received exactly when the digits of the number, the
string and the digits of the id have four bytes together, or three and the CRC of the packet
is not 0. -/
theorem response_survives_wire (id id₀ : UInt32) {strs : List (List UInt8 × Int32)}
    (hs : ∀ i ∈ strs, IsStr i.1 ∧ IsPack i.2) (src : SockAddr) :
    ∃ r out, Controller.run sendStep (acpResponseCoopRequest (acpResponseOutInit id₀) id) strs =
        some (r, out) ∧ out.length = strs.length ∧
      ∀ k s f, strs[k]? = some (s, f) → ∃ bytes, out[k]? = some bytes ∧
        (Recovered id k s f ⟨src, bytes⟩ ↔
          4 ≤ (fmtU (UInt32.ofNat k)).length + s.length + (fmtU id).length ∨
          3 = (fmtU (UInt32.ofNat k)).length + s.length + (fmtU id).length ∧
            crcUpdateByStr 0 (responseText id k s f) ≠ 0) := by
  obtain ⟨r, out, hrun, hlen, hout⟩ := run_sendStep (sending_init id id₀) hs
  refine ⟨r, out, hrun, hlen, fun k s f hk => ?_⟩
  obtain ⟨b, hb, hcrc⟩ := hout k s f hk
  rw [Nat.zero_add] at hb hcrc
  obtain ⟨hstr, hpack⟩ := hs _ (List.mem_of_getElem? hk)
  refine ⟨_, hb, ?_⟩
  rw [recovered_iff hstr hpack hcrc, length_responseText hpack, ACP_RESPONSE_BUF_SIZE_MIN]
  -- the packet has five bytes more than the three parts, and `strlen` counts its CRC unless it is 0
  generalize (fmtU (UInt32.ofNat k)).length + s.length + (fmtU id).length = n
  by_cases hc : crcUpdateByStr 0 (responseText id k s f) = 0
  · rw [if_pos hc]
    simp only [hc, ne_eq, not_true_eq_false, and_false, or_false]
    omega
  · rw [if_neg hc]
    simp only [hc, ne_eq, not_false_eq_true, and_true]
    omega

/-- The last theorem for two strings sent to request 5: the first, `ab`, is recovered. -/
theorem response_survives_wire_example :
    ∃ r out, Controller.run sendStep (acpResponseCoopRequest (acpResponseOutInit 0) 5)
        [([97, 98], 1), ([], 0)] = some (r, out) ∧
      ∃ bytes, out[0]? = some bytes ∧
        Recovered 5 0 [97, 98] 1 ⟨⟨0x7f000001, 49178⟩, bytes⟩ := by
  have hs : ∀ i ∈ [(([97, 98] : List UInt8), (1 : Int32)), ([], 0)], IsStr i.1 ∧ IsPack i.2 := by
    simp [IsStr, IsPack, ACP_DELIMITER_BLOCK, ACP_DATA_MAX_SIZE]
  obtain ⟨r, out, hrun, -, hout⟩ := response_survives_wire 5 0 hs ⟨0x7f000001, 49178⟩
  obtain ⟨bytes, hb, hrec⟩ := hout 0 [97, 98] 1 rfl
  exact ⟨r, out, hrun, bytes, hb, hrec.mpr (Or.inl (by decide))⟩

/-- An empty string, sent first to request 5, is refused: its packet is one byte too short. -/
theorem empty_response_refused :
    (IsStr [] ∧ IsPack 0) ∧
    ∃ r bytes, Controller.run sendStep (acpResponseCoopRequest (acpResponseOutInit 0) 5)
        [([], 0)] = some (r, [bytes]) ∧
      ¬Recovered 5 0 [] 0 ⟨⟨0x7f000001, 49178⟩, bytes⟩ := by
  have hstr : IsStr [] := by simp [IsStr, ACP_DATA_MAX_SIZE]
  have hpack : IsPack 0 := Or.inl rfl
  obtain ⟨r, b, hsend, -, hb⟩ := acpResponseSendStr_sending (sending_init 5 0) hstr hpack
  refine ⟨⟨hstr, hpack⟩, r, sentBytes (responseText 5 0 [] 0) b, ?_, fun h => ?_⟩
  · refine Controller.run_cons_some.mpr
      ⟨r, [sentBytes (responseText 5 0 [] 0) b], [], ?_, rfl, rfl⟩
    rw [sendStep, hsend]
    rfl
  · have hmin := (recovered_iff hstr hpack hb _).mp h
    have hlen : (responseText 5 0 [] 0).length = 7 := by decide +kernel
    rw [hlen, ACP_RESPONSE_BUF_SIZE_MIN] at hmin
    split_ifs at hmin <;> omega

end Regonf
