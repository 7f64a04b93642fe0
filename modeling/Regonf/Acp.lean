import Regonf.Reg

/-! `lib/crc.c` and the receiving half of `lib/acp/main.c`. A buffer is the list of its bytes;
a read or write outside an array is undefined and makes the result `none`. -/
namespace Regonf

/-- One turn of the loop of `crc_update`: the register and the byte that is fed to it. -/
def crcUpdateBit (s : UInt8 × UInt8) : UInt8 × UInt8 :=
  (if (s.1 ^^^ s.2) &&& 1 ≠ 0 then (s.1 >>> 1) ^^^ 0x8c else s.1 >>> 1, s.2 >>> 1)

def crcUpdate (crc b : UInt8) : UInt8 := (crcUpdateBit^[8] (crc, b)).1

def ACP_DATA_MAX_SIZE : ℕ := 456
def ACP_BUFFER_MAX_SIZE : ℕ := 508
def ACP_NUM_STR_LENGTH : ℕ := 12
def ACP_RESPONSE_BUF_SIZE_MIN : ℕ := 9
def ACP_DELIMITER_COLUMN : UInt8 := 9
def ACP_DELIMITER_ROW : UInt8 := 10
def ACP_DELIMITER_BLOCK : UInt8 := 13
def ACP_BLOCK_IND_CRC : ℕ := 3

/-- A datagram on the client socket, with its sender. -/
structure Datagram where
  src : SockAddr
  bytes : List UInt8
deriving DecidableEq, Repr

structure ACPResponse where
  data : List UInt8
  buf : List UInt8
  id : UInt32
  seq : UInt32
  is_not_last : Int32
  data_size : ℕ
  buf_size : ℕ
deriving DecidableEq, Repr

/-- `acp_responseInit` on a response whose `id` is whatever the stack held. -/
def acpResponseInit (id : UInt32) : ACPResponse :=
  { data := List.replicate ACP_DATA_MAX_SIZE 0, buf := List.replicate ACP_BUFFER_MAX_SIZE 0
    id := id, seq := 0, is_not_last := 0
    data_size := ACP_DATA_MAX_SIZE, buf_size := ACP_BUFFER_MAX_SIZE }

@[simp] theorem acpResponseInit_buf (id : UInt32) :
    (acpResponseInit id).buf = List.replicate ACP_BUFFER_MAX_SIZE 0 := rfl

/-- The loop of `acp_crcCheck`; in state 1 the byte at hand is the CRC. -/
def acpCrcCheckFrom (state : Bool) (block_count : ℕ) (crc_fact : UInt8) : List UInt8 → Bool
  | [] => false
  | b :: bs =>
    -- state 1: the byte behind the third block delimiter is the CRC
    if state then b == crc_fact
    else
      let n := if b = ACP_DELIMITER_BLOCK then block_count + 1 else block_count
      acpCrcCheckFrom (n == ACP_BLOCK_IND_CRC) n (crcUpdate crc_fact b) bs

def acpCrcCheck (buf : List UInt8) : Bool := acpCrcCheckFrom false 0 0 buf

/-- What `recvfrom` leaves in a buffer: the datagram, cut to its size, over its front. -/
def recvInto (buf : List UInt8) (d : Datagram) : List UInt8 :=
  d.bytes.take buf.length ++ buf.drop d.bytes.length

/-- `acp_read`: the result, the buffer and the peer. No datagram before the timeout is an error
of `recvfrom`; a datagram is stored, and its sender over the peer's address. -/
def acpRead (buf : List UInt8) (peer : Peer) : Option Datagram → Bool × List UInt8 × Peer
  | none => (false, buf, peer)
  | some d => (acpCrcCheck (recvInto buf d), recvInto buf d, ⟨d.src⟩)

def isdigit (b : UInt8) : Bool := 48 ≤ b && b ≤ 57

/-- The bytes of a C string in an array; reading on past the array is undefined. -/
def cString (a : List UInt8) : Option (List UInt8) :=
  if 0 ∈ a then some (a.takeWhile (· ≠ 0)) else none

/-- The number that decimal digits write. -/
def digitsVal (ds : List UInt8) : ℕ := ds.foldl (fun v d => v * 10 + (d.toNat - 48)) 0

/-- The local variables of the loop of `acp_responseParse`, and the data field. -/
structure ResponseParse where
  data : List UInt8
  block_count : ℕ
  j : ℕ
  f1 : Bool
  seq_str : List UInt8
  id_str : List UInt8
  inl_str : List UInt8
deriving DecidableEq, Repr

/-- How a turn of the loop ends: with the next byte, with `return 0`, or with `break`. -/
inductive ParseTurn where
  | next (s : ResponseParse)
  | fail (s : ResponseParse)
  | done (s : ResponseParse)
deriving DecidableEq, Repr

/-- A store into one of the number strings. -/
def putNum (a : List UInt8) (j : ℕ) (b : UInt8) : Option (List UInt8) :=
  if j < ACP_NUM_STR_LENGTH then some (a.set j b) else none

def responseParseByte (data_size : ℕ) (b : UInt8) (s : ResponseParse) : Option ParseTurn :=
  if b = ACP_DELIMITER_BLOCK then
    some (.next { s with block_count := s.block_count + 1, j := 0 })
  else
    match s.block_count with
    -- the sequence number, a tab, `is_not_last`
    | 0 =>
      if b = ACP_DELIMITER_COLUMN then some (.next { s with f1 := true, j := 0 })
      else if !isdigit b then some (.fail s)
      else if s.f1 then
        (putNum s.inl_str s.j b).map fun a => .next { s with inl_str := a, j := s.j + 1 }
      else (putNum s.seq_str s.j b).map fun a => .next { s with seq_str := a, j := s.j + 1 }
    -- the data; a full data field refuses the response
    | 1 =>
      if s.j < data_size then some (.next { s with data := s.data.set s.j b, j := s.j + 1 })
      else some (.fail s)
    -- the id of the request
    | 2 =>
      if !isdigit b then some (.fail s)
      else (putNum s.id_str s.j b).map fun a => .next { s with id_str := a, j := s.j + 1 }
    | _ => some (.done s)

def responseParseLoop (data_size : ℕ) : List UInt8 → ResponseParse → Option ParseTurn
  | [], s => some (.done s)
  | b :: bs, s =>
    match responseParseByte data_size b s with
    | some (.next s) => responseParseLoop data_size bs s
    | r => r

/-- The end of `acp_responseParse`. `atoi` goes through `long` and keeps the low 32 bits. -/
def responseParseNumbers (item : ACPResponse) (s : ResponseParse) :
    Option (Bool × ACPResponse) :=
  let item := { item with data := s.data }
  (cString s.seq_str).bind fun seq =>
    if seq = [] then some (false, item)
    else (cString s.inl_str).bind fun inl =>
      if inl = [] then some (false, item)
      else (cString s.id_str).bind fun id =>
        if id = [] then some (false, item)
        else some (true, { item with
          seq := UInt32.ofNat (digitsVal seq), is_not_last := Int32.ofNat (digitsVal inl)
          id := UInt32.ofNat (digitsVal id) })

/-- `acp_responseParse`: the result and the response. What is parsed before a refusal stays in
the data field. -/
def acpResponseParse (item : ACPResponse) : Option (Bool × ACPResponse) :=
  if (item.buf.takeWhile (· ≠ 0)).length < ACP_RESPONSE_BUF_SIZE_MIN then some (false, item)
  else
    let str := List.replicate ACP_NUM_STR_LENGTH 0
    match responseParseLoop item.data_size (item.buf.take item.buf_size)
      ⟨item.data, 0, 0, false, str, str, str⟩ with
    | none => none
    | some (.fail s) => some (false, { item with data := s.data })
    -- `break` and the end of the buffer lead to the same numbers
    | some (.next s) | some (.done s) => responseParseNumbers item s

/-- `acp_responseRead` does not look at the result of `acp_responseParse`. -/
def acpResponseRead (item : ACPResponse) (peer : Peer) (d : Option Datagram) :
    Option (Bool × ACPResponse × Peer) :=
  match acpRead item.buf peer d with
  | (false, buf, peer) => some (false, { item with buf := buf }, peer)
  | (true, buf, peer) =>
    (acpResponseParse { item with buf := buf }).map fun p => (true, p.2, peer)

def acpResponseCheck (response : ACPResponse) (request_id : UInt32) : Bool :=
  response.id == request_id

theorem acpRead_peer (buf : List UInt8) (peer : Peer) (d : Option Datagram) :
    (acpRead buf peer d).2.2 = ⟨(d.map Datagram.src).getD peer.addr⟩ := by cases d <;> rfl

/-- What a read leaves in the peer; without a datagram there is no response. -/
theorem acpResponseRead_peer {item item' : ACPResponse} {peer peer' : Peer}
    {d : Option Datagram} {ok : Bool}
    (h : acpResponseRead item peer d = some (ok, item', peer')) :
    peer' = ⟨(d.map Datagram.src).getD peer.addr⟩ ∧ (d = none → ok = false) := by
  have hp := acpRead_peer item.buf peer d
  unfold acpResponseRead at h
  rcases hr : acpRead item.buf peer d with ⟨_ | _, buf, p⟩ <;> rw [hr] at h hp
  · cases h
    exact ⟨hp, fun _ => rfl⟩
  · rw [Option.map_eq_some_iff] at h
    obtain ⟨q, -, he⟩ := h
    cases he
    refine ⟨hp, fun hd => ?_⟩
    rw [hd] at hr
    cases hr

/-- The response that a complete parse leaves. -/
theorem responseParseNumbers_true {item item' : ACPResponse} {s : ResponseParse} :
    responseParseNumbers item s = some (true, item') ↔
      ∃ seq inl id, cString s.seq_str = some seq ∧ seq ≠ [] ∧ cString s.inl_str = some inl ∧
        inl ≠ [] ∧ cString s.id_str = some id ∧ id ≠ [] ∧
        item' = { item with
          data := s.data, seq := UInt32.ofNat (digitsVal seq)
          is_not_last := Int32.ofNat (digitsVal inl), id := UInt32.ofNat (digitsVal id) } := by
  unfold responseParseNumbers
  constructor
  · intro h
    obtain ⟨seq, hs, h⟩ := Option.bind_eq_some_iff.mp h
    split_ifs at h with hs'
    · cases h
    obtain ⟨inl, hi, h⟩ := Option.bind_eq_some_iff.mp h
    split_ifs at h with hi'
    · cases h
    obtain ⟨id, hn, h⟩ := Option.bind_eq_some_iff.mp h
    split_ifs at h with hn'
    · cases h
    cases h
    exact ⟨seq, inl, id, hs, hs', hi, hi', hn, hn', rfl⟩
  · rintro ⟨seq, inl, id, hs, hs', hi, hi', hn, hn', rfl⟩
    simp only [hs, hi, hn, Option.bind_some, hs', hi', hn', ↓reduceIte]

/-- A response that is parsed does not depend on the id it starts with. -/
theorem acpResponseParse_id {item item' : ACPResponse}
    (h : acpResponseParse item = some (true, item')) (id : UInt32) :
    acpResponseParse { item with id := id } = some (true, item') := by
  unfold acpResponseParse at h ⊢
  dsimp only at h ⊢
  split_ifs at h ⊢
  · cases h
  · rcases hr : responseParseLoop item.data_size (item.buf.take item.buf_size) _ with
      _ | s | s | s <;> rw [hr] at h
    · cases h
    · have hn := responseParseNumbers_true.mp h
      exact responseParseNumbers_true.mpr hn
    · cases h
    · have hn := responseParseNumbers_true.mp h
      exact responseParseNumbers_true.mpr hn

end Regonf
