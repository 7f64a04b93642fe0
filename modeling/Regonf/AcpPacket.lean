import Regonf.Acp
import Regonf.Lib.Blocks
import Regonf.Lib.Decimal

/-! The packets of `lib/acp/main.c`: how a request and a response are built and sent, and how the
server receives a request. A C string is the list of its bytes in front of the NUL. -/
namespace Regonf

open Blocks

def ACP_COMMAND_MAX_SIZE : ℕ := 16
def ACP_REQUEST_BUF_SIZE_MIN : ℕ := 7

/-- `%u`. -/
def fmtU (n : UInt32) : List UInt8 := Decimal.write n.toNat

/-- `%d` and `%ld`. -/
def fmtD (v : ℤ) : List UInt8 :=
  if v < 0 then 45 :: Decimal.write v.natAbs else Decimal.write v.natAbs

/-- `strncpy(dst, src, n)` into an array of at least `n` bytes. -/
def strncpy (dst src : List UInt8) (n : ℕ) : List UInt8 :=
  writeAt dst 0 ((src ++ List.replicate n 0).take n)

/-- `strcat`; the array must have room for the string and its NUL. -/
def strcat (dst src : List UInt8) : Option (List UInt8) :=
  (cString dst).bind fun s =>
    if s.length + src.length < dst.length then some (writeAt dst s.length (src ++ [0])) else none

/-- `snprintf` of a text into an array of at least `size` bytes. -/
def snprintf (buf : List UInt8) (size : ℕ) (text : List UInt8) : List UInt8 :=
  writeAt buf 0 (text.take (size - 1) ++ [0])

/-- `crc_update_by_str`. -/
def crcUpdateByStr (crc : UInt8) (str : List UInt8) : UInt8 := str.foldl crcUpdate crc

structure ACPRequest where
  cmd : List UInt8
  data : List UInt8
  buf : List UInt8
  id : UInt32
  cmd_size : ℕ
  data_size : ℕ
  buf_size : ℕ
  data_rows_count : ℕ
  crc : UInt8
deriving DecidableEq, Repr

/-- `ACPResponse` with the two fields that only its sender looks at. -/
structure ACPResponseOut extends ACPResponse where
  crc : UInt8
  last_is_ok : Bool
deriving DecidableEq, Repr

/-- `acp_requestInit`; the id and the row count keep what the stack held. -/
def acpRequestInit (item : ACPRequest) : ACPRequest :=
  { item with
    cmd := List.replicate ACP_COMMAND_MAX_SIZE 0, data := List.replicate ACP_DATA_MAX_SIZE 0
    buf := List.replicate ACP_BUFFER_MAX_SIZE 0
    cmd_size := ACP_COMMAND_MAX_SIZE, data_size := ACP_DATA_MAX_SIZE
    buf_size := ACP_BUFFER_MAX_SIZE, crc := 0 }

/-- `acp_responseInit` for a response that is to be sent. -/
def acpResponseOutInit (id : UInt32) : ACPResponseOut :=
  { acpResponseInit id with crc := 0, last_is_ok := true }

/-- `acp_responseCoopRequest`. -/
def acpResponseCoopRequest (response : ACPResponseOut) (request_id : UInt32) : ACPResponseOut :=
  { response with id := request_id }

def acpRequestSetCmd (item : ACPRequest) (cmd : List UInt8) : ACPRequest :=
  { item with cmd := strncpy item.cmd cmd item.cmd_size }

/-- The body of `acp_requestStrCat` and `acp_responseStrCat` on the data field. -/
def dataStrCat (data : List UInt8) (data_size : ℕ) (str : List UInt8) :
    Option (Bool × List UInt8) :=
  (cString data).bind fun s =>
    if s.length + str.length + 1 ≥ data_size then some (false, data)
    else (strcat data str).map fun d => (true, d)

def acpRequestStrCat (item : ACPRequest) (str : List UInt8) : Option (Bool × ACPRequest) :=
  (dataStrCat item.data item.data_size str).map fun r => (r.1, { item with data := r.2 })

/-- Calls of `acp_requestStrCat` one after another, up to the first that fails. -/
def acpRequestStrCats : ACPRequest → List (List UInt8) → Option (Bool × ACPRequest)
  | item, [] => some (true, item)
  | item, q :: qs =>
    (acpRequestStrCat item q).bind fun r =>
      if r.1 then acpRequestStrCats r.2 qs else some (false, r.2)

def acpResponseStrCat (item : ACPResponseOut) (str : List UInt8) :
    Option (Bool × ACPResponseOut) :=
  (dataStrCat item.data item.data_size str).map fun r => (r.1, { item with data := r.2 })

/-- The end of `acp_requestPack` and `acp_responsePack`: the text, its CRC, and the CRC byte
behind it. A CRC of 0 is an empty string to `strcat`. -/
def packText (buf : List UInt8) (buf_size : ℕ) (crc : UInt8) (text : List UInt8) :
    Option (List UInt8 × UInt8) :=
  let buf := snprintf buf buf_size text
  (cString buf).bind fun s =>
    let crc := crcUpdateByStr crc s
    (strcat buf (if crc = 0 then [] else [crc])).map fun b => (b, crc)

/-- `acp_requestPack` with the random number `id` of `acp_requestSetNewId`. -/
def acpRequestPack (item : ACPRequest) (id : UInt32) : Option ACPRequest :=
  (cString item.cmd).bind fun cmd => (cString item.data).bind fun data =>
    (packText item.buf item.buf_size item.crc
      (cmd ++ ACP_DELIMITER_BLOCK :: data ++ ACP_DELIMITER_BLOCK :: fmtU id ++
        [ACP_DELIMITER_BLOCK])).map fun r => { item with id := id, buf := r.1, crc := r.2 }

def acpResponsePack (item : ACPResponseOut) : Option ACPResponseOut :=
  (cString item.data).bind fun data =>
    (packText item.buf item.buf_size item.crc
      (fmtU item.seq ++ ACP_DELIMITER_COLUMN :: fmtD item.is_not_last.toInt ++
        ACP_DELIMITER_BLOCK :: data ++ ACP_DELIMITER_BLOCK :: fmtU item.id ++
        [ACP_DELIMITER_BLOCK])).map fun r => { item with buf := r.1, crc := r.2 }

/-- The loop of `acp_packlen`: the state counts the delimiters, then the CRC byte. -/
def acpPacklenFrom (state n : ℕ) : List UInt8 → ℕ
  | [] => 0
  | b :: bs =>
    match state with
    -- the CRC byte may be a delimiter or a NUL, so it is counted without a look
    | 3 => acpPacklenFrom 4 (n + 1) bs
    | 4 => n + 1
    | _ => acpPacklenFrom (if b = ACP_DELIMITER_BLOCK then state + 1 else state) (n + 1) bs

def acpPacklen (buf : List UInt8) : ℕ := acpPacklenFrom 0 0 buf

/-- `sendBuf`; `sendto` says what comes back for the bytes that are handed to it, and an error is
turned into 0. -/
def sendBuf (buf : List UInt8) (sendto : List UInt8 → ℤ) : ℤ :=
  let n := sendto buf
  if n < 0 then 0 else n

/-- A `sendto` that sends all that it gets. -/
def sendtoAll (buf : List UInt8) : ℤ := buf.length

/-- `acp_sendBuf`: its result, and the bytes handed to `sendto`. -/
def acpSendBuf (buf : List UInt8) (sendto : List UInt8 → ℤ) : ℤ × List UInt8 :=
  let sz := acpPacklen buf
  (sendBuf (buf.take sz) sendto, buf.take sz)

def acpRequestSend (request : ACPRequest) (id : UInt32) (sendto : List UInt8 → ℤ) :
    Option (ℤ × ACPRequest × List UInt8) :=
  (acpRequestPack request id).map fun r =>
    let s := acpSendBuf (r.buf.take r.buf_size) sendto
    (s.1, r, s.2)

def acpResponseSend (response : ACPResponseOut) (sendto : List UInt8 → ℤ) :
    Option (ℤ × ACPResponseOut × List UInt8) :=
  (acpResponsePack response).map fun r =>
    let s := acpSendBuf (r.buf.take r.buf_size) sendto
    (s.1, r, s.2)

/-- `acp_responseSendStr`, with the datagram if one is handed to `sendto`. -/
def acpResponseSendStr (s : List UInt8) (is_not_last : Int32) (response : ACPResponseOut)
    (sendto : List UInt8 → ℤ) : Option (ACPResponseOut × Option (List UInt8)) :=
  if !response.last_is_ok then some (response, none)
  else
    let response := { response with
      is_not_last := is_not_last, data := strncpy response.data s response.data_size, crc := 0 }
    (acpResponseSend response sendto).map fun r =>
      if r.1 > 0 then ({ r.2.1 with seq := r.2.1.seq + 1, last_is_ok := true }, some r.2.2)
      else ({ r.2.1 with last_is_ok := false }, some r.2.2)

/-- The loop of `acp_countDataRows`. -/
def countDataRows : List UInt8 → ℕ
  | [] => 0
  | b :: bs => if b = 0 then 0 else countDataRows bs + if b = ACP_DELIMITER_ROW then 1 else 0

def acpCountDataRows (item : ACPRequest) : ACPRequest :=
  { item with data_rows_count := countDataRows (item.data.take item.data_size) }

/-- The local variables of the loop of `acp_requestParse`, and the two fields it fills. -/
structure RequestParse where
  cmd : List UInt8
  data : List UInt8
  block_count : ℕ
  j : ℕ
  id_str : List UInt8
deriving DecidableEq, Repr

/-- How a turn of the loop of `acp_requestParse` ends. -/
inductive RequestTurn where
  | next (s : RequestParse)
  | fail (s : RequestParse)
  | done (s : RequestParse)
deriving DecidableEq, Repr

def requestParseByte (cmd_size data_size : ℕ) (b : UInt8) (s : RequestParse) :
    Option RequestTurn :=
  if b = ACP_DELIMITER_BLOCK then
    some (.next { s with block_count := s.block_count + 1, j := 0 })
  else
    match s.block_count with
    -- the command; a full field refuses the request, like a full data field
    | 0 =>
      if s.j < cmd_size then some (.next { s with cmd := s.cmd.set s.j b, j := s.j + 1 })
      else some (.fail s)
    | 1 =>
      if s.j < data_size then some (.next { s with data := s.data.set s.j b, j := s.j + 1 })
      else some (.fail s)
    -- nothing checks the index here
    | 2 =>
      if !isdigit b then some (.fail s)
      else (putNum s.id_str s.j b).map fun a => .next { s with id_str := a, j := s.j + 1 }
    | _ => some (.done s)

def requestParseLoop (cmd_size data_size : ℕ) : List UInt8 → RequestParse → Option RequestTurn
  | [], s => some (.done s)
  | b :: bs, s =>
    match requestParseByte cmd_size data_size b s with
    | some (.next s) => requestParseLoop cmd_size data_size bs s
    | r => r

/-- `acp_requestParse`: the result and the request. A request without an id is not refused, it
has the id 0. -/
def acpRequestParse (item : ACPRequest) : Option (Bool × ACPRequest) :=
  if (item.buf.takeWhile (· ≠ 0)).length < ACP_REQUEST_BUF_SIZE_MIN then some (false, item)
  else
    match requestParseLoop item.cmd_size item.data_size (item.buf.take item.buf_size)
      ⟨item.cmd, item.data, 0, 0, List.replicate ACP_NUM_STR_LENGTH 0⟩ with
    | none => none
    | some (.fail s) => some (false, { item with cmd := s.cmd, data := s.data })
    | some (.next s) | some (.done s) =>
      (cString s.id_str).map fun id =>
        (true, { acpCountDataRows { item with cmd := s.cmd, data := s.data } with
          id := UInt32.ofNat (digitsVal id) })

def acpRequestRead (item : ACPRequest) (peer : Peer) (d : Option Datagram) :
    Option (Bool × ACPRequest × Peer) :=
  match acpRead item.buf peer d with
  | (false, buf, peer) => some (false, { item with buf := buf }, peer)
  | (true, buf, peer) =>
    (acpRequestParse { item with buf := buf }).map fun p => (p.1, p.2, peer)

/-- `acp_cmdcmp` on the buffer of the request; a read behind it is undefined. -/
def acpCmdcmp (request : ACPRequest) (cmd : List UInt8) : Option Bool :=
  let n := min cmd.length request.buf_size
  if (request.buf.take n != cmd.take n) || n == 0 then some false
  else request.buf[n]?.map fun b => b == ACP_DELIMITER_BLOCK

end Regonf
