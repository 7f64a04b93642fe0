import Mathlib.Data.List.Nodup
import Mathlib.Data.Rat.Defs
import Regonf.Lib.Controller
import Regonf.Lib.Rows
import Regonf.Acp

/-! `acp_readSensorFTS` from the datagram to the sensor, and a sensor on a socket: the queue of
its datagrams and one read for each request. `scanF` is the conversion `%f` of `sscanf`, the
value and the rest of the input. -/
namespace Regonf

variable {R V : Type*}

def isspace (b : UInt8) : Bool := b == 32 || (9 ≤ b && b ≤ 13)

/-- `%ld` of `sscanf`: the value, held to the range of `long`, and the rest of the input. -/
def scanLong (s : List UInt8) : Option (ℤ × List UInt8) :=
  let s := s.dropWhile isspace
  let neg := s.head? == some 45
  let s := if neg || s.head? == some 43 then s.tail else s
  let ds := s.takeWhile isdigit
  if ds = [] then none
  else
    let v : ℤ := if neg then -digitsVal ds else digitsVal ds
    some (max (-2 ^ 63) (min v (2 ^ 63 - 1)), s.dropWhile isdigit)

/-- `%d` of `sscanf`: the low 32 bits of the `long`. -/
def scanInt (s : List UInt8) : Option (ℤ × List UInt8) :=
  (scanLong s).map fun r => (r.1.bmod (2 ^ 32), r.2)

/-- `%f` for the rational numbers, of a plain decimal without exponent. -/
def scanDecimal (s : List UInt8) : Option (ℚ × List UInt8) :=
  let s := s.dropWhile isspace
  let neg := s.head? == some 45
  let s := if neg || s.head? == some 43 then s.tail else s
  let ip := s.takeWhile isdigit
  let r := s.dropWhile isdigit
  let fp := if r.head? == some 46 then r.tail.takeWhile isdigit else []
  let r := if r.head? == some 46 then r.tail.dropWhile isdigit else r
  if ip ++ fp = [] then none
  else
    let v : ℚ := mkRat (digitsVal (ip ++ fp)) (10 ^ fp.length)
    some (if neg then -v else v, r)

/-- The `sscanf` of `acp_dataToFTSList`; the tabs of its format match any blanks. -/
def sscanfFTS (scanF : List UInt8 → Option (R × List UInt8)) (s : List UInt8) :
    Option (FTS R) :=
  (scanInt s).bind fun id => (scanF id.2).bind fun value =>
    (scanLong value.2).bind fun sec => (scanLong sec.2).bind fun nsec =>
      (scanInt nsec.2).map fun state =>
        { id := id.1, value := value.1, tm := ⟨sec.1, nsec.1⟩, state := state.1 }

def acpBufnrow (v : List UInt8) : List UInt8 :=
  let v := (v.dropWhile (· ≠ ACP_DELIMITER_ROW)).tail
  if v.head? == some ACP_DELIMITER_BLOCK then [] else v

/-- The loop of `acp_dataTo*List` on a list of the given `max_length`. -/
def acpDataToList (scan : List UInt8 → Option V) (max_length : ℕ) (buf : List UInt8) : List V :=
  Rows.readRows scan acpBufnrow max_length buf

def acpDataToFTSList (scanF : List UInt8 → Option (R × List UInt8)) :
    ℕ → List UInt8 → List (FTS R) := acpDataToList (sscanfFTS scanF)

/-- The string that starts at the data field; the buffer follows the field in the struct. -/
def ACPResponse.dataString (item : ACPResponse) : List UInt8 :=
  (item.data ++ item.buf).takeWhile (· ≠ 0)

/-- The `acp_responseRead*List` functions, which `FUN_ACP_RESPONSE_READ` defines, with the id of the
request; `id₀` is the id the response starts with. -/
def acpResponseReadList (decode : List UInt8 → List V) (request_id id₀ : UInt32) (peer : Peer)
    (d : Option Datagram) : Option (Bool × List V × Peer) :=
  (acpResponseRead (acpResponseInit id₀) peer d).map fun r =>
    if r.1 && acpResponseCheck r.2.1 request_id then (true, decode r.2.1.dataString, r.2.2)
    else (false, [], r.2.2)

def acpResponseReadFTSList (scanF : List UInt8 → Option (R × List UInt8)) (max_length : ℕ) :
    UInt32 → UInt32 → Peer → Option Datagram → Option (Bool × List (FTS R) × Peer) :=
  acpResponseReadList (acpDataToFTSList scanF max_length)

/-- `memset` of the first `n` bytes of an object of `size` bytes, undefined behind its end. -/
def memset (size n : ℕ) : Option Unit := if n ≤ size then some () else none

/-! The sizes of `FTS` and `I2`, and of a list of either: a pointer and two `size_t`. -/

def sizeofFTS : ℕ := 32
def sizeofI2 : ℕ := 8
def sizeofList : ℕ := 24

@[simp] theorem memset_sizeofFTS : memset sizeofFTS sizeofList = some () := rfl

@[simp] theorem memset_sizeofI2 : memset sizeofI2 sizeofList = none := rfl

/-- The checks of `acp_readSensorFTS` on the list it got: one item, with the sensor's id and in
state 1. -/
def acpCheckFTS (remote_id : ℤ) (ok : Bool) : List (FTS R) → Option (FTS R)
  | [fts] => if ok && fts.id == remote_id && fts.state == 1 then some fts else none
  | _ => none

/-- `acp_readSensorFTS` after its request, which had the id `request_id`. The code reads on
whether or not the request could be sent. -/
def acpReadSensorFTS (scanF : List UInt8 → Option (R × List UInt8)) (s : SensorFTS R)
    (request_id id₀ : UInt32) (d : Option Datagram) : Option (Bool × SensorFTS R) :=
  let s := { s with value := { s.value with state := 0 } }
  -- the size is that of the list, not of its item
  (memset sizeofFTS sizeofList).bind fun _ =>
  (acpResponseReadFTSList scanF 1 request_id id₀ s.peer d).map fun r =>
    let s := { s with peer := r.2.2 }
    match acpCheckFTS s.remote_id r.1 r.2.1 with
    | some fts => (true, { s with value := fts })
    | none => (false, s)

theorem acpCheckFTS_some {remote_id : ℤ} {ok : Bool} {tl : List (FTS R)} {fts : FTS R}
    (h : acpCheckFTS remote_id ok tl = some fts) :
    ok = true ∧ tl = [fts] ∧ fts.id = remote_id ∧ fts.state = 1 := by
  unfold acpCheckFTS at h
  split at h
  · split_ifs at h with hc
    cases h
    simp only [Bool.and_eq_true, beq_iff_eq] at hc
    exact ⟨hc.1.1, rfl, hc.1.2, hc.2⟩
  · cases h

/-- What the read of a list takes from the datagram. -/
theorem acpResponseReadList_spec {decode : List UInt8 → List V} {request_id id₀ : UInt32}
    {peer peer' : Peer} {d : Option Datagram} {ok : Bool} {tl : List V}
    (h : acpResponseReadList decode request_id id₀ peer d = some (ok, tl, peer')) :
    peer' = ⟨(d.map Datagram.src).getD peer.addr⟩ ∧ (d = none → ok = false) := by
  unfold acpResponseReadList at h
  rw [Option.map_eq_some_iff] at h
  obtain ⟨⟨got, item, p⟩, hr, he⟩ := h
  obtain ⟨hp, hn⟩ := acpResponseRead_peer hr
  dsimp only at he
  split_ifs at he with hc
  · cases he
    refine ⟨hp, fun hd => ?_⟩
    simp [hn hd] at hc
  · cases he
    exact ⟨hp, fun _ => rfl⟩

/-- The regulator's view of the read: each outcome is that of one `Reply`, and a value that is
taken is the sensor's and is in state 1. -/
theorem acpReadSensorFTS_reply {scanF : List UInt8 → Option (R × List UInt8)}
    {s s' : SensorFTS R} {request_id id₀ : UInt32} {d : Option Datagram} {ok : Bool}
    (h : acpReadSensorFTS scanF s request_id id₀ d = some (ok, s')) :
    ∃ r : Reply R, r.src? = d.map Datagram.src ∧ ok = r.fts?.isSome ∧
      s' = readSensorFTS s r ∧ ∀ f, r.fts? = some f → f.id = s.remote_id ∧ f.state = 1 := by
  unfold acpReadSensorFTS at h
  dsimp only at h
  rw [memset_sizeofFTS, Option.bind_some, Option.map_eq_some_iff] at h
  obtain ⟨⟨got, tl, peer⟩, hr, he⟩ := h
  obtain ⟨hp, hn⟩ := acpResponseReadList_spec hr
  dsimp only at he hp
  -- a list that is not taken leaves the state 0 that the call began with
  rcases hc : acpCheckFTS s.remote_id got tl with _ | fts <;> rw [hc] at he <;> cases he
  · rw [hp]
    cases d with
    | none => exact ⟨.timeout, rfl, rfl, rfl, fun _ h => by cases h⟩
    | some d => exact ⟨.refused d.src, rfl, rfl, rfl, fun _ h => by cases h⟩
  · obtain ⟨hgot, -, hid, hstate⟩ := acpCheckFTS_some hc
    rw [hp]
    cases d with
    | none => exact absurd (hn rfl) (by simp [hgot])
    | some d =>
      exact ⟨.value d.src fts, rfl, rfl, rfl, fun f h => by cases h; exact ⟨hid, hstate⟩⟩

/-- The response into which a datagram is received. -/
def receivedResponse (d : Datagram) : ACPResponse :=
  { acpResponseInit 0 with buf := recvInto (acpResponseInit 0).buf d }

theorem receivedResponse_buf (d : Datagram) :
    (receivedResponse d).buf = recvInto (List.replicate ACP_BUFFER_MAX_SIZE 0) d := rfl

/-- A valid reply to the request `id` for the sensor `remote_id`: it passes the CRC check, is
parsed, carries the id, and its row is the sensor's in state 1. -/
def ValidReply (scanF : List UInt8 → Option (R × List UInt8)) (remote_id : ℤ) (id : UInt32)
    (d : Datagram) : Prop :=
  acpCrcCheck (receivedResponse d).buf = true ∧
    ∃ item fts, acpResponseParse (receivedResponse d) = some (true, item) ∧ item.id = id ∧
      acpDataToFTSList scanF 1 item.dataString = [fts] ∧ fts.id = remote_id ∧ fts.state = 1

/-- A read that gets a valid reply succeeds exactly when the reply is to its own request. -/
theorem acpReadSensorFTS_valid {scanF : List UInt8 → Option (R × List UInt8)}
    {s : SensorFTS R} {id request_id : UInt32} {d : Datagram}
    (hv : ValidReply scanF s.remote_id id d) (id₀ : UInt32) :
    ∃ s', acpReadSensorFTS scanF s request_id id₀ (some d) = some (decide (id = request_id), s') ∧
      s'.remote_id = s.remote_id := by
  obtain ⟨hcrc, item, fts, hparse, rfl, hdata, hid, hstate⟩ := hv
  have hresp : ∀ peer, acpResponseRead (acpResponseInit id₀) peer (some d) =
      some (true, item, ⟨d.src⟩) := by
    intro peer
    have hp : acpResponseParse { acpResponseInit id₀ with buf := (receivedResponse d).buf } =
        some (true, item) := acpResponseParse_id hparse id₀
    have hb : acpRead (acpResponseInit id₀).buf peer (some d) =
        (true, (receivedResponse d).buf, ⟨d.src⟩) := by
      rw [receivedResponse_buf] at hcrc ⊢
      simp only [acpRead, acpResponseInit_buf, hcrc]
    unfold acpResponseRead
    rw [hb]
    dsimp only
    rw [hp, Option.map_some]
  unfold acpReadSensorFTS acpResponseReadFTSList acpResponseReadList
  simp only [memset_sizeofFTS, Option.bind_some, hresp, Option.map_some, Bool.true_and,
    acpResponseCheck]
  -- the id is all that the read still looks at
  by_cases he : item.id = request_id
  · simp [he, hdata, acpCheckFTS, hid, hstate]
  · simp [he, acpCheckFTS]

/-- One read of the sensor: the id of its request, what the stack holds in the place of the
response's id, and the datagrams that arrive on the socket before the read. -/
structure Round where
  request_id : UInt32
  id₀ : UInt32
  arrivals : List Datagram

/-- The sensor and the queue of its socket. A read takes one datagram, the oldest. -/
def sensorStep (scanF : List UInt8 → Option (R × List UInt8))
    (st : SensorFTS R × List Datagram) (r : Round) :
    Option ((SensorFTS R × List Datagram) × List Bool) :=
  let queue := st.2 ++ r.arrivals
  (acpReadSensorFTS scanF st.1 r.request_id r.id₀ queue.head?).map fun p =>
    ((p.2, queue.tail), [p.1])

/-- With valid replies only, each read compares its request with the oldest reply: the replies
lag behind the requests by the length of the queue at the start. -/
theorem run_valid_replies {scanF : List UInt8 → Option (R × List UInt8)} {s : SensorFTS R}
    {ids : List UInt32} {queue : List Datagram} {rounds : List Round}
    (hq : List.Forall₂ (ValidReply scanF s.remote_id) ids queue)
    (hr : ∀ r ∈ rounds, ∃ d, r.arrivals = [d] ∧ ValidReply scanF s.remote_id r.request_id d) :
    ∃ t, Controller.run (sensorStep scanF) (s, queue) rounds =
      some (t, List.zipWith (fun a b => decide (a = b))
        (ids ++ rounds.map Round.request_id) (rounds.map Round.request_id)) := by
  -- each read takes the front of the queue and its own reply joins the end, so the queue stays
  -- a queue of valid replies of the same length
  induction rounds generalizing s ids queue with
  | nil => exact ⟨(s, queue), by simp⟩
  | cons r rounds ih =>
    obtain ⟨d, hd, hv⟩ := hr r List.mem_cons_self
    have hq' : List.Forall₂ (ValidReply scanF s.remote_id) (ids ++ [r.request_id])
        (queue ++ [d]) := List.rel_append hq (.cons hv .nil)
    rw [List.map_cons, List.append_cons]
    obtain ⟨id, ids', hids⟩ := List.exists_cons_of_ne_nil
      (List.append_ne_nil_of_right_ne_nil ids (List.cons_ne_nil r.request_id []))
    obtain ⟨d', queue', hqueue⟩ := List.exists_cons_of_ne_nil
      (List.append_ne_nil_of_right_ne_nil queue (List.cons_ne_nil d []))
    rw [hids, hqueue, List.forall₂_cons] at hq'
    obtain ⟨s', hread, hrem⟩ : ∃ s', acpReadSensorFTS scanF s r.request_id r.id₀ (some d') =
        some (decide (id = r.request_id), s') ∧ s'.remote_id = s.remote_id :=
      acpReadSensorFTS_valid hq'.1 r.id₀
    have hstep : sensorStep scanF (s, queue) r =
        some ((s', queue'), [decide (id = r.request_id)]) := by
      simp only [sensorStep, hd, hqueue, List.head?_cons, hread, Option.map_some, List.tail_cons]
    obtain ⟨t, ht⟩ := ih (s := s') (by rw [hrem]; exact hq'.2) fun q hmem => by
      rw [hrem]
      exact hr q (List.mem_cons_of_mem r hmem)
    refine ⟨t, Controller.run_cons_some.mpr ⟨_, _, _, hstep, ht, ?_⟩⟩
    rw [hids]
    rfl

/-- A list compared with itself behind other elements. -/
theorem zipWith_lag {α : Type*} [DecidableEq α] {as bs : List α} (hb : bs.Nodup)
    (hd : ∀ b ∈ bs, b ∉ as) :
    List.zipWith (fun a b => decide (a = b)) (as ++ bs) bs =
      List.replicate bs.length as.isEmpty := by
  cases as with
  | nil =>
    rw [List.nil_append, List.zipWith_self, List.eq_replicate_iff]
    simp
  | cons a as =>
    rw [List.eq_replicate_iff]
    refine ⟨by simp; omega, fun x hx => ?_⟩
    obtain ⟨i, hi, rfl⟩ := List.mem_iff_getElem.mp hx
    rw [List.length_zipWith] at hi
    have hib : i < bs.length := by omega
    rw [List.getElem_zipWith, List.isEmpty_cons, decide_eq_false_iff_not]
    intro he
    -- at `i` stands an element of `as`, or one of `bs` from an earlier place
    rcases Nat.lt_or_ge i (a :: as).length with hlt | hge
    · rw [List.getElem_append_left hlt] at he
      exact hd _ (List.getElem_mem hib) (he ▸ List.getElem_mem hlt)
    · rw [List.getElem_append_right hge] at he
      have := (List.Nodup.getElem_inj_iff hb).mp he
      rw [List.length_cons] at this hge
      omega

/-- A reply to a request with a one-digit id: sensor 1 is at 21.5 degrees. -/
def exampleReply (id_digit crc : UInt8) : Datagram :=
  ⟨⟨0x7f000001, 49178⟩, [48, 9, 48, 13, 49, 9, 50, 49, 46, 53, 48, 48, 9, 49, 48, 48, 9, 48, 9,
    49, 10, 13, id_digit, 13, crc]⟩

theorem validReply_of_eval {d : Datagram} {id : UInt32}
    (hc : acpCrcCheck (receivedResponse d).buf = true)
    (hp : ((acpResponseParse (receivedResponse d)).map fun r =>
      (r.1, r.2.id, acpDataToFTSList scanDecimal 1 r.2.dataString)) =
        some (true, id, [⟨1, 43 / 2, ⟨100, 0⟩, 1⟩])) :
    ValidReply scanDecimal 1 id d := by
  obtain ⟨⟨ok, item⟩, hr, he⟩ := Option.map_eq_some_iff.mp hp
  simp only [Prod.mk.injEq] at he
  obtain ⟨rfl, rfl, hd⟩ := he
  exact ⟨hc, item, _, hr, rfl, hd, rfl, rfl⟩

theorem exampleReply_valid :
    ValidReply scanDecimal 1 7 (exampleReply 55 138) ∧
      ValidReply scanDecimal 1 8 (exampleReply 56 146) ∧
      ValidReply scanDecimal 1 9 (exampleReply 57 86) :=
  ⟨validReply_of_eval (by decide +kernel) (by decide +kernel),
    validReply_of_eval (by decide +kernel) (by decide +kernel),
    validReply_of_eval (by decide +kernel) (by decide +kernel)⟩

def exampleSensor : SensorFTS ℚ :=
  ⟨1, 1, ⟨⟨0x7f000001, 49178⟩⟩, ⟨0, 0, ⟨0, 0⟩, 0⟩⟩

/-- Two requests, 8 and 9, each with its own reply in time. -/
def exampleRounds : List Round :=
  [⟨8, 0, [exampleReply 56 146]⟩, ⟨9, 0, [exampleReply 57 86]⟩]

theorem exampleRounds_valid : ∀ r ∈ exampleRounds, ∃ d, r.arrivals = [d] ∧
    ValidReply scanDecimal exampleSensor.remote_id r.request_id d := by
  obtain ⟨-, h₈, h₉⟩ := exampleReply_valid
  simp only [exampleRounds, List.forall_mem_cons, List.not_mem_nil, false_implies, implies_true,
    and_true]
  exact ⟨⟨_, rfl, h₈⟩, ⟨_, rfl, h₉⟩⟩

/-- A sensor whose socket holds replies to earlier requests, while each request's own reply
arrives before its read: with no such reply every read succeeds, with one or more every read
fails. So no more reads fail before the first success than there were replies in the queue
if and only if there was none, or the run is no longer than that. -/
theorem stale_replies_block {scanF : List UInt8 → Option (R × List UInt8)} {s : SensorFTS R}
    {ids : List UInt32} {queue : List Datagram} {rounds : List Round}
    (hq : List.Forall₂ (ValidReply scanF s.remote_id) ids queue)
    (hr : ∀ r ∈ rounds, ∃ d, r.arrivals = [d] ∧ ValidReply scanF s.remote_id r.request_id d)
    (hnew : ∀ id ∈ rounds.map Round.request_id, id ∉ ids)
    (hnodup : (rounds.map Round.request_id).Nodup) :
    ∃ t results, Controller.run (sensorStep scanF) (s, queue) rounds = some (t, results) ∧
      results = List.replicate rounds.length queue.isEmpty ∧
      ((results.takeWhile (!·)).length ≤ queue.length ↔
        queue = [] ∨ rounds.length ≤ queue.length) := by
  obtain ⟨t, ht⟩ := run_valid_replies hq hr
  have hlen := hq.length_eq
  rw [zipWith_lag hnodup hnew, List.length_map] at ht
  -- the queue and the list of its ids are empty together
  have hempty : ids.isEmpty = queue.isEmpty := by
    cases ids <;> cases queue <;> simp_all
  rw [hempty] at ht
  refine ⟨t, _, ht, rfl, ?_⟩
  cases queue with
  | nil => simp
  | cons d queue => simp

/-- The last theorem for the reply to request 7 that arrives late. -/
theorem stale_replies_block_example :
    ∃ t results, Controller.run (sensorStep scanDecimal) (exampleSensor, [exampleReply 55 138])
        exampleRounds = some (t, results) ∧
      results = List.replicate exampleRounds.length false ∧
      ((results.takeWhile (!·)).length ≤ 1 ↔
        [exampleReply 55 138] = [] ∨ exampleRounds.length ≤ 1) :=
  stale_replies_block (.cons exampleReply_valid.1 .nil) exampleRounds_valid
    (by simp [exampleRounds]) (by decide)

/-- With the late reply to request 7 in the queue, both later reads fail. -/
theorem late_reply_blocks :
    ValidReply scanDecimal exampleSensor.remote_id 7 (exampleReply 55 138) ∧
      (∀ r ∈ exampleRounds, ∃ d, r.arrivals = [d] ∧
        ValidReply scanDecimal exampleSensor.remote_id r.request_id d) ∧
      (7 :: exampleRounds.map Round.request_id).Nodup ∧
      ∃ t results, Controller.run (sensorStep scanDecimal)
          (exampleSensor, [exampleReply 55 138]) exampleRounds = some (t, results) ∧
        ¬(results.takeWhile (!·)).length ≤ 1 := by
  obtain ⟨t, ht⟩ := run_valid_replies (.cons exampleReply_valid.1 .nil)
    exampleRounds_valid
  exact ⟨exampleReply_valid.1, exampleRounds_valid, by decide, t, _, ht, by decide⟩

end Regonf
