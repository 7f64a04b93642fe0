import Regonf.ServerAnswers
import Regonf.ServerCommands

/-! One daemon that asks another: the request, what the server of the other takes it for, its
answer, and what the first one makes of it. -/
namespace Regonf

open Blocks Rows

/-- A daemon as its server shows it: whether it has its data, the programs that it finds, the `%f`
of its `sscanf`, and what is in the place of the variables of `serverRun`. -/
structure Host where
  init_state : Bool
  scanF : List UInt8 → Option (ℚ × List UInt8)
  progs : ℤ → Option Seen
  stack : Stack
  srv : ACPRequest
  peer_client : Peer
  id₀ : UInt32

/-- What is sent back for a request. The three commands with long texts are left out. -/
def Handled.reply (s : Handled ℚ) (h : Host) (response : ACPResponseOut) :
    Option (Option (List UInt8)) :=
  match s with
  | .command _ | .ignored => some none
  | .query q ids => q.answer (ids.map h.progs) response sendtoAll
  | .ping => answerPing h.init_state response sendtoAll
  | .other => (acpResponseSend response sendtoAll).map fun a => some a.2.2
  | .print | .help | .time => none

/-- What `serverRun` sends back for a datagram. -/
def Host.serve (h : Host) (d : Datagram) : Option (Option (List UInt8)) :=
  (serverRead h.scanF h.stack h.srv h.init_state h.peer_client (some d)).bind fun r =>
    r.1.reply h (acpResponseCoopRequest (acpResponseOutInit h.id₀) r.2.1.id)

/-- The name of a query. -/
def Query.cmd : Query → List UInt8
  | .progRuntime => ACP_CMD_PROG_GET_DATA_RUNTIME
  | .progInit => ACP_CMD_PROG_GET_DATA_INIT
  | .progEnabled => ACP_CMD_PROG_GET_ENABLED
  | .progGoal => ACP_CMD_REG_PROG_GET_GOAL
  | .progError => ACP_CMD_PROG_GET_ERROR
  | .progFTS => ACP_CMD_GET_FTS

theorem Query.cmd_spec (q : Query) :
    (ACP_DELIMITER_BLOCK ∉ q.cmd ∧ 0 ∉ q.cmd) ∧ 3 ≤ q.cmd.length ∧ q.cmd.length ≤ 15 := by
  cases q <;> simp only [Query.cmd] <;> decide

/-- The packet of a query for a list of ids. -/
def Query.packet (q : Query) (ids : List ℤ) (id : UInt32) (b : UInt8) : List UInt8 :=
  sentBytes (packetText q.cmd (rowsText fmtI1 ids) (fmtU id)) b

theorem rowWrites_ids {ids : List ℤ} (h : ∀ i ∈ ids, IsInt i) :
    ∀ i ∈ ids, RowWrites rowI1 (fmtI1 i) i := fun i hi => rowWrites_I1 (h i hi)

/-- The request for a list of ids, as the library sends it. -/
theorem Query.sent (q : Query) {ids : List ℤ} (h : ∀ i ∈ ids, IsInt i) (request : ACPRequest)
    (id : UInt32) :
    ∃ request' sent, acpRequestSendI1List q.cmd ids request id sendtoAll =
        some (sent.isSome, request', sent) ∧
      (sent = none ↔ ACP_DATA_MAX_SIZE ≤ (rowsText fmtI1 ids).length + 1) ∧
      ∀ bytes, sent = some bytes → ∃ b, bytes = q.packet ids id b := by
  obtain ⟨hcmd, hl⟩ := q.cmd_spec
  obtain ⟨h13, h₀, -⟩ := rowsText_spec (rowWrites_ids h)
  exact acpRequestSendList_sent hcmd (lt_of_le_of_lt hl.2 (by decide)) ⟨h13, h₀⟩
    (fun i hi => length_of_rowWrites (rowWrites_ids h i hi)) request id

/-- A server that has its data takes the packet for the query, and one that has not ignores it. -/
theorem Host.serve_query (h : Host) (q : Query) {ids : List ℤ} (hids : ∀ i ∈ ids, IsInt i)
    (hne : ids ≠ []) (hfit : (rowsText fmtI1 ids).length + 1 < ACP_DATA_MAX_SIZE) (id : UInt32)
    (src : SockAddr) (b : UInt8) :
    h.serve ⟨src, q.packet ids id b⟩ =
      if h.init_state then
        q.answer (ids.map h.progs) (acpResponseCoopRequest (acpResponseOutInit h.id₀) id) sendtoAll
      else some none := by
  obtain ⟨hcmd, hl⟩ := q.cmd_spec
  obtain ⟨h13, h₀, hcount⟩ := rowsText_spec (rowWrites_ids hids)
  obtain ⟨⟨t, hbuf⟩, hdata, hrows⟩ :=
    receivedRequest_spec h.srv q.cmd h₀ (Nat.lt_of_succ_lt hfit) id b
  -- no query is a command of the daemon
  have happ : (appActions (R := ℚ)).lookup q.cmd = none := by cases q <;> rfl
  -- the ids are read back, and there is at least one
  have hparse : parseI1List (receivedRequest h.srv q.cmd (rowsText fmtI1 ids) id b)
      (Handled.query q) = some (.query (R := ℚ) q ids) := by
    rw [parseI1List_rows hids ⟨hdata, hrows.trans hcount⟩, parsed,
      if_neg (not_le.mpr (List.length_pos_of_ne_nil hne))]
  have hprog : (progActions h.scanF h.stack
      (receivedRequest h.srv q.cmd (rowsText fmtI1 ids) id b)).lookup q.cmd =
        some (some (.query q ids)) := by
    rw [← hparse]
    cases q <;> rfl
  have hread : serverRead h.scanF h.stack h.srv h.init_state h.peer_client
      (some ⟨src, q.packet ids id b⟩) =
        some (if h.init_state then .query q ids else .ignored,
          receivedRequest h.srv q.cmd (rowsText fmtI1 ids) id b, ⟨src⟩) := by
    rw [Query.packet, serverRead_packet h.scanF h.stack h.srv h.init_state h.peer_client hcmd
      ⟨h13, h₀⟩ hl (by omega), serve_eq h.scanF h.stack h.init_state hbuf hcmd.1
      (List.ne_nil_of_length_pos (by omega))
      (lt_of_le_of_lt hl.2 (show 15 < ACP_BUFFER_MAX_SIZE by decide)), happ, hprog]
    cases h.init_state <;> rfl
  rw [Host.serve, hread, Option.bind_some]
  cases hi : h.init_state <;> rfl

/-- A client sends a list of ids to a server: what it gets back. -/
def Host.ask (h : Host) (cmd : List UInt8) (ids : List ℤ) (request : ACPRequest) (id : UInt32)
    (src : SockAddr) : Option (Option (List UInt8)) :=
  (acpRequestSendI1List cmd ids request id sendtoAll).bind fun r =>
    match r.2.2 with
    | some bytes => h.serve ⟨src, bytes⟩
    | none => some none

theorem Host.ask_query (h : Host) (q : Query) {ids : List ℤ} (hids : ∀ i ∈ ids, IsInt i)
    (hne : ids ≠ []) (request : ACPRequest) (id : UInt32) (src : SockAddr) :
    h.ask q.cmd ids request id src =
      if h.init_state ∧ (rowsText fmtI1 ids).length + 1 < ACP_DATA_MAX_SIZE then
        q.answer (ids.map h.progs) (acpResponseCoopRequest (acpResponseOutInit h.id₀) id) sendtoAll
      else some none := by
  obtain ⟨request', sent, hsend, hnone, hbytes⟩ := q.sent hids request id
  rw [Host.ask, hsend, Option.bind_some]
  -- a request that does not fit is not sent, so the server does nothing
  cases hs : sent with
  | none =>
    have hfit := hnone.mp hs
    rw [if_neg fun hc => absurd hc.2 (by omega)]
  | some bytes =>
    obtain ⟨b, rfl⟩ := hbytes bytes hs
    have hfit : (rowsText fmtI1 ids).length + 1 < ACP_DATA_MAX_SIZE := by
      rw [← not_le, ← hnone, hs]
      simp
    dsimp only
    rw [h.serve_query q hids hne hfit id src b]
    simp only [hfit, and_true]

/-- A query over the network: a client that asks for programs gets the rows of those that the server
has, in the order in which it asked for them. It gets nothing if the request does not fit into a
packet, the server has no data, a `lockMutex` fails, or the rows do not fit. From an answer it has
every column as it was printed, and from the decoders of the library the numbers. -/
theorem queries_served (h : Host) (q : Query) {ids : List ℤ} (hids : ∀ i ∈ ids, IsInt i)
    (hne : ids ≠ []) (hp : ∀ s ∈ (ids.map h.progs).reduceOption, s.InRange) (request : ACPRequest)
    (id id₁ : UInt32) (src addr : SockAddr) (peer : Peer) :
    ∃ reply, h.ask q.cmd ids request id src = some reply ∧
      (reply = none ↔ ACP_DATA_MAX_SIZE ≤ (rowsText fmtI1 ids).length + 1 ∨ h.init_state = false ∨
        ¬q.Locked (ids.map h.progs) ∨ ACP_DATA_MAX_SIZE ≤ (q.text (ids.map h.progs)).length + 1) ∧
      ∀ bytes, reply = some bytes → ∃ item,
        acpResponseRead (acpResponseInit id₁) peer (some ⟨addr, bytes⟩) =
            some (true, item, ⟨addr⟩) ∧
          readColumns item.dataString = (ids.map h.progs).reduceOption.map q.columns ∧
          ((ids.map h.progs).reduceOption ≠ [] → item.id = id) ∧
          ∀ n, ids.length ≤ n → q.Decodes (ids.map h.progs).reduceOption n item.dataString := by
  rw [h.ask_query q hids hne]
  by_cases hc : h.init_state ∧ (rowsText fmtI1 ids).length + 1 < ACP_DATA_MAX_SIZE
  · rw [if_pos hc]
    obtain ⟨answer, hans, hnone, hread⟩ :=
      q.answer_spec (ids.map h.progs) hp h.id₀ id id₁ peer addr
    refine ⟨answer, hans, ?_, fun bytes hb => ?_⟩
    · rw [hnone]
      simp only [hc.1, Bool.true_eq_false, not_le.mpr hc.2, false_or]
    · obtain ⟨item, hitem, hcols, hid, hdec⟩ := hread bytes hb
      refine ⟨item, hitem, hcols, hid, fun n hn => hdec n (le_trans ?_ hn)⟩
      exact (List.reduceOption_length_le _).trans (List.length_map _).le
  -- nothing was sent, or the server ignored it
  · rw [if_neg hc]
    refine ⟨none, rfl, iff_of_true rfl ?_, by simp⟩
    rw [not_and_or, Bool.not_eq_true, not_lt] at hc
    exact hc.symm.imp_right Or.inl

/-- A program that is at 21.3125 degrees. -/
def exampleSeen : Seen where
  item :=
    let p := (zeroCell : Cell ℚ).prog
    { p with id := 7, reg := { p.reg with
      sensor := { p.reg.sensor with value := ⟨7, 341 / 16, ⟨100, 0⟩, 1⟩ } } }
  locked := true
  now := ⟨101, 0⟩

theorem exampleSeen_inRange : exampleSeen.InRange where
  id := by unfold IsInt; decide
  gap := by unfold IsLong; decide
  rest := by unfold IsLong; decide
  goal := by simp [exampleSeen, IsFloat, zeroCell, zeroReg]
  heater_delta := by simp [exampleSeen, IsFloat, zeroCell, zeroReg]
  heater_output := by simp [exampleSeen, IsFloat, zeroCell, zeroReg]
  heater_rsl := by simp [exampleSeen, IsFloat, zeroCell, zeroReg]
  cooler_delta := by simp [exampleSeen, IsFloat, zeroCell, zeroReg]
  cooler_output := by simp [exampleSeen, IsFloat, zeroCell, zeroReg]
  cooler_rsl := by simp [exampleSeen, IsFloat, zeroCell, zeroReg]
  value := by norm_num [exampleSeen, IsFloat]
  sec := by unfold IsLong; decide
  nsec := by unfold IsLong; decide
  state := by unfold IsInt; decide

/-- A daemon that has this program only. -/
def exampleHost : Host where
  init_state := true
  scanF := scanFloat
  progs i := if i = 7 then some exampleSeen else none
  stack := zeroStack
  srv := blankRequest
  peer_client := ⟨⟨0, 0⟩⟩
  id₀ := 0

/-- The last theorem for the values of programs 6, which is not there, and 7. -/
theorem queries_served_example :
    ∃ reply, exampleHost.ask Query.progFTS.cmd [6, 7] blankRequest 12 ⟨0, 0⟩ = some reply ∧
      (reply = none ↔ ACP_DATA_MAX_SIZE ≤ (rowsText fmtI1 [6, 7]).length + 1 ∨
        exampleHost.init_state = false ∨ ¬Query.progFTS.Locked ([6, 7].map exampleHost.progs) ∨
        ACP_DATA_MAX_SIZE ≤ (Query.progFTS.text ([6, 7].map exampleHost.progs)).length + 1) ∧
      ∀ bytes, reply = some bytes → ∃ item,
        acpResponseRead (acpResponseInit 0) ⟨⟨0, 0⟩⟩ (some ⟨⟨0, 0⟩, bytes⟩) =
            some (true, item, ⟨⟨0, 0⟩⟩) ∧
          readColumns item.dataString =
            ([6, 7].map exampleHost.progs).reduceOption.map Query.progFTS.columns ∧
          (([6, 7].map exampleHost.progs).reduceOption ≠ [] → item.id = 12) ∧
          ∀ n, [6, 7].length ≤ n →
            Query.progFTS.Decodes ([6, 7].map exampleHost.progs).reduceOption n
              item.dataString :=
  queries_served exampleHost .progFTS (by simp [IsInt]) (List.cons_ne_nil _ _)
    (fun s hs => by rw [List.mem_singleton.mp hs]; exact exampleSeen_inRange)
    blankRequest 12 0 ⟨0, 0⟩ ⟨0, 0⟩ ⟨⟨0, 0⟩⟩

/-! The clients of the library. -/

/-- One id always fits into a request. -/
theorem length_rowsText_one {i : ℤ} (h : IsInt i) :
    (rowsText fmtI1 [i]).length + 1 < ACP_DATA_MAX_SIZE := by
  obtain ⟨w, hw, -, -, hl⟩ := rowWrites_I1 h
  rw [rowsText, List.map_singleton, List.flatten_singleton, hw, List.length_append,
    List.length_singleton]
  simp only [LINE_SIZE, ACP_DATA_MAX_SIZE] at hl ⊢
  omega

/-- The answer to a query for one program, as the server gives it and as the client has it. -/
theorem Host.ask_one (h : Host) (q : Query) {i : ℤ} (hi : IsInt i)
    (hp : ∀ p, h.progs i = some p → p.InRange) (request : ACPRequest) (id id₁ : UInt32)
    (src addr : SockAddr) (peer : Peer) :
    ∃ reply, h.ask q.cmd [i] request id src = some reply ∧
      (reply = none ↔
        ¬(h.init_state = true ∧ ∀ p, h.progs i = some p → q.locks = true → p.locked = true)) ∧
      ∀ bytes, reply = some bytes → ∃ item,
        acpResponseRead (acpResponseInit id₁) peer (some ⟨addr, bytes⟩) =
            some (true, item, ⟨addr⟩) ∧
          (h.progs i ≠ none → item.id = id) ∧
          q.Decodes (h.progs i).toList 1 item.dataString := by
  have hfound : [h.progs i].reduceOption = (h.progs i).toList := List.reduceOption_singleton _
  have hlocked : q.Locked [h.progs i] ↔
      ∀ p, h.progs i = some p → q.locks = true → p.locked = true := by
    rw [Query.Locked, hfound]
    simp only [Option.mem_toList]
  have hask : h.ask q.cmd [i] request id src = if h.init_state then
      q.answer [h.progs i] (acpResponseCoopRequest (acpResponseOutInit h.id₀) id) sendtoAll
        else some none := by
    rw [h.ask_query q (List.forall_mem_singleton.mpr hi) (List.cons_ne_nil _ _)]
    simp only [length_rowsText_one hi, and_true, List.map_singleton]
  rw [hask]
  cases hs : h.init_state with
  | false => exact ⟨none, rfl, iff_of_true rfl fun hc => Bool.false_ne_true hc.1, by simp⟩
  | true =>
    have hrange : ∀ p ∈ [h.progs i].reduceOption, p.InRange := by
      rw [hfound]
      exact fun p hm => hp p (Option.mem_toList.mp hm)
    obtain ⟨answer, hans, hnone, hread⟩ := q.answer_spec [h.progs i] hrange h.id₀ id id₁ peer addr
    refine ⟨answer, hans, ?_, fun bytes hb => ?_⟩
    · -- one row always fits into a response
      have hl : (q.text [h.progs i]).length + 1 < ACP_DATA_MAX_SIZE := by
        rw [Query.text, hfound]
        cases hprog : h.progs i with
        | none => simp [rowsText, ACP_DATA_MAX_SIZE]
        | some p =>
          have hrow := (q.isRow (hp p hprog)).short
          rw [Option.toList_some, rowsText, List.map_singleton, List.flatten_singleton]
          simp only [LINE_SIZE, ACP_DATA_MAX_SIZE] at hrow ⊢
          omega
      rw [hnone, hlocked]
      simp only [not_le.mpr hl, or_false, true_and]
    · obtain ⟨item, hitem, -, hid, hdec⟩ := hread bytes hb
      rw [hfound] at hid hdec
      refine ⟨item, hitem, fun hne => hid ?_, hdec 1 (Option.length_toList_le)⟩
      simpa [Option.toList_eq_nil_iff] using hne

/-- `acp_readSensorFTS` of a daemon whose peer is the other one. -/
def Host.readSensor (h : Host) (s : SensorFTS ℚ) (request : ACPRequest) (id id₁ : UInt32)
    (src : SockAddr) : Option (Bool × SensorFTS ℚ) :=
  (h.ask ACP_CMD_GET_FTS [s.remote_id] request id src).bind fun reply =>
    acpReadSensorFTS scanFloat s id id₁ (reply.map fun bytes => ⟨s.peer.addr, bytes⟩)

/-- The program that the other daemon shows under an id, with a reading of its sensor; a mutex that
is held is waited for. -/
def Host.Shows (h : Host) (remote_id : ℤ) (p : Seen) : Prop :=
  h.init_state = true ∧ h.progs remote_id = some p ∧ p.locked = true ∧ (ftsOfProg p).state = 1

/-- The reading as it is printed, and then read into a `float`. -/
def printedFTS (p : Seen) : FTS ℚ :=
  { ftsOfProg p with value := toFloat (roundTo 3 (ftsOfProg p).value) }

/-- What a reading is that has arrived, with at most one row for the id. -/
theorem acpReadSensorFTS_read {s : SensorFTS ℚ} {id id₁ : UInt32} {bytes : List UInt8}
    {item : ACPResponse} (found : Option (FTS ℚ))
    (hread : acpResponseRead (acpResponseInit id₁) s.peer (some ⟨s.peer.addr, bytes⟩) =
      some (true, item, ⟨s.peer.addr⟩)) (hid : found ≠ none → item.id = id)
    (hdec : acpDataToFTSList scanFloat 1 item.dataString = found.toList)
    (hf : ∀ f, found = some f → f.id = s.remote_id) :
    acpReadSensorFTS scanFloat s id id₁ (some ⟨s.peer.addr, bytes⟩) =
      some (match found.filter (·.state = 1) with
        | some f => (true, { s with value := f })
        | none => (false, { s with value := { s.value with state := 0 } })) := by
  unfold acpReadSensorFTS acpResponseReadFTSList acpResponseReadList
  dsimp only
  rw [memset_sizeofFTS, Option.bind_some, hread, Option.map_some, Option.map_some,
    acpResponseCheck, hdec]
  cases found with
  | none => by_cases he : item.id = id <;> simp [he, acpCheckFTS]
  | some f =>
    have he := hid (Option.some_ne_none f)
    have hf := hf f rfl
    by_cases hs : f.state = 1 <;> simp [he, hf, hs, acpCheckFTS, Option.filter]

section
variable (h : Host) (s : SensorFTS ℚ) (hid : IsInt s.remote_id)
  (hp : ∀ p, h.progs s.remote_id = some p → p.InRange ∧ p.item.id = s.remote_id)
  (request : ACPRequest) (id id₁ : UInt32) (src : SockAddr)
include hid hp

theorem Host.readSensor_cases :
    (∃ p, h.Shows s.remote_id p ∧
      h.readSensor s request id id₁ src = some (true, { s with value := printedFTS p })) ∨
    ((∀ p, ¬h.Shows s.remote_id p) ∧ h.readSensor s request id id₁ src =
      some (false, { s with value := { s.value with state := 0 } })) := by
  obtain ⟨reply, hask, hnone, hread⟩ := h.ask_one .progFTS hid (fun p hm => (hp p hm).1) request
    id id₁ src s.peer.addr s.peer
  have hrun : h.readSensor s request id id₁ src =
      acpReadSensorFTS scanFloat s id id₁ (reply.map fun bytes => ⟨s.peer.addr, bytes⟩) :=
    (congrArg (fun a => Option.bind a _) hask).trans rfl
  cases hr : reply with
  | none =>
    refine Or.inr ⟨fun p hs => ?_, by rw [hrun, hr]; rfl⟩
    refine hnone.mp hr ⟨hs.1, fun p' hp' _ => ?_⟩
    rw [hs.2.1] at hp'
    cases hp'
    exact hs.2.2.1
  | some bytes =>
    obtain ⟨item, hitem, hit, hdec⟩ := hread bytes hr
    obtain ⟨hinit, hlocked⟩ := not_not.mp (mt hnone.mpr (hr ▸ Option.some_ne_none bytes))
    have hres := acpReadSensorFTS_read ((h.progs s.remote_id).map printedFTS) hitem
      (by simpa using hit) (by rw [Option.toList_map]; exact hdec) fun f hf => by
        obtain ⟨p, hprog, rfl⟩ := Option.map_eq_some_iff.mp hf
        exact (hp p hprog).2
    rw [hrun, hr, Option.map_some, hres]
    cases hprog : h.progs s.remote_id with
    | none =>
      refine Or.inr ⟨fun p hs => ?_, rfl⟩
      rw [hs.2.1] at hprog
      cases hprog
    | some p =>
      rw [Option.map_some, Option.filter_some]
      by_cases hst : (ftsOfProg p).state = 1
      · refine Or.inl ⟨p, ⟨hinit, hprog, hlocked p hprog rfl, hst⟩, ?_⟩
        rw [if_pos (decide_eq_true (show (printedFTS p).state = 1 from hst))]
      · refine Or.inr ⟨fun p' hs => ?_, ?_⟩
        · rw [hs.2.1] at hprog
          cases hprog
          exact hst hs.2.2.2
        · rw [if_neg fun hc => hst (of_decide_eq_true hc : (printedFTS p).state = 1)]

end

/-- The sensor of a program of another daemon: a reading succeeds exactly when that daemon has its
data and the program, its `lockMutex` does not fail, and it has itself a valid reading of its
sensor. It is this reading with its time, rounded to three places and then to a `float`. Else the
sensor is in state 0 and keeps the rest. For the regulator either is a reply of its model. -/
theorem sensor_read_through (h : Host) (s : SensorFTS ℚ) (hid : IsInt s.remote_id)
    (hp : ∀ p, h.progs s.remote_id = some p → p.InRange ∧ p.item.id = s.remote_id)
    (request : ACPRequest) (id id₁ : UInt32) (src : SockAddr) :
    ∃ ok s', h.readSensor s request id id₁ src = some (ok, s') ∧
      (ok = true ↔ ∃ p, h.Shows s.remote_id p) ∧
      (∀ p, h.Shows s.remote_id p →
        s' = { s with value := printedFTS p } ∧
          |s'.value.value - (ftsOfProg p).value| ≤
            1 / 2000 + |roundTo 3 (ftsOfProg p).value| / 2 ^ 24) ∧
      (ok = false → s' = { s with value := { s.value with state := 0 } }) ∧
      ∃ r : Reply ℚ, ok = r.fts?.isSome ∧ s' = readSensorFTS s r := by
  -- the read at the end of the exchange is one of the regulator's reads
  have hreply {ok : Bool} {s' : SensorFTS ℚ} (hrun : h.readSensor s request id id₁ src =
      some (ok, s')) : ∃ r : Reply ℚ, ok = r.fts?.isSome ∧ s' = readSensorFTS s r := by
    obtain ⟨reply, -, hread⟩ := Option.bind_eq_some_iff.mp hrun
    obtain ⟨r, -, hok, hs', -⟩ := acpReadSensorFTS_reply hread
    exact ⟨r, hok, hs'⟩
  rcases h.readSensor_cases s hid hp request id id₁ src with ⟨p, hs, hrun⟩ | ⟨hno, hrun⟩
  · refine ⟨true, _, hrun, iff_of_true rfl ⟨p, hs⟩, fun p' hs' => ?_, by simp, hreply hrun⟩
    obtain rfl : p = p' := Option.some.inj (hs.2.1.symm.trans hs'.2.1)
    exact ⟨rfl, abs_toFloat_roundTo_sub_le _⟩
  · exact ⟨false, _, hrun, iff_of_false Bool.false_ne_true fun ⟨p, hs⟩ => hno p hs,
      fun p hs => absurd hs (hno p), fun _ => rfl, hreply hrun⟩

/-- The last theorem for a sensor that is program 7 of this daemon. -/
theorem sensor_read_through_example :
    let s : SensorFTS ℚ := { exampleSensor with remote_id := 7 }
    ∃ ok s', exampleHost.readSensor s blankRequest 12 0 ⟨0, 0⟩ = some (ok, s') ∧
      (ok = true ↔ ∃ p, exampleHost.Shows s.remote_id p) ∧
      (∀ p, exampleHost.Shows s.remote_id p →
        s' = { s with value := printedFTS p } ∧
          |s'.value.value - (ftsOfProg p).value| ≤
            1 / 2000 + |roundTo 3 (ftsOfProg p).value| / 2 ^ 24) ∧
      (ok = false → s' = { s with value := { s.value with state := 0 } }) ∧
      ∃ r : Reply ℚ, ok = r.fts?.isSome ∧ s' = readSensorFTS s r := by
  intro s
  refine sensor_read_through exampleHost s (by simp [IsInt, s]) (fun p hp => ?_) blankRequest 12 0
    ⟨0, 0⟩
  cases hp
  exact ⟨exampleSeen_inRange, rfl⟩

/-- A daemon has read a program of another one into a sensor. -/
def ReadOf (p : Seen) (s' : SensorFTS ℚ) : Prop :=
  ∃ (h : Host) (s : SensorFTS ℚ) (request : ACPRequest) (id id₁ : UInt32) (src : SockAddr),
    IsInt s.remote_id ∧
      (∀ p, h.progs s.remote_id = some p → p.InRange ∧ p.item.id = s.remote_id) ∧
      h.progs s.remote_id = some p ∧
      h.readSensor s request id id₁ src = some (true, s')

/-- A sensor that the reading `f` has come to, through daemons that each show the sensor of one of
their programs. -/
inductive Relayed (f : FTS ℚ) : SensorFTS ℚ → Prop where
  | read {p : Seen} {s' : SensorFTS ℚ} (h : ReadOf p s') (hf : p.item.reg.sensor.value = f) :
      Relayed f s'
  | relay {t : SensorFTS ℚ} {p : Seen} {s' : SensorFTS ℚ} (ht : Relayed f t) (h : ReadOf p s')
      (hf : p.item.reg.sensor = t) : Relayed f s'

theorem ReadOf.value {p : Seen} {s' : SensorFTS ℚ} (h : ReadOf p s') :
    s'.value = { p.item.reg.sensor.value with
      id := s'.remote_id, value := toFloat (roundTo 3 p.item.reg.sensor.value.value),
      state := 1 } := by
  obtain ⟨h, s, request, id, id₁, src, hid, hp, hprog, hread⟩ := h
  rcases h.readSensor_cases s hid hp request id id₁ src with ⟨p', hs, hrun⟩ | ⟨-, hrun⟩
  · rw [hread] at hrun
    cases hrun
    obtain rfl : p = p' := Option.some.inj (hprog.symm.trans hs.2.1)
    have hstate : p.item.reg.sensor.value.state = 1 := hs.2.2.2
    simp only [printedFTS, ftsOfProg, hstate, (hp p hprog).2]
  · rw [hread] at hrun
    cases hrun

/-- However many daemons a reading comes through, it is rounded to three places once: the next
daemons print the `float` next to this decimal as the same decimal, as long as the reading is at
most 8000. It keeps its time. -/
theorem relayed_rounded_once {f : FTS ℚ} (hf : |f.value| ≤ 8000) {s : SensorFTS ℚ}
    (h : Relayed f s) :
    s.value =
        { f with id := s.remote_id, value := toFloat (roundTo 3 f.value), state := 1 } ∧
      |s.value.value - f.value| ≤ 1 / 2000 + |roundTo 3 f.value| / 2 ^ 24 := by
  have hround : |roundTo 3 f.value| ≤ 8001 := by
    have herr := abs_roundTo_sub_le 3 f.value
    calc |roundTo 3 f.value| = |roundTo 3 f.value - f.value + f.value| := by rw [sub_add_cancel]
      _ ≤ |roundTo 3 f.value - f.value| + |f.value| := abs_add_le _ _
      _ ≤ 1 / (2 * 10 ^ 3) + 8000 := add_le_add herr hf
      _ ≤ 8001 := by norm_num
  -- induction on the chain of daemons: each of the next prints what the first has printed
  have hval : s.value =
      { f with id := s.remote_id, value := toFloat (roundTo 3 f.value), state := 1 } := by
    induction h with
    | read h hf => rw [h.value, hf]
    | relay _ h hf ih => rw [h.value, hf, ih, roundTo_toFloat hround]
  refine ⟨hval, ?_⟩
  rw [hval]
  exact abs_toFloat_roundTo_sub_le f.value

/-- A program whose sensor has read program 7. -/
def relaySeen : Seen :=
  let p := exampleSeen.item
  { exampleSeen with
    item := { p with id := 8, reg := { p.reg with
      sensor := { exampleSensor with remote_id := 7, value := printedFTS exampleSeen } } } }

theorem relaySeen_inRange : relaySeen.InRange :=
  { exampleSeen_inRange with
    id := by unfold IsInt; decide
    value := by
      have h : |toFloat (roundTo 3 (341 / 16))| < 2 ^ 128 := by decide +kernel
      exact h }

/-- A daemon that has this program only. -/
def relayHost : Host :=
  { exampleHost with progs := fun i => if i = 8 then some relaySeen else none }

/-- A daemon that has one program, with a reading of its sensor. -/
theorem readOf_example {h : Host} {i : ℤ} {q : Seen} (hi : IsInt i) (hinit : h.init_state = true)
    (hprogs : h.progs = fun j => if j = i then some q else none) (hq : q.InRange)
    (hid : q.item.id = i) (hlocked : q.locked = true) (hstate : (ftsOfProg q).state = 1) :
    ReadOf q { exampleSensor with remote_id := i, value := printedFTS q } := by
  have hprog : h.progs i = some q := by simp [hprogs]
  have hp : ∀ p, h.progs i = some p → p.InRange ∧ p.item.id = i := by
    intro p hp
    obtain rfl : q = p := Option.some.inj (hprog.symm.trans hp)
    exact ⟨hq, hid⟩
  refine ⟨h, { exampleSensor with remote_id := i }, blankRequest, 12, 0, ⟨0, 0⟩, hi, hp, hprog, ?_⟩
  rcases h.readSensor_cases { exampleSensor with remote_id := i } hi hp blankRequest 12 0 ⟨0, 0⟩
    with ⟨p, hs, hrun⟩ | ⟨hno, -⟩
  · obtain rfl : q = p := Option.some.inj (hprog.symm.trans hs.2.1)
    exact hrun
  · exact absurd ⟨hinit, hprog, hlocked, hstate⟩ (hno q)

/-- The last theorem for a sensor that has read program 8 of a daemon, whose sensor has read program
7 of another one. -/
theorem relayed_rounded_once_example :
    let s : SensorFTS ℚ := { exampleSensor with remote_id := 8, value := printedFTS relaySeen }
    s.value =
        { exampleSeen.item.reg.sensor.value with
          id := 8, value := toFloat (roundTo 3 (341 / 16)), state := 1 } ∧
      |s.value.value - 341 / 16| ≤ 1 / 2000 + |roundTo 3 (341 / 16)| / 2 ^ 24 :=
  relayed_rounded_once (f := exampleSeen.item.reg.sensor.value)
    (show |(341 / 16 : ℚ)| ≤ 8000 by norm_num)
    (.relay
      (.read (readOf_example (h := exampleHost) (i := 7) (by simp [IsInt]) rfl rfl
        exampleSeen_inRange rfl rfl rfl) rfl)
      (readOf_example (h := relayHost) (i := 8) (by simp [IsInt]) rfl rfl relaySeen_inRange rfl rfl
        rfl) rfl)

/-- `acp_pingPeer` after its request: what it makes of `active`. -/
def acpPingPeer (peer : Peer) (request_id id₀ : UInt32) (d : Option Datagram) :
    Option (Bool × Peer) :=
  (acpResponseRead (acpResponseInit id₀) peer d).map fun r =>
    (r.1 && acpResponseCheck r.2.1 request_id && r.2.1.data.head? == ACP_RESP_APP_BUSY.head?, r.2.2)

def Host.ping (h : Host) (peer : Peer) (request : ACPRequest) (id id₁ : UInt32) (src : SockAddr) :
    Option (Bool × Peer) :=
  (acpRequestSendCmd ACP_CMD_APP_PING request id sendtoAll).bind fun r =>
    if r.1 = 0 then some (false, peer)
    else (h.serve ⟨src, r.2.2⟩).bind fun reply =>
      acpPingPeer peer id id₁ (reply.map fun bytes => ⟨peer.addr, bytes⟩)

/-- The answer to a ping is not too short for the parser, whatever the id: where an id of one digit
leaves eight bytes in front of it, the CRC is not 0. -/
theorem ping_long (id : UInt32) {s : List UInt8}
    (hs : s = ACP_RESP_APP_BUSY ∨ s = ACP_RESP_APP_IDLE) :
    ACP_RESPONSE_BUF_SIZE_MIN ≤ (responseText id 0 s 0).length +
      if crcUpdateByStr 0 (responseText id 0 s 0) = 0 then 0 else 1 := by
  have hl : s.length = 1 := by rcases hs with rfl | rfl <;> rfl
  have h₁ := length_fmtU_pos (UInt32.ofNat 0)
  by_cases hid : 2 ≤ (fmtU id).length
  · rw [length_responseText (Or.inl rfl), ACP_RESPONSE_BUF_SIZE_MIN]
    omega
  -- ids of one digit: the CRC of each answer is computed
  · have hlt : id.toNat < 10 := by
      by_contra hge
      refine hid ?_
      have hd : 2 ≤ (Nat.digits 10 id.toNat).length := by
        rw [Nat.lt_iff_add_one_le.symm, Nat.lt_digits_length_iff (by decide)]
        omega
      rw [fmtU, Decimal.write, if_neg (by omega)]
      simpa using hd
    obtain ⟨n, hn, rfl⟩ : ∃ n < 10, id = UInt32.ofNat n :=
      ⟨id.toNat, hlt, UInt32.ofNat_toNat.symm⟩
    rcases hs with rfl | rfl <;> interval_cases n <;> decide +kernel

theorem isStr_ping {s : List UInt8} (hs : s = ACP_RESP_APP_BUSY ∨ s = ACP_RESP_APP_IDLE) :
    IsStr s := by
  rcases hs with rfl | rfl <;> exact ⟨by decide, by decide, by decide⟩

/-- The text of the answer to a ping. -/
def pingText (init_state : Bool) : List UInt8 :=
  if init_state then ACP_RESP_APP_BUSY else ACP_RESP_APP_IDLE

theorem answerPing_carries (init_state : Bool) (id₀ id : UInt32) :
    ∃ bytes, answerPing init_state (acpResponseCoopRequest (acpResponseOutInit id₀) id) sendtoAll =
      some (some bytes) ∧ Carries bytes id (pingText init_state) := by
  have hping : pingText init_state = ACP_RESP_APP_BUSY ∨
      pingText init_state = ACP_RESP_APP_IDLE := by
    cases init_state
    · exact Or.inr rfl
    · exact Or.inl rfl
  obtain ⟨r, b, hstr, -, hb⟩ := acpResponseSendStr_sending (sending_init id id₀)
    (isStr_ping hping) (f := 0) (Or.inl rfl)
  refine ⟨_, ?_, carries_sent (isStr_ping hping) (Or.inl rfl) hb (ping_long id hping)⟩
  rw [answerPing, ← pingText, hstr, Option.map_some]

/-- A server answers a ping. -/
theorem Host.serve_ping (h : Host) (id : UInt32) (src : SockAddr) (b : UInt8) :
    h.serve ⟨src, sentBytes (packetText ACP_CMD_APP_PING [] (fmtU id)) b⟩ =
      answerPing h.init_state (acpResponseCoopRequest (acpResponseOutInit h.id₀) id) sendtoAll := by
  have hcmd : ACP_DELIMITER_BLOCK ∉ ACP_CMD_APP_PING ∧ 0 ∉ ACP_CMD_APP_PING := by decide
  obtain ⟨⟨t, hbuf⟩, -, -⟩ :=
    receivedRequest_spec h.srv ACP_CMD_APP_PING (List.not_mem_nil : (0 : UInt8) ∉ [])
      (by decide) id b
  have happ : (appActions (R := ℚ)).lookup ACP_CMD_APP_PING = some (some .ping) := rfl
  rw [Host.serve, serverRead_packet h.scanF h.stack h.srv h.init_state h.peer_client hcmd
    ⟨List.not_mem_nil, List.not_mem_nil⟩ (by decide) (by decide),
    serve_eq h.scanF h.stack h.init_state hbuf hcmd.1 (by decide)
      (show ACP_CMD_APP_PING.length < ACP_BUFFER_MAX_SIZE by decide), happ]
  rfl

/-- The packet of a ping. -/
theorem acpRequestSendCmd_ping (request : ACPRequest) (id : UInt32) :
    ∃ (n : ℕ) (packed : ACPRequest) (b : UInt8),
      acpRequestSendCmd ACP_CMD_APP_PING request id sendtoAll = some (((n + 2 : ℕ) : ℤ), packed,
        sentBytes (packetText ACP_CMD_APP_PING [] (fmtU id)) b) := by
  obtain ⟨packed, b, hsend⟩ := acpRequestSend_built request
    (show ACP_DELIMITER_BLOCK ∉ ACP_CMD_APP_PING ∧ 0 ∉ ACP_CMD_APP_PING by decide) (by decide)
    (show ACP_DELIMITER_BLOCK ∉ [] ∧ (0 : UInt8) ∉ [] from ⟨List.not_mem_nil, List.not_mem_nil⟩)
    (by decide) id
  exact ⟨_, packed, b, by rw [acpRequestSendCmd, acpRequestSetCmd_built (by decide), hsend]⟩

/-- A ping finds a daemon busy exactly when it has its data. -/
theorem ping_through (h : Host) (peer : Peer) (request : ACPRequest) (id id₁ : UInt32)
    (src : SockAddr) : h.ping peer request id id₁ src = some (h.init_state, peer) := by
  obtain ⟨n, packed, b, hsend⟩ := acpRequestSendCmd_ping request id
  have hne : ((n + 2 : ℕ) : ℤ) ≠ 0 := by omega
  obtain ⟨bytes, hans, hcarries⟩ := answerPing_carries h.init_state h.id₀ id
  obtain ⟨item, hread, hdata, hid⟩ := hcarries id₁ peer peer.addr
  -- the client looks at the first byte only
  have hhead : item.data.head? = (pingText h.init_state).head? := by
    obtain ⟨-, t, ht⟩ := cString_eq_some_iff.mp hdata
    rw [ht]
    cases h.init_state <;> rfl
  have hid : item.id = id := hid (by cases h.init_state <;> decide)
  rw [Host.ping, hsend, Option.bind_some, if_neg hne, h.serve_ping, hans]
  simp only [Option.map_some, Option.bind_some, acpPingPeer, hread, hid, acpResponseCheck, hhead]
  rw [beq_self_eq_true, Bool.true_and]
  cases h.init_state <;> rfl

end Regonf
