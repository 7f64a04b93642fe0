import Regonf.AcpLists
import Regonf.AcpStringRows
import Regonf.Server

/-! A command from the client that sends it to the script that `serverRun` runs for it. -/
namespace Regonf

open Blocks Rows

/-- The branch of a chain that is taken on a buffer that begins with a command. -/
theorem cmdChain_eq {α : Type*} {request : ACPRequest} {cmd t : List UInt8}
    (hbuf : request.buf = cmd ++ ACP_DELIMITER_BLOCK :: t) (hcmd : ACP_DELIMITER_BLOCK ∉ cmd)
    (hne : cmd ≠ []) (hl : cmd.length < request.buf_size) {bs : List (List UInt8 × Option α)}
    (hbs : ∀ b ∈ bs, ACP_DELIMITER_BLOCK ∉ b.1) (other : Option α) :
    cmdChain request other bs = (bs.lookup cmd).getD other := by
  induction bs with
  | nil => rfl
  | cons b bs ih =>
    obtain ⟨hb, hbs⟩ := List.forall_mem_cons.mp hbs
    rw [cmdChain, acpCmdcmp_eq hbuf hcmd hb hne hl, Option.bind_some, List.lookup_cons]
    -- names are compared up to the delimiter, so only one's own name is equal
    by_cases he : b.1 = cmd
    · rw [decide_eq_true he, if_pos rfl, beq_iff_eq.mpr he.symm]
      rfl
    · rw [decide_eq_false he, if_neg (by decide), ih hbs, beq_false_of_ne (Ne.symm he)]

/-! What the library sends. -/

/-- `acp_requestSendCmd`. -/
def acpRequestSendCmd (cmd : List UInt8) (request : ACPRequest) (id : UInt32)
    (sendto : List UInt8 → ℤ) : Option (ℤ × ACPRequest × List UInt8) :=
  acpRequestSend (acpRequestSetCmd (acpRequestInit request) cmd) id sendto

/-- A row of an `int` and a word, for which the library has a decoder and no sender. -/
def fmtI1S1 (i : ℤ × String) : List UInt8 :=
  fmtD i.1 ++ ACP_DELIMITER_COLUMN :: ascii i.2 ++ [ACP_DELIMITER_ROW]

def toI1X {V : Type*} (rows : List (ℤ × V)) : List (I1X V) := rows.map fun r => ⟨r.1, r.2⟩

/-- The name under which a client sends a command. -/
def Command.cmd : Command ℚ → List UInt8
  | .appStart => ACP_CMD_APP_START
  | .appStop => ACP_CMD_APP_STOP
  | .appReset => ACP_CMD_APP_RESET
  | .appExit => ACP_CMD_APP_EXIT
  | .progStop _ => ACP_CMD_PROG_STOP
  | .progStart _ => ACP_CMD_PROG_START
  | .progReset _ => ACP_CMD_PROG_RESET
  | .progEnable _ => ACP_CMD_PROG_ENABLE
  | .progDisable _ => ACP_CMD_PROG_DISABLE
  | .progSetSave _ => ACP_CMD_PROG_SET_SAVE
  | .setHeaterPower _ => ACP_CMD_REG_PROG_SET_HEATER_POWER
  | .setCoolerPower _ => ACP_CMD_REG_PROG_SET_COOLER_POWER
  | .setGoal _ => ACP_CMD_REG_PROG_SET_GOAL
  | .setHeaterDelta _ => ACP_CMD_REGONF_PROG_SET_HEATER_DELTA
  | .setCoolerDelta _ => ACP_CMD_REGONF_PROG_SET_COOLER_DELTA
  | .setChangeGap _ => ACP_CMD_REG_PROG_SET_CHANGE_GAP
  | .setEMMode _ => ACP_CMD_REG_PROG_SET_EM_MODE

/-- The rows of a command. -/
def Command.data : Command ℚ → List UInt8
  | .appStart | .appStop | .appReset | .appExit => []
  | .progStop ids | .progStart ids | .progReset ids | .progEnable ids | .progDisable ids =>
    rowsText fmtI1 ids
  | .progSetSave rows | .setChangeGap rows => rowsText (fmtI1X fmtD) (toI1X rows)
  | .setHeaterPower rows | .setCoolerPower rows | .setGoal rows | .setHeaterDelta rows
  | .setCoolerDelta rows => rowsText (fmtI1X fmtF) (toI1X rows)
  | .setEMMode rows => rowsText fmtI1S1 rows

/-- A client sends a command: whether the library says that it did, and the datagram. -/
def Command.send (c : Command ℚ) (request : ACPRequest) (id : UInt32)
    (sendto : List UInt8 → ℤ) : Option (Bool × ACPRequest × Option (List UInt8)) :=
  match c with
  | .appStart | .appStop | .appReset | .appExit =>
    (acpRequestSendCmd c.cmd request id sendto).map fun r => (decide (r.1 ≠ 0), r.2.1, some r.2.2)
  | .progStop ids | .progStart ids | .progReset ids | .progEnable ids | .progDisable ids =>
    acpRequestSendI1List c.cmd ids request id sendto
  | .progSetSave rows | .setChangeGap rows =>
    acpRequestSendI2List c.cmd (toI1X rows) request id sendto
  | .setHeaterPower rows | .setCoolerPower rows | .setGoal rows | .setHeaterDelta rows
  | .setCoolerDelta rows => acpRequestSendI1F1List c.cmd (toI1X rows) request id sendto
  | .setEMMode rows =>
    acpRequestSendList (fun i => some (fmtI1S1 i)) c.cmd rows request id sendto

/-- A mode of printable characters without a blank, in a row that `snprintf` does not cut. -/
def IsMode (i : ℤ × String) : Prop :=
  i.2 ≠ "" ∧ (∀ c ∈ i.2.toList, 33 ≤ c.toNat ∧ c.toNat ≤ 126) ∧ (fmtI1S1 i).length < LINE_SIZE

/-- The values of a command are those of their C types, decimals with three places at most. -/
def Command.Sendable : Command ℚ → Prop
  | .appStart | .appStop | .appReset | .appExit => True
  | .progStop ids | .progStart ids | .progReset ids | .progEnable ids | .progDisable ids =>
    ∀ id ∈ ids, IsInt id
  | .progSetSave rows | .setChangeGap rows => ∀ r ∈ rows, IsInt r.1 ∧ IsInt r.2
  | .setHeaterPower rows | .setCoolerPower rows | .setGoal rows | .setHeaterDelta rows
  | .setCoolerDelta rows => ∀ r ∈ rows, IsInt r.1 ∧ IsMilli r.2
  | .setEMMode rows => ∀ r ∈ rows, IsInt r.1 ∧ IsMode r

/-- The datagram of a request with its data. -/
theorem acpRequestSend_built (item : ACPRequest) {cmd data : List UInt8}
    (hc : ACP_DELIMITER_BLOCK ∉ cmd ∧ 0 ∉ cmd) (hcl : cmd.length < ACP_COMMAND_MAX_SIZE)
    (hd : ACP_DELIMITER_BLOCK ∉ data ∧ 0 ∉ data) (hdl : data.length + 1 < ACP_DATA_MAX_SIZE)
    (id : UInt32) :
    ∃ packed b, acpRequestSend (builtRequest item cmd data) id sendtoAll =
      some ((((packetText cmd data (fmtU id)).length + 2 : ℕ) : ℤ), packed,
        sentBytes (packetText cmd data (fmtU id)) b) := by
  obtain ⟨b, t, hpack, hlen⟩ := acpRequestPack_built item hc.2 hcl hd.2 hdl id
  obtain ⟨packed, hpack, hbuf, hsize⟩ : ∃ packed,
      acpRequestPack (builtRequest item cmd data) id = some packed ∧
      packed.buf = packetText cmd data (fmtU id) ++
        crcUpdateByStr 0 (packetText cmd data (fmtU id)) :: b :: t ∧
      packed.buf_size = ACP_BUFFER_MAX_SIZE := ⟨_, hpack, rfl, rfl⟩
  exact ⟨packed, b, acpRequestSend_packed hpack hbuf hsize hlen hc.1 hd.1⟩

/-- A list is sent whole, in one packet, or not at all. -/
theorem acpRequestSendList_sent {V : Type*} {fmt : V → List UInt8} {list : List V}
    {cmd : List UInt8} (hc : ACP_DELIMITER_BLOCK ∉ cmd ∧ 0 ∉ cmd)
    (hcl : cmd.length < ACP_COMMAND_MAX_SIZE)
    (hd : ACP_DELIMITER_BLOCK ∉ rowsText fmt list ∧ 0 ∉ rowsText fmt list)
    (hcut : ∀ a ∈ list, (fmt a).length < LINE_SIZE) (request : ACPRequest) (id : UInt32) :
    ∃ request' sent, acpRequestSendList (fun a => some (fmt a)) cmd list request id sendtoAll =
        some (sent.isSome, request', sent) ∧
      (sent = none ↔ ACP_DATA_MAX_SIZE ≤ (rowsText fmt list).length + 1) ∧
      ∀ bytes, sent = some bytes →
        ∃ b, bytes = sentBytes (packetText cmd (rowsText fmt list) (fmtU id)) b := by
  have hq : ∀ q ∈ list.map fmt, 0 ∉ q := fun q hq hm =>
    hd.2 (List.mem_flatten.mpr ⟨q, hq, hm⟩)
  -- no row is cut by `snprintf`
  have htake : ((list.map fmt).map fun q => q.take (LINE_SIZE - 1)) = list.map fmt := by
    rw [List.map_map]
    exact List.map_congr_left fun a ha => List.take_of_length_le (Nat.le_sub_one_of_lt (hcut a ha))
  have hcats := acpRequestStrCats_built request cmd (x := []) List.not_mem_nil hq (by decide)
  rw [List.nil_append, ← rowsText] at hcats
  unfold acpRequestSendList
  rw [acpRequestSetCmd_built hcl.le, map_some_rows, acpRequestCatRows_some, htake]
  -- `acp_requestStrCat` fails at the first row that does not fit, and nothing is sent then
  by_cases hfit : (rowsText fmt list).length + 1 < ACP_DATA_MAX_SIZE
  · rw [if_pos hfit] at hcats
    obtain ⟨packed, b, hsend⟩ := acpRequestSend_built request hc hcl hd hfit id
    refine ⟨packed, some (sentBytes (packetText cmd (rowsText fmt list) (fmtU id)) b), ?_,
      iff_of_false (by simp) (not_le.mpr hfit), fun bytes hbytes => ⟨b, ?_⟩⟩
    · rw [hcats, Option.bind_some, if_pos rfl, hsend, Option.map_some,
        decide_eq_false (not_lt.mpr (Int.natCast_nonneg _))]
      rfl
    · cases hbytes
      rfl
  · rw [if_neg hfit] at hcats
    obtain ⟨request', hcats⟩ := hcats
    refine ⟨request', none, ?_, iff_of_true rfl (not_lt.mp hfit), by simp⟩
    rw [hcats]
    rfl

/-- The request that a server makes of the packet, as the chain looks at it. -/
theorem receivedRequest_spec (srv : ACPRequest) (cmd : List UInt8) {data : List UInt8}
    (hd : 0 ∉ data) (hdl : data.length < ACP_DATA_MAX_SIZE) (id : UInt32) (b : UInt8) :
    (∃ t, (receivedRequest srv cmd data id b).buf = cmd ++ ACP_DELIMITER_BLOCK :: t) ∧
      (receivedRequest srv cmd data id b).dataString = data ∧
      (receivedRequest srv cmd data id b).data_rows_count =
        countDataRows (field ACP_DATA_MAX_SIZE data) := by
  refine ⟨?_, ?_, ?_⟩
  · simp only [receivedRequest, acpCountDataRows, field, sentBytes, packetText_append,
      List.append_assoc, List.cons_append]
    exact ⟨_, rfl⟩
  · exact ((endsInField_iff _ _).mpr (Or.inr hdl)).2.trans (takeWhile_ne_self hd)
  · have hlen : (field ACP_DATA_MAX_SIZE data).length ≤ ACP_DATA_MAX_SIZE :=
      (length_field hdl.le).le
    simp only [receivedRequest, acpCountDataRows, acpRequestInit]
    rw [List.take_of_length_le hlen]

section
variable {R : Type} (scanF : List UInt8 → Option (R × List UInt8))

theorem serverRead_packet (stack : Stack) (srv : ACPRequest) (init_state : Bool) (peer : Peer)
    {cmd data : List UInt8} (hc : ACP_DELIMITER_BLOCK ∉ cmd ∧ 0 ∉ cmd)
    (hd : ACP_DELIMITER_BLOCK ∉ data ∧ 0 ∉ data) (hcl : 3 ≤ cmd.length ∧ cmd.length ≤ 15)
    (hdl : data.length ≤ ACP_DATA_MAX_SIZE) (id : UInt32) (src : SockAddr) (b : UInt8) :
    serverRead scanF stack srv init_state peer
        (some ⟨src, sentBytes (packetText cmd data (fmtU id)) b⟩) =
      (serveApp init_state (receivedRequest srv cmd data id b)
        (serveProg scanF stack (receivedRequest srv cmd data id b))).map
          fun s => (s, receivedRequest srv cmd data id b, ⟨src⟩) := by
  have hcl' : cmd.length ≤ ACP_COMMAND_MAX_SIZE := le_trans hcl.2 (by decide)
  -- the packet survives the wire, whatever stood in the request before
  rw [serverRead, acpRequestRead_packet cmd data id hc hd hcl' hdl (by omega) srv peer src b]
  rfl

end

/-! The lists of the branches. -/

theorem map_toI1X {V : Type*} (rows : List (ℤ × V)) :
    (toI1X rows).map (fun i => (i.p0, i.p1)) = rows := by
  simp [toI1X, Function.comp_def]

theorem mem_toI1X {V : Type*} {rows : List (ℤ × V)} {i : I1X V} (h : i ∈ toI1X rows) :
    (i.p0, i.p1) ∈ rows := by
  obtain ⟨r, hr, rfl⟩ := List.mem_map.mp h
  exact hr

theorem rowWrites_I2 {rows : List (ℤ × ℤ)} (h : ∀ r ∈ rows, IsInt r.1 ∧ IsInt r.2) :
    ∀ i ∈ toI1X rows, RowWrites (rowI1X scanInt) (fmtI1X fmtD i) i := fun _ hi =>
  rowWrites_I1X (h _ (mem_toI1X hi)).1 (writes_int (h _ (mem_toI1X hi)).2)

theorem rowWrites_I1F1 {rows : List (ℤ × ℚ)} (h : ∀ r ∈ rows, IsInt r.1 ∧ IsMilli r.2) :
    ∀ i ∈ toI1X rows, RowWrites (rowI1X scanDecimal) (fmtI1X fmtF i) i := fun _ hi =>
  rowWrites_I1X (h _ (mem_toI1X hi)).1 (writes_decimal (h _ (mem_toI1X hi)).2)

/-- The rows of a request in the data of the one that the server has accepted. -/
structure HasRows (request : ACPRequest) (data : List UInt8) (n : ℕ) : Prop where
  dataString : request.dataString = data
  rows : request.data_rows_count = n

section
variable {request : ACPRequest}

theorem parseI1List_rows {ids : List ℤ} (h : ∀ id ∈ ids, IsInt id)
    (hr : HasRows request (rowsText fmtI1 ids) ids.length) (f : List ℤ → Handled ℚ) :
    parseI1List request f = some (parsed ids f) := by
  rw [parseI1List, hr.dataString, hr.rows, acpDataToI1List,
    acpDataToList_rows readsRows_I1 (fun id hid => rowWrites_I1 (h id hid)) le_rfl]

theorem parseI2List_rows {rows : List (ℤ × ℤ)} (h : ∀ r ∈ rows, IsInt r.1 ∧ IsInt r.2)
    (hr : HasRows request (rowsText (fmtI1X fmtD) (toI1X rows)) (toI1X rows).length)
    (f : List (ℤ × ℤ) → Handled ℚ) : parseI2List request f = some (parsed rows f) := by
  have hlist : acpDataToI2List (toI1X rows).length (rowsText (fmtI1X fmtD) (toI1X rows)) =
      toI1X rows :=
    acpDataToList_rows (readsRows_I1X conversion_scanInt) (rowWrites_I2 h) le_rfl
  rw [parseI2List, hr.dataString, hr.rows, hlist, map_toI1X]

theorem parseI1F1List_rows {rows : List (ℤ × ℚ)} (h : ∀ r ∈ rows, IsInt r.1 ∧ IsMilli r.2)
    (hr : HasRows request (rowsText (fmtI1X fmtF) (toI1X rows)) (toI1X rows).length)
    (f : List (ℤ × ℚ) → Handled ℚ) :
    parseI1F1List scanDecimal request f = some (parsed rows f) := by
  have hlist : acpDataToI1F1List scanDecimal (toI1X rows).length
      (rowsText (fmtI1X fmtF) (toI1X rows)) = toI1X rows :=
    acpDataToList_rows (readsRows_I1X conversion_scanDecimal) (rowWrites_I1F1 h) le_rfl
  rw [parseI1F1List, hr.dataString, hr.rows, hlist, map_toI1X]

theorem ofAscii_ascii {s : String} (h : ∀ c ∈ s.toList, c.toNat < 256) :
    ofAscii (ascii s) = s := by
  -- each character is one byte, and back
  have hmap : (ascii s).map (fun b => Char.ofNat b.toNat) = s.toList := by
    rw [ascii, List.map_map]
    refine (List.map_congr_left fun c hc => ?_).trans (List.map_id _)
    rw [Function.comp_apply, UInt8.toNat_ofNat_of_lt' (h c hc), Char.ofNat_toNat, id]
  rw [ofAscii, hmap, String.ofList_toList]

theorem mem_ascii_mode {i : ℤ × String} (h : IsMode i) {b : UInt8} (hb : b ∈ ascii i.2) :
    isspace b = false ∧ b ≠ 0 := by
  obtain ⟨c, hc, rfl⟩ := List.mem_map.mp hb
  obtain ⟨h₁, h₂⟩ := h.2.1 c hc
  have hn : (UInt8.ofNat c.toNat).toNat = c.toNat :=
    UInt8.toNat_ofNat_of_lt' (lt_of_le_of_lt h₂ (by decide))
  refine ⟨?_, fun h₀ => ?_⟩
  · simp only [isspace, Bool.or_eq_false_iff, Bool.and_eq_false_iff, decide_eq_false_iff_not,
      beq_eq_false_iff_ne, UInt8.le_iff_toNat_le, ne_eq, ← UInt8.toNat_inj, hn]
    change ¬c.toNat = 32 ∧ (¬9 ≤ c.toNat ∨ ¬c.toNat ≤ 13)
    omega
  · rw [h₀] at hn
    change 0 = c.toNat at hn
    omega

theorem scanI1S1_row {i : ℤ × String} (hi : IsInt i.1) (hm : IsMode i) (t : List UInt8) :
    scanI1S1 (fmtD i.1 ++ ACP_DELIMITER_COLUMN :: ascii i.2 ++ ACP_DELIMITER_ROW :: t) =
      some (some (i.1, ascii i.2)) := by
  have hscan : scanInt (fmtD i.1 ++ ACP_DELIMITER_COLUMN :: ascii i.2 ++ ACP_DELIMITER_ROW :: t) =
      some (i.1, ACP_DELIMITER_COLUMN :: ascii i.2 ++ ACP_DELIMITER_ROW :: t) := by
    rw [List.append_assoc]
    exact conversion_scanInt.stop (scanInt_fmtD hi) (columnEnd_column _)
  have hne : ascii i.2 ≠ [] := by
    simpa [ascii] using hm.1
  have hword : rowWord (fmtD i.1 ++ ACP_DELIMITER_COLUMN :: ascii i.2 ++
      ACP_DELIMITER_ROW :: t) = ascii i.2 := by
    rw [rowWord, hscan]
    dsimp only
    rw [List.cons_append, List.dropWhile_cons_of_pos (by decide)]
    -- the word begins right behind the tab, and the line end is a blank
    obtain ⟨b, w, hw⟩ := List.exists_cons_of_ne_nil hne
    rw [hw, List.cons_append, List.dropWhile_cons_of_neg (by
      rw [(mem_ascii_mode hm (hw ▸ List.mem_cons_self)).1]
      decide), ← List.cons_append, ← hw]
    exact takeWhile_span (fun b hb => by rw [(mem_ascii_mode hm hb).1]; rfl)
      (fun b hb => by cases hb; rfl)
  have hl : (ascii i.2).length < LINE_SIZE := by
    have h := hm.2.2
    simp only [fmtI1S1, List.length_append, List.length_cons] at h
    omega
  rw [scanI1S1, hword, if_neg (not_le.mpr hl), if_neg hne, hscan]
  rfl

theorem mapM_option {α β : Type*} {f : α → Option β} {l : List α} {vs : List β}
    (h : l.map f = vs.map some) : l.mapM f = some vs := by
  induction l generalizing vs with
  | nil =>
    cases vs with
    | nil => rfl
    | cons v vs => cases h
  | cons a l ih =>
    cases vs with
    | nil => cases h
    | cons v vs =>
      obtain ⟨ha, h⟩ := List.cons.inj h
      rw [List.mapM_cons, ha, ih h]
      rfl

/-- The strings of a list that holds them. -/
theorem mapM_holdsI1S1 {cap : ℕ} {item : List I1S1} {vs : List (ℤ × List UInt8)}
    (h : HoldsI1S1 cap item vs) (hcap : vs.length ≤ cap) :
    (item.take vs.length).mapM (fun i => (cString i.p1).map fun p1 => (i.p0, ofAscii p1)) =
      some (vs.map fun w => (w.1, ofAscii w.2)) := by
  refine mapM_option (List.ext_getElem (by simp [h.1, hcap]) fun k hk _ => ?_)
  have hlt : k < vs.length := by
    rw [List.length_map, List.length_take, Nat.lt_min] at hk
    exact hk.1
  obtain ⟨-, i, hi, hp0, hs⟩ := h.2.2 k _ (List.getElem?_eq_getElem hlt)
  obtain ⟨_, hi⟩ := List.getElem?_eq_some_iff.mp hi
  simp [hi, hp0, hs]

/-- A row of a number and a mode has no byte of the delimiters but its tab. -/
theorem not_mem_modeRow {i : ℤ × String} (hm : IsMode i) {b : UInt8}
    (hb : b = 0 ∨ isspace b = true) (hrow : isRowByte b = false) :
    b ∉ fmtD i.1 ++ ACP_DELIMITER_COLUMN :: ascii i.2 := by
  rw [List.mem_append, List.mem_cons, not_or, not_or]
  refine ⟨not_mem_row (rowBytes_fmtD i.1) hrow, fun h => ?_, fun h => ?_⟩
  · rw [h] at hrow
    cases hrow
  · obtain ⟨h₁, h₂⟩ := mem_ascii_mode hm h
    rcases hb with rfl | hb
    · exact h₂ rfl
    · rw [h₁] at hb
      cases hb

theorem rowsText_modes (rows : List (ℤ × String)) :
    rowsText fmtI1S1 rows = ((rows.map fun r => (r.1, ascii r.2)).map fun w : ℤ × List UInt8 =>
      (fmtD w.1 ++ ACP_DELIMITER_COLUMN :: w.2) ++ [ACP_DELIMITER_ROW]).flatten := by
  rw [List.map_map]
  rfl

theorem rowsText_modes_spec {rows : List (ℤ × String)} (h : ∀ r ∈ rows, IsMode r) :
    ACP_DELIMITER_BLOCK ∉ rowsText fmtI1S1 rows ∧ 0 ∉ rowsText fmtI1S1 rows ∧
      countDataRows (field ACP_DATA_MAX_SIZE (rowsText fmtI1S1 rows)) = rows.length := by
  have hnot {b : UInt8} (hb : b = 0 ∨ isspace b = true) (hrow : isRowByte b = false)
      (hne : b ≠ ACP_DELIMITER_ROW) : b ∉ rowsText fmtI1S1 rows := by
    intro hm
    obtain ⟨q, hq, hm⟩ := List.mem_flatten.mp hm
    obtain ⟨r, hr, rfl⟩ := List.mem_map.mp hq
    rcases List.mem_append.mp hm with hm | hm
    · exact not_mem_modeRow (h r hr) hb hrow hm
    · exact hne (List.mem_singleton.mp hm)
  -- the rows are counted up to the NUL, which none of them has
  have h₀ : 0 ∉ rowsText fmtI1S1 rows := hnot (Or.inl rfl) rfl (by decide)
  refine ⟨hnot (Or.inr rfl) rfl (by decide), h₀, (blockRows_eq h₀).trans ?_⟩
  exact count_rows fun r hr => not_mem_modeRow (h r hr) (Or.inr rfl) rfl

theorem readChecked_modes {rows : List (ℤ × String)} (h : ∀ r ∈ rows, IsInt r.1 ∧ IsMode r) :
    readChecked scanI1S1 acpBufnrow rows.length (rowsText fmtI1S1 rows) =
      some (rows.map fun r => (r.1, ascii r.2)) := by
  rw [rowsText_modes]
  refine @readChecked_strings (ℤ × List UInt8) _ (fun w => fmtD w.1 ++ ACP_DELIMITER_COLUMN :: w.2)
    _ (fun w hw t => ?_) (fun w hw => ?_) rfl _ (List.length_map _).le
  · obtain ⟨r, hr, rfl⟩ := List.mem_map.mp hw
    exact scanI1S1_row (h r hr).1 (h r hr).2 t
  · obtain ⟨r, hr, rfl⟩ := List.mem_map.mp hw
    exact ⟨not_mem_modeRow (h r hr).2 (Or.inr rfl) rfl, not_mem_modeRow (h r hr).2 (Or.inr rfl) rfl⟩

/-- The strings that `acp_dataToI1S1List` stores are those of the rows. -/
theorem parseI1S1List_rows (stack : Stack) {rows : List (ℤ × String)}
    (h : ∀ r ∈ rows, IsInt r.1 ∧ IsMode r)
    (hr : HasRows request (rowsText fmtI1S1 rows) rows.length)
    (f : List (ℤ × String) → Handled ℚ) : parseI1S1List stack request f = some (parsed rows f) := by
  obtain ⟨-, h₀, -⟩ := rowsText_modes_spec fun r hr => (h r hr).2
  have hroom := stack.length rows.length
  -- every string fits into its item of the array
  obtain ⟨item, hrun, hh⟩ := (decodes_I1S1 rows.length).acpDataToStrings_some h₀
    (readChecked_modes h) (defServerList (stack.i1s1_arr rows.length)) [] rfl
    ⟨hroom, stack.size rows.length, by simp⟩ (by simp)
  rw [List.nil_append] at hrun hh
  have hlist : acpDataToI1S1List (rowsText fmtI1S1 rows)
      (defServerList (stack.i1s1_arr rows.length)) = some
        ⟨item, (rows.map fun r => (r.1, ascii r.2)).length, rows.length⟩ := by
    rw [acpDataToI1S1List, show (defServerList (stack.i1s1_arr rows.length)).max_length =
      rows.length from hroom]
    simpa only [defServerList, hroom] using hrun
  -- and is read back from it as it was sent
  have hback : (rows.map fun r => (r.1, ascii r.2)).map (fun w => (w.1, ofAscii w.2)) = rows := by
    rw [List.map_map]
    refine (List.map_congr_left fun r hr => ?_).trans (List.map_id _)
    have hc : ∀ c ∈ r.2.toList, c.toNat < 256 := fun c hc =>
      lt_of_le_of_lt ((h r hr).2.2.1 c hc).2 (by decide)
    rw [Function.comp_apply, ofAscii_ascii hc, id]
  rw [parseI1S1List, hr.dataString, hr.rows, hlist, Option.bind_some]
  dsimp only
  rw [mapM_holdsI1S1 hh (List.length_map _).le, hback, Option.map_some]

end

/-! The branches. -/

section
variable {R : Type} (scanF : List UInt8 → Option (R × List UInt8))

theorem appActions_names : ∀ b ∈ appActions (R := R), ACP_DELIMITER_BLOCK ∉ b.1 := by
  simp only [appActions, List.forall_mem_cons, List.not_mem_nil, false_imp_iff, implies_true,
    and_true]
  decide

theorem progActions_names (stack : Stack) (request : ACPRequest) :
    ∀ b ∈ progActions scanF stack request, ACP_DELIMITER_BLOCK ∉ b.1 := by
  simp only [progActions, List.forall_mem_cons, List.not_mem_nil, false_imp_iff, implies_true,
    and_true]
  decide

/-- What the server takes a request for that begins with a name. -/
theorem serve_eq (stack : Stack) (init_state : Bool) {request : ACPRequest} {cmd t : List UInt8}
    (hbuf : request.buf = cmd ++ ACP_DELIMITER_BLOCK :: t) (hcmd : ACP_DELIMITER_BLOCK ∉ cmd)
    (hne : cmd ≠ []) (hl : cmd.length < request.buf_size) :
    serveApp init_state request (serveProg scanF stack request) =
      (appActions.lookup cmd).getD (if !init_state then some .ignored
        else ((progActions scanF stack request).lookup cmd).getD (some .other)) := by
  rw [serveApp, cmdChain_eq hbuf hcmd hne hl appActions_names, serveProg,
    cmdChain_eq hbuf hcmd hne hl (progActions_names scanF stack request)]

end

/-- The names of the commands are those of their branches. -/
theorem Command.cmd_spec (c : Command ℚ) :
    (ACP_DELIMITER_BLOCK ∉ c.cmd ∧ 0 ∉ c.cmd) ∧ 3 ≤ c.cmd.length ∧ c.cmd.length ≤ 15 := by
  cases c <;> simp only [Command.cmd] <;> decide

variable [Sqlite ℚ]

/-- A request for programs that its branch has parsed, as the script that is run for it. -/
theorem parsed_run {V : Type*} {rows : List V} {f : List V → Command ℚ}
    (hnil : serverRunProg (f []) = pure ())
    (happ : ∀ init_state, serverRun (f rows) init_state =
      if init_state then serverRunProg (f rows) else pure ()) (init_state : Bool) :
    ∃ s, (if !init_state then some .ignored
        else some (parsed rows fun rows => .command (f rows))) = some s ∧
      s.run init_state = serverRun (f rows) init_state := by
  cases init_state with
  | false => exact ⟨.ignored, rfl, (happ false).symm⟩
  | true =>
    cases rows with
    -- no rows: the macro returns, and the script of no rows does nothing
    | nil => exact ⟨.ignored, rfl, by rw [happ, if_pos rfl, hnil]; rfl⟩
    | cons r rows => exact ⟨_, rfl, rfl⟩

section
variable {stack : Stack} {init_state : Bool} {request : ACPRequest} {c : Command ℚ}
  {t : List UInt8}

/-- A branch that runs a command with its rows. -/
theorem serve_rows {V : Type*} {rows : List V} (f : List V → Command ℚ) (hc : f rows = c)
    (hbuf : request.buf = c.cmd ++ ACP_DELIMITER_BLOCK :: t)
    (hsize : request.buf_size = ACP_BUFFER_MAX_SIZE)
    (happ : (appActions (R := ℚ)).lookup c.cmd = none)
    (hprog : (progActions scanDecimal stack request).lookup c.cmd =
      some (some (parsed rows fun rows => .command (f rows))))
    (hnil : serverRunProg (f []) = pure ())
    (hrun : ∀ init_state, serverRun c init_state =
      if init_state then serverRunProg c else pure ()) :
    ∃ s, serveApp init_state request (serveProg scanDecimal stack request) = some s ∧
      s.run init_state = serverRun c init_state := by
  obtain ⟨⟨hcmd, -⟩, hl⟩ := c.cmd_spec
  subst hc
  rw [serve_eq scanDecimal stack init_state hbuf hcmd (List.ne_nil_of_length_pos (by omega))
    (by rw [hsize]; exact lt_of_le_of_lt hl.2 (by decide)), happ, hprog]
  exact parsed_run hnil hrun init_state

omit [Sqlite ℚ] in
/-- The data of a command in the request that the server has accepted. -/
theorem hasRows {V : Type*} {row : List UInt8 → Option V} {fmt : V → List UInt8} {list : List V}
    (h : ∀ a ∈ list, RowWrites row (fmt a) a)
    (hdata : request.dataString = rowsText fmt list)
    (hrows : request.data_rows_count =
      countDataRows (field ACP_DATA_MAX_SIZE (rowsText fmt list))) :
    HasRows request (rowsText fmt list) list.length :=
  ⟨hdata, hrows.trans (rowsText_spec h).2.2⟩

theorem serve_command (hc : c.Sendable) (hbuf : request.buf = c.cmd ++ ACP_DELIMITER_BLOCK :: t)
    (hsize : request.buf_size = ACP_BUFFER_MAX_SIZE) (hdata : request.dataString = c.data)
    (hrows : request.data_rows_count = countDataRows (field ACP_DATA_MAX_SIZE c.data)) :
    ∃ s, serveApp init_state request (serveProg scanDecimal stack request) = some s ∧
      s.run init_state = serverRun c init_state := by
  -- three of the four kinds of lists, as their branches read them
  have hI1 {ids : List ℤ} (h : ∀ id ∈ ids, IsInt id) (f : List ℤ → Handled ℚ)
      (hd : c.data = rowsText fmtI1 ids) : parseI1List request f = some (parsed ids f) :=
    parseI1List_rows h
      (hasRows (fun id hid => rowWrites_I1 (h id hid)) (hd ▸ hdata) (hd ▸ hrows)) f
  have hI2 {rows : List (ℤ × ℤ)} (h : ∀ r ∈ rows, IsInt r.1 ∧ IsInt r.2)
      (f : List (ℤ × ℤ) → Handled ℚ) (hd : c.data = rowsText (fmtI1X fmtD) (toI1X rows)) :
      parseI2List request f = some (parsed rows f) :=
    parseI2List_rows h (hasRows (rowWrites_I2 h) (hd ▸ hdata) (hd ▸ hrows)) f
  have hI1F1 {rows : List (ℤ × ℚ)} (h : ∀ r ∈ rows, IsInt r.1 ∧ IsMilli r.2)
      (f : List (ℤ × ℚ) → Handled ℚ) (hd : c.data = rowsText (fmtI1X fmtF) (toI1X rows)) :
      parseI1F1List scanDecimal request f = some (parsed rows f) :=
    parseI1F1List_rows h (hasRows (rowWrites_I1F1 h) (hd ▸ hdata) (hd ▸ hrows)) f
  obtain ⟨⟨hcmd, -⟩, hl⟩ := c.cmd_spec
  have happ := serve_eq scanDecimal stack init_state hbuf hcmd
    (List.ne_nil_of_length_pos (by omega)) (by rw [hsize]; exact lt_of_le_of_lt hl.2 (by decide))
  -- one case for each branch; the daemon's own commands do not look at `init_state`
  cases c with
  | appStart | appStop | appReset | appExit => exact ⟨_, happ, rfl⟩
  | progStop ids =>
    exact serve_rows .progStop rfl hbuf hsize rfl (congrArg some (hI1 hc _ rfl)) rfl fun _ => rfl
  | progStart ids =>
    exact serve_rows .progStart rfl hbuf hsize rfl (congrArg some (hI1 hc _ rfl)) rfl fun _ => rfl
  | progReset ids =>
    exact serve_rows .progReset rfl hbuf hsize rfl (congrArg some (hI1 hc _ rfl)) rfl fun _ => rfl
  | progEnable ids =>
    exact serve_rows .progEnable rfl hbuf hsize rfl (congrArg some (hI1 hc _ rfl)) rfl fun _ => rfl
  | progDisable ids =>
    exact serve_rows .progDisable rfl hbuf hsize rfl (congrArg some (hI1 hc _ rfl)) rfl
      fun _ => rfl
  | progSetSave rows =>
    exact serve_rows .progSetSave rfl hbuf hsize rfl (congrArg some (hI2 hc _ rfl)) rfl
      fun _ => rfl
  | setChangeGap rows =>
    exact serve_rows .setChangeGap rfl hbuf hsize rfl (congrArg some (hI2 hc _ rfl)) rfl
      fun _ => rfl
  | setHeaterPower rows =>
    exact serve_rows .setHeaterPower rfl hbuf hsize rfl (congrArg some (hI1F1 hc _ rfl)) rfl
      fun _ => rfl
  | setCoolerPower rows =>
    exact serve_rows .setCoolerPower rfl hbuf hsize rfl (congrArg some (hI1F1 hc _ rfl)) rfl
      fun _ => rfl
  | setGoal rows =>
    exact serve_rows .setGoal rfl hbuf hsize rfl (congrArg some (hI1F1 hc _ rfl)) rfl fun _ => rfl
  | setHeaterDelta rows =>
    exact serve_rows .setHeaterDelta rfl hbuf hsize rfl (congrArg some (hI1F1 hc _ rfl)) rfl
      fun _ => rfl
  | setCoolerDelta rows =>
    exact serve_rows .setCoolerDelta rfl hbuf hsize rfl (congrArg some (hI1F1 hc _ rfl)) rfl
      fun _ => rfl
  | setEMMode rows =>
    have hr : HasRows request (rowsText fmtI1S1 rows) rows.length :=
      ⟨hdata, hrows.trans (rowsText_modes_spec fun r hr => (hc r hr).2).2.2⟩
    exact serve_rows .setEMMode rfl hbuf hsize rfl
      (congrArg some (parseI1S1List_rows stack hc hr _)) rfl fun _ => rfl

end

omit [Sqlite ℚ] in
theorem length_of_rowWrites {V : Type*} {row : List UInt8 → Option V} {line : List UInt8} {a : V}
    (h : RowWrites row line a) : line.length < LINE_SIZE := by
  obtain ⟨w, rfl, -, -, hl⟩ := h
  rw [List.length_append, List.length_singleton]
  omega

omit [Sqlite ℚ] in
/-- The datagram of a command: one packet with its name and all its rows, or none. -/
theorem Command.send_spec {c : Command ℚ} (hc : c.Sendable) (request : ACPRequest) (id : UInt32) :
    (ACP_DELIMITER_BLOCK ∉ c.data ∧ 0 ∉ c.data) ∧
    ∃ request' sent, c.send request id sendtoAll = some (sent.isSome, request', sent) ∧
      (sent = none ↔ ACP_DATA_MAX_SIZE ≤ c.data.length + 1) ∧
      ∀ bytes, sent = some bytes →
        ∃ b, bytes = sentBytes (packetText c.cmd c.data (fmtU id)) b := by
  obtain ⟨hcmd, hl⟩ := c.cmd_spec
  have hcl : c.cmd.length < ACP_COMMAND_MAX_SIZE := lt_of_le_of_lt hl.2 (by decide)
  -- all rows that a decoder of the library reads are sent the same way
  have hlist {V : Type} {row : List UInt8 → Option V} {fmt : V → List UInt8} {list : List V}
      (h : ∀ a ∈ list, RowWrites row (fmt a) a) :=
    And.intro (show ACP_DELIMITER_BLOCK ∉ rowsText fmt list ∧ 0 ∉ rowsText fmt list from
        ⟨(rowsText_spec h).1, (rowsText_spec h).2.1⟩)
      (acpRequestSendList_sent hcmd hcl ⟨(rowsText_spec h).1, (rowsText_spec h).2.1⟩
        (fun a ha => length_of_rowWrites (h a ha)) request id)
  cases c with
  | appStart | appStop | appReset | appExit =>
    obtain ⟨packed, b, hsend⟩ := acpRequestSend_built request hcmd hcl
      (show ACP_DELIMITER_BLOCK ∉ [] ∧ (0 : UInt8) ∉ [] from
        ⟨List.not_mem_nil, List.not_mem_nil⟩) (by decide) id
    refine ⟨⟨List.not_mem_nil, List.not_mem_nil⟩, packed,
      some (sentBytes (packetText _ [] (fmtU id)) b), ?_, by simp [Command.data, ACP_DATA_MAX_SIZE],
      fun bytes hb => ⟨b, (Option.some.inj hb).symm⟩⟩
    have hne (n : ℕ) : ((n + 2 : ℕ) : ℤ) ≠ 0 := by omega
    rw [Command.send, acpRequestSendCmd, acpRequestSetCmd_built hcl.le, hsend, Option.map_some,
      decide_eq_true (hne _)]
    rfl
  | progStop ids | progStart ids | progReset ids | progEnable ids | progDisable ids =>
    exact hlist fun id hid => rowWrites_I1 (hc id hid)
  | progSetSave rows | setChangeGap rows => exact hlist (rowWrites_I2 hc)
  | setHeaterPower rows | setCoolerPower rows | setGoal rows | setHeaterDelta rows
  | setCoolerDelta rows => exact hlist (rowWrites_I1F1 hc)
  | setEMMode rows =>
    obtain ⟨h13, h₀, -⟩ := rowsText_modes_spec fun r hr => (hc r hr).2
    exact ⟨⟨h13, h₀⟩, acpRequestSendList_sent hcmd hcl ⟨h13, h₀⟩
      (fun r hr => (hc r hr).2.2.2) request id⟩

/-- Every command that a client sends with the library is refused because its rows do not fit, and
nothing is sent, or the server runs the script of this command, and no other, when it gets it. -/
theorem sent_commands_served (c : Command ℚ) (hc : c.Sendable) (request srv : ACPRequest)
    (id : UInt32) (stack : Stack) (init_state : Bool) (peer : Peer) (src : SockAddr) :
    ∃ request' sent, c.send request id sendtoAll = some (sent.isSome, request', sent) ∧
      (sent = none ↔ ACP_DATA_MAX_SIZE ≤ c.data.length + 1) ∧
      ∀ bytes, sent = some bytes → ∃ s item,
        serverRead scanDecimal stack srv init_state peer (some ⟨src, bytes⟩) =
            some (s, item, ⟨src⟩) ∧
          s.run init_state = serverRun c init_state := by
  obtain ⟨hd, request', sent, hsend, hfit, hbytes⟩ := Command.send_spec hc request id
  refine ⟨request', sent, hsend, hfit, fun bytes hb => ?_⟩
  obtain ⟨b, rfl⟩ := hbytes bytes hb
  -- what was sent has fitted
  have hdl : c.data.length + 1 < ACP_DATA_MAX_SIZE := by
    rw [← not_le, ← hfit, hb]
    simp
  obtain ⟨hcmd, hl⟩ := c.cmd_spec
  obtain ⟨⟨t, ht⟩, hdata, hrows⟩ :=
    receivedRequest_spec srv c.cmd hd.2 (Nat.lt_of_succ_lt hdl) id b
  obtain ⟨s, hs, hrun⟩ : ∃ s, serveApp init_state (receivedRequest srv c.cmd c.data id b)
      (serveProg scanDecimal stack (receivedRequest srv c.cmd c.data id b)) = some s ∧
        s.run init_state = serverRun c init_state := serve_command hc ht rfl hdata hrows
  refine ⟨s, receivedRequest srv c.cmd c.data id b, ?_, hrun⟩
  rw [serverRead_packet scanDecimal stack srv init_state peer hcmd hd hl (by omega), hs,
    Option.map_some]

/-- A stack that is all zero. -/
def zeroStack : Stack where
  i1s1_arr n := List.replicate n ⟨0, lineBuf⟩
  length n := List.length_replicate
  size n i hi := by
    rw [(List.mem_replicate.mp hi).2]
    exact List.length_replicate

/-- A database that keeps the numbers that it is given. -/
@[reducible] def keeping : Sqlite ℚ where
  stored := id
  quoted := fun _ _ t => t

omit [Sqlite ℚ] in
/-- The last theorem for a new goal of two programs. -/
theorem sent_commands_served_example :
    let _ := keeping
    let c : Command ℚ := .setGoal [(1, 43 / 2), (-7, 18)]
    ∃ request' sent, c.send blankRequest 5 sendtoAll = some (sent.isSome, request', sent) ∧
      (sent = none ↔ ACP_DATA_MAX_SIZE ≤ c.data.length + 1) ∧
      ∀ bytes, sent = some bytes → ∃ s item,
        serverRead scanDecimal zeroStack blankRequest true ⟨⟨0, 0⟩⟩ (some ⟨⟨0, 0⟩, bytes⟩) =
            some (s, item, ⟨⟨0, 0⟩⟩) ∧ s.run true = serverRun c true := by
  intro _ c
  have hc : c.Sendable := by
    intro r hr
    rcases List.mem_pair.mp hr with rfl | rfl
    · exact ⟨by simp [IsInt], ⟨21500, by norm_num⟩, by norm_num [abs_of_pos]⟩
    · exact ⟨by simp [IsInt], ⟨18000, by norm_num⟩, by norm_num⟩
  exact sent_commands_served c hc blankRequest blankRequest 5 zeroStack true _ _

end Regonf
