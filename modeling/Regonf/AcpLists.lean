import Regonf.AcpCodec
import Regonf.AcpResponseWire

/-! Lists that are sent row by row, and what the receiver's decoder makes of the data block. -/
namespace Regonf

open Blocks Rows

variable {V : Type*}

/-- The bytes of a row: those of its columns, and the tabs. -/
def isRowByte (b : UInt8) : Bool := isdigit b || b == 45 || b == 46 || b == ACP_DELIMITER_COLUMN

/-- `line` is a row that `row` reads as `a`, with its line end. -/
def RowWrites (row : List UInt8 → Option V) (line : List UInt8) (a : V) : Prop :=
  ∃ w, line = w ++ [ACP_DELIMITER_ROW] ∧ row w = some a ∧ (∀ b ∈ w, isRowByte b = true) ∧
    w.length < LINE_SIZE - 1

theorem not_mem_row {w : List UInt8} (h : ∀ b ∈ w, isRowByte b = true) {d : UInt8}
    (hd : isRowByte d = false) : d ∉ w := by
  intro hm
  rw [h d hm] at hd
  cases hd

theorem Writes.rowBytes {conv : List UInt8 → Option (V × List UInt8)} {w : List UInt8} {v : V}
    (h : Writes conv w v) : ∀ b ∈ w, isRowByte b = true := by
  intro b hb
  rcases h.chars b hb with hd | rfl | rfl
  · simp [isRowByte, hd]
  · rfl
  · rfl

theorem rowBytes_column {w x : List UInt8} (hw : ∀ b ∈ w, isRowByte b = true)
    (hx : ∀ b ∈ x, isRowByte b = true) :
    ∀ b ∈ w ++ ACP_DELIMITER_COLUMN :: x, isRowByte b = true :=
  List.forall_mem_append.mpr ⟨hw, List.forall_mem_cons.mpr ⟨rfl, hx⟩⟩

theorem Writes.splitOn {conv : List UInt8 → Option (V × List UInt8)} {w : List UInt8} {v : V}
    (h : Writes conv w v) (x : List UInt8) :
    (w ++ ACP_DELIMITER_COLUMN :: x).splitOn ACP_DELIMITER_COLUMN =
      w :: x.splitOn ACP_DELIMITER_COLUMN :=
  List.splitOn_append_cons_self_of_not_mem (h.not_mem (by decide)) x

theorem rowWrites_I1 {p0 : ℤ} (h : IsInt p0) : RowWrites rowI1 (fmtI1 p0) p0 :=
  ⟨fmtD p0, rfl, (writes_int h).column, (writes_int h).rowBytes,
    lt_of_le_of_lt (writes_int h).length (by decide)⟩

theorem rowWrites_I1X {conv : List UInt8 → Option (V × List UInt8)} {fmt : V → List UInt8}
    {i : I1X V} (h : IsInt i.p0) (h₁ : Writes conv (fmt i.p1) i.p1) :
    RowWrites (rowI1X conv) (fmtI1X fmt i) i := by
  have h₀ := writes_int h
  refine ⟨fmtD i.p0 ++ ACP_DELIMITER_COLUMN :: fmt i.p1, rfl, ?_,
    rowBytes_column h₀.rowBytes h₁.rowBytes, ?_⟩
  · rw [rowI1X, h₀.splitOn, List.splitOn_eq_singleton (h₁.not_mem (by decide))]
    simp [h₀.column, h₁.column]
  · have hl₀ := h₀.length
    have hl₁ := h₁.length
    simp only [List.length_append, List.length_cons, LINE_SIZE]
    omega

/-- The row of `acp_responseFTSCat`, with a text of the value. -/
theorem rowWrites_FTS_value {R : Type*} {conv : List UInt8 → Option (R × List UInt8)} {f : FTS R}
    {w : List UInt8} (hid : IsInt f.id) (h₁ : Writes conv w f.value) (hs : IsLong f.tm.tv_sec)
    (hn : IsLong f.tm.tv_nsec) (ht : IsInt f.state) :
    RowWrites (rowFTS conv) (fmtD f.id ++ ACP_DELIMITER_COLUMN :: w ++
      ACP_DELIMITER_COLUMN :: fmtD f.tm.tv_sec ++ ACP_DELIMITER_COLUMN :: fmtD f.tm.tv_nsec ++
      ACP_DELIMITER_COLUMN :: fmtD f.state ++ [ACP_DELIMITER_ROW]) f := by
  have h₀ := writes_int hid
  have h₂ := writes_long hs
  have h₃ := writes_long hn
  have h₄ := writes_int ht
  refine ⟨fmtD f.id ++ ACP_DELIMITER_COLUMN :: (w ++ ACP_DELIMITER_COLUMN ::
      (fmtD f.tm.tv_sec ++ ACP_DELIMITER_COLUMN :: (fmtD f.tm.tv_nsec ++ ACP_DELIMITER_COLUMN ::
        fmtD f.state))), by simp, ?_,
    rowBytes_column h₀.rowBytes (rowBytes_column h₁.rowBytes (rowBytes_column h₂.rowBytes
      (rowBytes_column h₃.rowBytes h₄.rowBytes))), ?_⟩
  · rw [rowFTS, h₀.splitOn, h₁.splitOn, h₂.splitOn, h₃.splitOn,
      List.splitOn_eq_singleton (h₄.not_mem (by decide))]
    simp [h₀.column, h₁.column, h₂.column, h₃.column, h₄.column]
  · have hl₀ := h₀.length
    have hl₁ := h₁.length
    have hl₂ := h₂.length
    have hl₃ := h₃.length
    have hl₄ := h₄.length
    simp only [List.length_append, List.length_cons, LINE_SIZE]
    omega

theorem rowWrites_FTS {f : FTS ℚ} (hid : IsInt f.id) (hv : IsMilli f.value)
    (hs : IsLong f.tm.tv_sec) (hn : IsLong f.tm.tv_nsec) (ht : IsInt f.state) :
    RowWrites (rowFTS scanDecimal) (fmtFTS f) f :=
  rowWrites_FTS_value hid (writes_decimal hv) hs hn ht

/-- The rows of a list without their line ends. -/
theorem exists_rows {row : List UInt8 → Option V} {fmt : V → List UInt8} {list : List V}
    (h : ∀ a ∈ list, RowWrites row (fmt a) a) :
    ∃ rs : List (List UInt8), list.map fmt = rs.map (· ++ [ACP_DELIMITER_ROW]) ∧
      rs.map row = list.map some ∧ (∀ r ∈ rs, ∀ b ∈ r, isRowByte b = true) ∧
      rs.length = list.length := by
  induction list with
  | nil => exact ⟨[], rfl, rfl, List.forall_mem_nil _, rfl⟩
  | cons a list ih =>
    obtain ⟨⟨w, hw, hrow, hbytes, -⟩, h⟩ := List.forall_mem_cons.mp h
    obtain ⟨rs, h₁, h₂, h₃, h₄⟩ := ih h
    refine ⟨w :: rs, ?_, ?_, List.forall_mem_cons.mpr ⟨hbytes, h₃⟩, by simp [h₄]⟩
    · rw [List.map_cons, List.map_cons, hw, h₁]
    · rw [List.map_cons, List.map_cons, hrow, h₂]

theorem countDataRows_append {r : List UInt8} (h0 : 0 ∉ r) (h10 : ACP_DELIMITER_ROW ∉ r)
    (t : List UInt8) : countDataRows (r ++ t) = countDataRows t := by
  induction r with
  | nil => rfl
  | cons b r ih =>
    obtain ⟨hb0, h0⟩ := not_or.mp (mt List.mem_cons.mpr h0)
    obtain ⟨hb10, h10⟩ := not_or.mp (mt List.mem_cons.mpr h10)
    rw [List.cons_append, countDataRows, if_neg (Ne.symm hb0), ih h0 h10,
      if_neg (Ne.symm hb10), Nat.add_zero]

theorem countDataRows_rows {rs : List (List UInt8)} (h : ∀ r ∈ rs, ∀ b ∈ r, isRowByte b = true)
    (t : List UInt8) :
    countDataRows ((rs.map (· ++ [ACP_DELIMITER_ROW])).flatten ++ t) =
      rs.length + countDataRows t := by
  induction rs with
  | nil => simp
  | cons r rs ih =>
    obtain ⟨hr, h⟩ := List.forall_mem_cons.mp h
    rw [List.map_cons, List.flatten_cons, List.append_assoc, List.append_assoc,
      countDataRows_append (not_mem_row hr rfl) (not_mem_row hr rfl), List.singleton_append,
      countDataRows, if_neg (by decide), ih h, if_pos rfl, List.length_cons]
    omega

theorem not_mem_rows {rs : List (List UInt8)} (h : ∀ r ∈ rs, ∀ b ∈ r, isRowByte b = true)
    {d : UInt8} (hd : isRowByte d = false) (hne : d ≠ ACP_DELIMITER_ROW) :
    d ∉ (rs.map (· ++ [ACP_DELIMITER_ROW])).flatten := by
  intro hm
  obtain ⟨q, hq, hdq⟩ := List.mem_flatten.mp hm
  obtain ⟨r, hr, rfl⟩ := List.mem_map.mp hq
  rcases List.mem_append.mp hdq with hdr | hdr
  · exact not_mem_row (h r hr) hd hdr
  · exact hne (List.mem_singleton.mp hdr)

theorem countDataRows_zeros (n : ℕ) : countDataRows (List.replicate n 0) = 0 := by
  cases n with
  | zero => rfl
  | succ n => rw [List.replicate_succ, countDataRows, if_pos rfl]

/-- The string that the decoders read from the data field of a request; the buffer follows it. -/
def ACPRequest.dataString (item : ACPRequest) : List UInt8 :=
  (item.data ++ item.buf).takeWhile (· ≠ 0)

/-- The data that an accepted request hands to the decoders, if its data block has no NUL. -/
theorem dataString_block {item item' : ACPRequest} {peer peer' : Peer} {d : Datagram}
    {x : List UInt8} (h : acpRequestRead (acpRequestInit item) peer (some d) =
      some (true, item', peer'))
    (hx : block ACP_DELIMITER_BLOCK 1 (recvInto (List.replicate ACP_BUFFER_MAX_SIZE 0) d) = x)
    (h₀ : 0 ∉ x) :
    item'.data_rows_count = countDataRows (field ACP_DATA_MAX_SIZE x) ∧
      ∃ t, item'.dataString = x ++ t ∧ (x.length < ACP_DATA_MAX_SIZE → t = []) := by
  obtain ⟨g, hg, hbuf, -, hdata, hrows⟩ := acpRequestRead_true h
  cases hg
  rw [hbuf, hx] at hdata
  refine ⟨by rw [hrows, hdata], (List.replicate (ACP_DATA_MAX_SIZE - x.length) 0 ++
    item'.buf).takeWhile (· ≠ 0), ?_, fun hlt => ?_⟩
  · have hne : ∀ b ∈ x, (fun b : UInt8 => decide (b ≠ 0)) b = true := by
      intro b hb
      exact decide_eq_true fun he => h₀ (he ▸ hb)
    rw [ACPRequest.dataString, hdata, field, List.append_assoc,
      List.takeWhile_append_of_pos hne]
  · obtain ⟨k, hk⟩ := Nat.exists_eq_add_of_lt hlt
    rw [show ACP_DATA_MAX_SIZE - x.length = k + 1 by omega, List.replicate_succ]
    rfl

theorem intercalate_snoc (d : UInt8) (rs : List (List UInt8)) (r : List UInt8) :
    [d].intercalate (rs ++ [r]) = (rs.map (· ++ [d])).flatten ++ r := by
  induction rs with
  | nil => simp
  | cons q rs ih =>
    rw [List.cons_append, List.intercalate_cons_of_ne_nil (by simp), ih]
    simp

/-- Program ids in decimal with a newline between two of them, and behind the last one if `nl`. -/
def idsBlock (ids : List ℤ) (nl : Bool) : List UInt8 :=
  [ACP_DELIMITER_ROW].intercalate (ids.map fmtD) ++ if nl then [ACP_DELIMITER_ROW] else []

theorem rowBytes_fmtD (v : ℤ) : ∀ b ∈ fmtD v, isRowByte b = true := by
  intro b hb
  rcases chars_fmtD v b hb with hd | rfl | rfl
  · simp [isRowByte, hd]
  · rfl
  · rfl

/-- The ids of an accepted request are decoded, each and in order, exactly when there is a newline
behind the last one. -/
theorem ids_decoded {ids : List ℤ} (hne : ids ≠ []) (hids : ∀ i ∈ ids, IsInt i) (nl : Bool)
    {item item' : ACPRequest} {peer peer' : Peer} {d : Datagram}
    (h : acpRequestRead (acpRequestInit item) peer (some d) = some (true, item', peer'))
    (hd : block ACP_DELIMITER_BLOCK 1 (recvInto (List.replicate ACP_BUFFER_MAX_SIZE 0) d) =
      idsBlock ids nl) :
    acpDataToI1List item'.data_rows_count item'.dataString = ids ↔ nl = true := by
  obtain ⟨init, last, rfl⟩ := (List.eq_nil_or_concat' ids).resolve_left hne
  have hbytes : ∀ r ∈ init.map fmtD, ∀ b ∈ r, isRowByte b = true := by
    intro r hr
    obtain ⟨v, -, rfl⟩ := List.mem_map.mp hr
    exact rowBytes_fmtD v
  have hblock : idsBlock (init ++ [last]) nl =
      ((init.map fmtD).map (· ++ [ACP_DELIMITER_ROW])).flatten ++
        (fmtD last ++ if nl then [ACP_DELIMITER_ROW] else []) := by
    rw [idsBlock, List.map_append, List.map_singleton, intercalate_snoc, List.append_assoc]
  rw [hblock] at hd
  have h₀ : 0 ∉ ((init.map fmtD).map (· ++ [ACP_DELIMITER_ROW])).flatten ++
      (fmtD last ++ if nl then [ACP_DELIMITER_ROW] else []) := by
    have hlast : 0 ∉ fmtD last := not_mem_row (rowBytes_fmtD last) rfl
    have hinit := not_mem_rows hbytes (d := 0) rfl (by decide)
    rw [List.mem_append, List.mem_append, not_or, not_or]
    exact ⟨hinit, hlast, by cases nl <;> decide⟩
  obtain ⟨hcount, t, ht, -⟩ := dataString_block h hd h₀
  rw [field, List.append_assoc, countDataRows_rows hbytes, List.append_assoc,
    countDataRows_append (not_mem_row (rowBytes_fmtD last) rfl)
      (not_mem_row (rowBytes_fmtD last) rfl), List.length_map] at hcount
  cases nl with
  | false =>
    -- one row less is counted, so one id less is decoded
    rw [if_neg (by decide), List.nil_append, countDataRows_zeros, Nat.add_zero] at hcount
    refine iff_of_false (fun he => ?_) (by decide)
    have hle : (acpDataToI1List item'.data_rows_count item'.dataString).length ≤
        item'.data_rows_count := length_readRows_le _ _
    rw [he, hcount, List.length_append, List.length_singleton] at hle
    omega
  | true =>
    -- every row is counted, so the list is full behind the last id, whatever follows the data
    refine iff_of_true ?_ rfl
    have hrow : ((init ++ [last]).map fmtD).map rowI1 = (init ++ [last]).map some := by
      rw [List.map_map]
      exact List.map_congr_left fun v hv => (writes_int (hids v hv)).column
    have hmem : ∀ r ∈ (init ++ [last]).map fmtD, ACP_DELIMITER_ROW ∉ r := by
      intro r hr
      obtain ⟨v, -, rfl⟩ := List.mem_map.mp hr
      exact not_mem_row (rowBytes_fmtD v) rfl
    have hn : item'.data_rows_count = (init ++ [last]).length := by
      rw [hcount, if_pos rfl, List.singleton_append, countDataRows, if_neg (by decide),
        countDataRows_zeros, if_pos rfl, List.length_append, List.length_singleton]
    have htext : item'.dataString =
        (((init ++ [last]).map fmtD).map (· ++ [ACP_DELIMITER_ROW])).flatten ++ t := by
      rw [ht]
      simp
    rw [hn, htext]
    exact readsRows_I1.readRows_full hmem hrow t

/-- The request `pst` with the rows 1 and 2, the second with its newline. -/
theorem ids_decoded_example :
    ∃ item', acpRequestRead (acpRequestInit blankRequest) ⟨⟨0, 0⟩⟩
        (some ⟨⟨0, 0⟩, sentBytes (packetText [112, 115, 116] [49, 10, 50, 10] (fmtU 7)) 0⟩) =
        some (true, item', ⟨⟨0, 0⟩⟩) ∧
      acpDataToI1List item'.data_rows_count item'.dataString = [1, 2] := by
  have hread := acpRequestRead_packet [112, 115, 116] [49, 10, 50, 10] 7
    (by decide) (by decide) (by decide) (by decide) (by decide) blankRequest ⟨⟨0, 0⟩⟩ ⟨0, 0⟩ 0
  exact ⟨_, hread,
    (ids_decoded (by decide) (by simp [IsInt]) true hread (by decide +kernel)).mpr rfl⟩

/-- The `pst '1\n2'` of the README: only program 1 is decoded. -/
theorem readme_row_lost :
    ∃ item', acpRequestRead (acpRequestInit blankRequest) ⟨⟨0, 0⟩⟩
        (some ⟨⟨0, 0⟩, sentBytes (packetText [112, 115, 116] (idsBlock [1, 2] false) (fmtU 7)) 0⟩) =
        some (true, item', ⟨⟨0, 0⟩⟩) ∧
      acpDataToI1List item'.data_rows_count item'.dataString = [1] := by
  have hread := acpRequestRead_packet [112, 115, 116] (idsBlock [1, 2] false) 7
    (by decide) (by decide) (by decide) (by decide) (by decide) blankRequest ⟨⟨0, 0⟩⟩ ⟨0, 0⟩ 0
  exact ⟨_, hread, by decide +kernel⟩

/-- The text of a list. -/
def rowsText (fmt : V → List UInt8) (list : List V) : List UInt8 := (list.map fmt).flatten

section
variable {row scan : List UInt8 → Option V} {fmt : V → List UInt8} {list : List V}

/-- The rows of a list are decoded, by a decoder with room for them. -/
theorem acpDataToList_rows (hread : ReadsRows row scan acpBufnrow ACP_DELIMITER_ROW)
    (h : ∀ a ∈ list, RowWrites row (fmt a) a) {n : ℕ} (hn : list.length ≤ n) :
    acpDataToList scan n (rowsText fmt list) = list := by
  obtain ⟨rs, hrs, hrow, hbytes, -⟩ := exists_rows h
  rw [rowsText, hrs]
  exact hread.readRows_rows (fun r hr => not_mem_row (hbytes r hr) rfl) hrow hn

/-- What the text of a list is made of, and the number of its rows. -/
theorem rowsText_spec (h : ∀ a ∈ list, RowWrites row (fmt a) a) :
    ACP_DELIMITER_BLOCK ∉ rowsText fmt list ∧ 0 ∉ rowsText fmt list ∧
      countDataRows (field ACP_DATA_MAX_SIZE (rowsText fmt list)) = list.length := by
  obtain ⟨rs, hrs, -, hbytes, hlen⟩ := exists_rows h
  rw [rowsText, hrs]
  refine ⟨not_mem_rows hbytes rfl (by decide), not_mem_rows hbytes rfl (by decide), ?_⟩
  rw [field, countDataRows_rows hbytes, countDataRows_zeros, hlen, Nat.add_zero]

/-- A list without rows has no text, and a row has a byte in front of its line end. -/
theorem rowsText_short (hnil : row [] = none) (h : ∀ a ∈ list, RowWrites row (fmt a) a) :
    rowsText fmt list = [] ∨ 2 ≤ (rowsText fmt list).length := by
  cases list with
  | nil => exact Or.inl rfl
  | cons a list =>
    obtain ⟨w, hw, hrow, -, -⟩ := h a List.mem_cons_self
    have hne : w ≠ [] := by
      rintro rfl
      rw [hnil] at hrow
      cases hrow
    have hpos := List.length_pos_iff.mpr hne
    right
    rw [rowsText, List.map_cons, List.flatten_cons, hw]
    simp only [List.length_append, List.length_singleton]
    omega

/-- `snprintf` cuts no row. -/
theorem map_take_rows (h : ∀ a ∈ list, RowWrites row (fmt a) a) :
    list.map (fun a => (fmt a).take (LINE_SIZE - 1)) = list.map fmt := by
  refine List.map_congr_left fun a ha => List.take_of_length_le ?_
  obtain ⟨w, hw, -, -, hl⟩ := h a ha
  rw [hw, List.length_append, List.length_singleton]
  exact hl

end

/-- A list is refused because its rows do not fit into the data field, and nothing is sent; or it
is sent, and the data block of the request that a server accepts is decoded to the same list. -/
def RequestListSurvives
    (send : List UInt8 → List V → ACPRequest → UInt32 → (List UInt8 → ℤ) →
      Option (Bool × ACPRequest × Option (List UInt8)))
    (fmt : V → List UInt8) (decode : ℕ → List UInt8 → List V) (list : List V) : Prop :=
  ∀ (cmd : List UInt8) (request srv : ACPRequest) (id : UInt32) (peer : Peer) (src : SockAddr),
    ACP_DELIMITER_BLOCK ∉ cmd → 0 ∉ cmd → cmd.length < ACP_COMMAND_MAX_SIZE →
    ∃ request' sent, send cmd list request id sendtoAll = some (sent.isSome, request', sent) ∧
      (sent = none ↔ ACP_DATA_MAX_SIZE ≤ (rowsText fmt list).length + 1) ∧
      ∀ bytes, sent = some bytes →
        (3 ≤ cmd.length + (rowsText fmt list).length → ∃ item,
          acpRequestRead (acpRequestInit srv) peer (some ⟨src, bytes⟩) = some (true, item, ⟨src⟩)) ∧
        ∀ item peer', acpRequestRead (acpRequestInit srv) peer (some ⟨src, bytes⟩) =
            some (true, item, peer') →
          ∀ n, n = item.data_rows_count ∨ list.length ≤ n → decode n item.dataString = list

/-- The datagram of a packed request. -/
theorem acpRequestSend_packed {built packed : ACPRequest} {cmd data t : List UInt8} {id : UInt32}
    {b : UInt8} (hpack : acpRequestPack built id = some packed)
    (hbuf : packed.buf = packetText cmd data (fmtU id) ++
      crcUpdateByStr 0 (packetText cmd data (fmtU id)) :: b :: t)
    (hsize : packed.buf_size = ACP_BUFFER_MAX_SIZE)
    (hlen : (packetText cmd data (fmtU id)).length + 2 + t.length = ACP_BUFFER_MAX_SIZE)
    (hc : ACP_DELIMITER_BLOCK ∉ cmd) (hd : ACP_DELIMITER_BLOCK ∉ data) :
    acpRequestSend built id sendtoAll =
      some ((((packetText cmd data (fmtU id)).length + 2 : ℕ) : ℤ), packed,
        sentBytes (packetText cmd data (fmtU id)) b) := by
  have hsend := acpSendBuf_packed hc hd (not_mem_fmtU id).1 hbuf hlen hsize
  rw [acpRequestSend, hpack, Option.map_some]
  dsimp only
  rw [hsend]

theorem requestListSurvives {row scan : List UInt8 → Option V} {fmt : V → List UInt8}
    (hread : ReadsRows row scan acpBufnrow ACP_DELIMITER_ROW) {list : List V}
    (h : ∀ a ∈ list, RowWrites row (fmt a) a) :
    RequestListSurvives (acpRequestSendList fun a => some (fmt a)) fmt (acpDataToList scan)
      list := by
  intro cmd request srv id peer src hc hc₀ hcl
  obtain ⟨h13, h0, hcount⟩ := rowsText_spec h
  have hq : ∀ q ∈ list.map fmt, 0 ∉ q := by
    intro q hq hm
    exact h0 (List.mem_flatten.mpr ⟨q, hq, hm⟩)
  have hcats := acpRequestStrCats_built request cmd (x := []) List.not_mem_nil hq (by decide)
  rw [List.nil_append, ← rowsText] at hcats
  unfold acpRequestSendList
  rw [acpRequestSetCmd_built hcl.le, map_some_rows, acpRequestCatRows_some, List.map_map,
    Function.comp_def, map_take_rows h]
  by_cases hfit : (rowsText fmt list).length + 1 < ACP_DATA_MAX_SIZE
  -- the rows fit: they are packed and sent, and the server finds them in block 1
  · rw [if_pos hfit] at hcats
    obtain ⟨b, t, hpack, hlen⟩ := acpRequestPack_built request hc₀ hcl h0 hfit id
    obtain ⟨packed, hpack, hbuf, hsize⟩ : ∃ packed,
        acpRequestPack (builtRequest request cmd (rowsText fmt list)) id = some packed ∧
        packed.buf = packetText cmd (rowsText fmt list) (fmtU id) ++
          crcUpdateByStr 0 (packetText cmd (rowsText fmt list) (fmtU id)) :: b :: t ∧
        packed.buf_size = ACP_BUFFER_MAX_SIZE := ⟨_, hpack, rfl, rfl⟩
    have hsend := acpRequestSend_packed hpack hbuf hsize hlen hc h13
    refine ⟨packed, some (sentBytes (packetText cmd (rowsText fmt list) (fmtU id)) b), ?_,
      iff_of_false (by simp) (not_le.mpr hfit), fun bytes hbytes => ?_⟩
    · rw [hcats, Option.bind_some, if_pos rfl, hsend, Option.map_some]
      have hpos : ¬(((packetText cmd (rowsText fmt list) (fmtU id)).length + 2 : ℕ) : ℤ) < 0 :=
        not_lt.mpr (Int.natCast_nonneg _)
      rw [decide_eq_false hpos]
      rfl
    cases hbytes
    refine ⟨fun hmin => ⟨_, acpRequestRead_packet _ _ id ⟨hc, hc₀⟩ ⟨h13, h0⟩ hcl.le (by omega)
      hmin srv peer src b⟩, fun item peer' hitem n hn => ?_⟩
    have hblock : block ACP_DELIMITER_BLOCK 1 (recvInto (List.replicate ACP_BUFFER_MAX_SIZE 0)
        ⟨src, sentBytes (packetText cmd (rowsText fmt list) (fmtU id)) b⟩) = rowsText fmt list := by
      have hle : (sentBytes (packetText cmd (rowsText fmt list) (fmtU id)) b).length ≤
          ACP_BUFFER_MAX_SIZE := by
        simp only [sentBytes, List.length_append, List.length_cons, List.length_nil]
        omega
      rw [recvInto_zeros hle, field, sentBytes, List.append_assoc]
      exact block_one_packet hc h13 _
    obtain ⟨hrows, t', hdata, ht'⟩ := dataString_block hitem hblock h0
    -- the rows leave room in the field for the NUL, so the decoder sees nothing else
    rw [ht' (by omega), List.append_nil] at hdata
    rw [hdata]
    refine acpDataToList_rows hread h ?_
    rcases hn with rfl | hn
    · rw [hrows, hcount]
    · exact hn
  · rw [if_neg hfit] at hcats
    obtain ⟨item', hcats⟩ := hcats
    refine ⟨item', none, ?_, iff_of_true rfl (not_lt.mp hfit), by simp⟩
    rw [hcats]
    rfl

/-- The response to a request with a string in its data field. -/
def builtResponse (id₀ id : UInt32) (x : List UInt8) : ACPResponseOut :=
  { acpResponseCoopRequest (acpResponseOutInit id₀) id with data := field ACP_DATA_MAX_SIZE x }

/-- A run of `acp_responseFTSCat`: all rows are appended if two bytes remain free, and else one of
the calls fails. -/
theorem acpResponseFTSCats_built (id₀ id : UInt32) {x : List UInt8} {list : List (FTS ℚ)}
    (hx : 0 ∉ x) (h : ∀ f ∈ list, RowWrites (rowFTS scanDecimal) (fmtFTS f) f)
    (hl : x.length + 1 < ACP_DATA_MAX_SIZE) :
    if (x ++ rowsText fmtFTS list).length + 1 < ACP_DATA_MAX_SIZE then
      acpResponseFTSCats (builtResponse id₀ id x) list =
        some (true, builtResponse id₀ id (x ++ rowsText fmtFTS list))
    else ∃ r, acpResponseFTSCats (builtResponse id₀ id x) list = some (false, r) := by
  induction list generalizing x with
  | nil => rw [rowsText, List.map_nil, List.flatten_nil, List.append_nil, if_pos hl,
      acpResponseFTSCats]
  | cons f list ih =>
    obtain ⟨⟨w, hw, -, hbytes, hwl⟩, h⟩ := List.forall_mem_cons.mp h
    have htake : (fmtFTS f).take (LINE_SIZE - 1) = fmtFTS f := by
      refine List.take_of_length_le ?_
      rw [hw, List.length_append, List.length_singleton]
      exact hwl
    have hf₀ : 0 ∉ fmtFTS f := by
      rw [hw, List.mem_append, not_or]
      exact ⟨not_mem_row hbytes rfl, by decide⟩
    -- one row: `snprintf` does not cut it, and it is appended if it fits
    have hcat : acpResponseFTSCat f (builtResponse id₀ id x) =
        if x.length + (fmtFTS f).length + 1 ≥ ACP_DATA_MAX_SIZE then
          some (false, builtResponse id₀ id x)
        else some (true, builtResponse id₀ id (x ++ fmtFTS f)) := by
      rw [acpResponseFTSCat, htake, acpResponseStrCat,
        show (builtResponse id₀ id x).data = field ACP_DATA_MAX_SIZE x from rfl,
        show (builtResponse id₀ id x).data_size = ACP_DATA_MAX_SIZE from rfl,
        dataStrCat_field hx (by omega)]
      split_ifs <;> rfl
    have htext : x ++ rowsText fmtFTS (f :: list) = x ++ fmtFTS f ++ rowsText fmtFTS list := by
      simp [rowsText]
    rw [acpResponseFTSCats, hcat, htext]
    by_cases hfit : x.length + (fmtFTS f).length + 1 ≥ ACP_DATA_MAX_SIZE
    · rw [if_pos hfit, if_neg (by simp only [List.length_append]; omega)]
      exact ⟨_, rfl⟩
    · rw [if_neg hfit]
      have hi := ih (x := x ++ fmtFTS f) (by simp [hx, hf₀]) h
        (by rw [List.length_append]; omega)
      simpa using hi

/-- The same for a list that is built row by row with `acp_responseFTSCat` in the response to a
request: a client reads the same list from the datagram. -/
def FTSListSurvives (list : List (FTS ℚ)) : Prop :=
  ∀ (id₀ id id₁ : UInt32) (peer : Peer) (src : SockAddr),
    ∃ ok built, acpResponseFTSCats (acpResponseCoopRequest (acpResponseOutInit id₀) id) list =
        some (ok, built) ∧
      (ok = false ↔ ACP_DATA_MAX_SIZE ≤ (rowsText fmtFTS list).length + 1) ∧
      (ok = true → ∃ sz response bytes,
        acpResponseSend built sendtoAll = some (sz, response, bytes) ∧
        ∃ item, acpResponseRead (acpResponseInit id₁) peer (some ⟨src, bytes⟩) =
            some (true, item, ⟨src⟩) ∧
          ∀ n, n = countDataRows item.data ∨ list.length ≤ n →
            acpDataToFTSList scanDecimal n item.dataString = list)

theorem ftsListSurvives {list : List (FTS ℚ)}
    (h : ∀ f ∈ list, RowWrites (rowFTS scanDecimal) (fmtFTS f) f) : FTSListSurvives list := by
  intro id₀ id id₁ peer src
  obtain ⟨h13, h0, hcount⟩ := rowsText_spec h
  have hcats := acpResponseFTSCats_built id₀ id (x := []) List.not_mem_nil h (by decide)
  rw [List.nil_append] at hcats
  have hinit : acpResponseCoopRequest (acpResponseOutInit id₀) id = builtResponse id₀ id [] := rfl
  rw [hinit]
  by_cases hfit : (rowsText fmtFTS list).length + 1 < ACP_DATA_MAX_SIZE
  · rw [if_pos hfit] at hcats
    refine ⟨true, _, hcats, iff_of_false (by simp) (not_le.mpr hfit), fun _ => ?_⟩
    have hstr : IsStr (rowsText fmtFTS list) := ⟨h13, h0, by omega⟩
    obtain ⟨b, t, hpack, hlen, hb⟩ :=
      acpResponsePack_field (r := builtResponse id₀ id (rowsText fmtFTS list)) (k := 0) hstr
        (Or.inl rfl) rfl List.length_replicate rfl rfl rfl
    obtain ⟨packed, hpack, hbuf, hsize⟩ : ∃ packed,
        acpResponsePack (builtResponse id₀ id (rowsText fmtFTS list)) = some packed ∧
        packed.buf = responseText id 0 (rowsText fmtFTS list) 0 ++
          crcUpdateByStr 0 (responseText id 0 (rowsText fmtFTS list) 0) :: b :: t ∧
        packed.buf_size = ACP_BUFFER_MAX_SIZE := ⟨_, hpack, rfl, rfl⟩
    have hsend := acpSendBuf_response h13 (Or.inl rfl) hlen hsize hbuf
    obtain ⟨item, hread, hdata⟩ := acpResponseRead_sent hstr (Or.inl rfl)
      (rowsText_short rfl h) hb id₁ peer src
    refine ⟨(((responseText id 0 (rowsText fmtFTS list) 0).length + 2 : ℕ) : ℤ), packed,
      sentBytes (responseText id 0 (rowsText fmtFTS list) 0) b, ?_, item, hread, fun n hn => ?_⟩
    · rw [acpResponseSend, hpack, Option.map_some, hsend]
      rfl
    · have hstring : item.dataString = rowsText fmtFTS list := by
        rw [ACPResponse.dataString, hdata]
        exact ((endsInField_iff _ _).mpr (Or.inr (by omega))).2.trans (takeWhile_ne_self h0)
      rw [hstring, acpDataToFTSList]
      refine acpDataToList_rows (readsRows_FTS conversion_scanDecimal) h ?_
      rcases hn with rfl | hn
      · rw [hdata, hcount]
      · exact hn
  · rw [if_neg hfit] at hcats
    obtain ⟨r, hcats⟩ := hcats
    exact ⟨false, r, hcats, iff_of_true rfl (not_lt.mp hfit), by simp⟩

/-- The row codecs are inverse: each list of values of the C types is refused because its rows do
not fit, or decoded to itself. -/
theorem row_codecs_inverse :
    (∀ list : List ℤ, (∀ p0 ∈ list, IsInt p0) →
      RequestListSurvives acpRequestSendI1List fmtI1 acpDataToI1List list) ∧
    (∀ list : List I2, (∀ i ∈ list, IsInt i.p0 ∧ IsInt i.p1) →
      RequestListSurvives acpRequestSendI2List (fmtI1X fmtD) acpDataToI2List list) ∧
    (∀ list : List (I1F1 ℚ), (∀ i ∈ list, IsInt i.p0 ∧ IsMilli i.p1) →
      RequestListSurvives acpRequestSendI1F1List (fmtI1X fmtF) (acpDataToI1F1List scanDecimal)
        list) ∧
    (∀ list : List I1U321, (∀ i ∈ list, IsInt i.p0) →
      RequestListSurvives acpRequestSendI1U321List (fmtI1X fmtU) acpDataToI1U321List list) ∧
    ∀ list : List (FTS ℚ), (∀ f ∈ list, IsInt f.id ∧ IsMilli f.value ∧ IsLong f.tm.tv_sec ∧
      IsLong f.tm.tv_nsec ∧ IsInt f.state) → FTSListSurvives list := by
  refine ⟨fun list h => ?_, fun list h => ?_, fun list h => ?_, fun list h => ?_, fun list h => ?_⟩
  · exact requestListSurvives readsRows_I1 fun p0 hp => rowWrites_I1 (h p0 hp)
  · exact requestListSurvives (readsRows_I1X conversion_scanInt) fun i hi =>
      rowWrites_I1X (h i hi).1 (writes_int (h i hi).2)
  · exact requestListSurvives (readsRows_I1X conversion_scanDecimal) fun i hi =>
      rowWrites_I1X (h i hi).1 (writes_decimal (h i hi).2)
  · exact requestListSurvives (readsRows_I1X conversion_scanUInt) fun i hi =>
      rowWrites_I1X (h i hi) (writes_uint i.p1)
  · refine ftsListSurvives fun f hf => ?_
    obtain ⟨hid, hv, hs, hn, ht⟩ := h f hf
    exact rowWrites_FTS hid hv hs hn ht

/-- The last theorem for a list with a negative and an extreme number. -/
theorem row_codecs_inverse_example :
    RequestListSurvives acpRequestSendI1U321List (fmtI1X fmtU) acpDataToI1U321List
      [⟨-5, 4294967295⟩, ⟨2147483647, 0⟩] :=
  row_codecs_inverse.2.2.2.1 _ (by simp [IsInt])

/-! Rows whose values are not the ones that they are printed of. -/

theorem rowWrites_column {V : Type*} {conv : List UInt8 → Option (V × List UInt8)} {p0 : ℤ}
    {w : List UInt8} {v : V} (h : IsInt p0) (h₁ : Writes conv w v) :
    RowWrites (rowI1X conv) (fmtD p0 ++ ACP_DELIMITER_COLUMN :: w ++ [ACP_DELIMITER_ROW])
      ⟨p0, v⟩ :=
  @rowWrites_I1X V conv (fun _ => w) ⟨p0, v⟩ h h₁

section
variable {U V : Type*} {row scan : List UInt8 → Option V} {fmt : U → List UInt8} {val : U → V}
  {list : List U}

theorem exists_rows_map (h : ∀ u ∈ list, RowWrites row (fmt u) (val u)) :
    ∃ rs : List (List UInt8), list.map fmt = rs.map (· ++ [ACP_DELIMITER_ROW]) ∧
      rs.map row = (list.map val).map some ∧ (∀ r ∈ rs, ∀ b ∈ r, isRowByte b = true) ∧
      rs.length = list.length := by
  -- the format of a pair of a text and its value is the text
  have hpair : ∀ a ∈ list.map fun u => (fmt u, val u),
      RowWrites (fun r => (row r).map fun v => (r ++ [ACP_DELIMITER_ROW], v)) a.1 a := by
    intro a ha
    obtain ⟨u, hu, rfl⟩ := List.mem_map.mp ha
    obtain ⟨w, hw, hrow, hbytes, hl⟩ := h u hu
    have hpair : (row w).map (fun v => (w ++ [ACP_DELIMITER_ROW], v)) = some (fmt u, val u) := by
      rw [hrow, hw]
      rfl
    exact ⟨w, hw, hpair, hbytes, hl⟩
  obtain ⟨rs, hrs, hrow, hbytes, hlen⟩ := exists_rows hpair
  refine ⟨rs, by simpa [Function.comp_def] using hrs, ?_, hbytes, by simpa using hlen⟩
  have hsnd := congrArg (List.map (Option.map Prod.snd)) hrow
  simpa [Function.comp_def] using hsnd

/-- The rows are decoded to the values that they write. -/
theorem acpDataToList_map (hread : ReadsRows row scan acpBufnrow ACP_DELIMITER_ROW)
    (h : ∀ u ∈ list, RowWrites row (fmt u) (val u)) {n : ℕ} (hn : list.length ≤ n) :
    acpDataToList scan n (rowsText fmt list) = list.map val := by
  obtain ⟨rs, hrs, hrow, hbytes, -⟩ := exists_rows_map h
  rw [rowsText, hrs]
  exact hread.readRows_rows (fun r hr => not_mem_row (hbytes r hr) rfl) hrow (by simpa using hn)

end

end Regonf
