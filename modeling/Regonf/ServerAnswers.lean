import Mathlib.Data.List.ReduceOption
import Regonf.AcpQuery
import Regonf.AcpRounding
import Regonf.Server

/-! What `serverRun` answers: the `bufCat*` functions of `util.c`, and the response that a client
reads. -/
namespace Regonf

open Blocks Rows

/-- `FLOAT_NUM`, which is `%.1f`. -/
def fmtNum : ℚ → List UInt8 := fmtDec 1

/-- `reg_getStateStr`. -/
def regGetStateStr : StateReg → List UInt8
  | .regOff => ascii "OFF"
  | .regInit => ascii "INIT"
  | .regDo => ascii "DO"
  | .regWait => ascii "WAIT"
  | .regBusy => ascii "BUSY"
  | .regSecure => ascii "SECURE"
  | .regCooler => ascii "COOLER"
  | .regHeater => ascii "HEATER"
  | .regDisable => ascii "DISABLE"
  | .regModePid => ascii "PID"
  | .regModeOnf => ascii "ONF"

def regonfhcGetEnabled (item : RegOnfHC ℚ) : ℤ :=
  if item.state = .regDisable ∨ item.state = .regOff then 0 else 1

/-- What a query finds of a program: what `lockMutex` returns, which waits for a mutex that is held
and is 0 only for an error of `pthread_mutex_lock`, what the program then holds, and the time. -/
structure Seen where
  item : Prog ℚ
  locked : Bool
  now : Timespec

/-- A row of columns. -/
def fmtRow (columns : List (List UInt8)) : List UInt8 :=
  [ACP_DELIMITER_COLUMN].intercalate columns ++ [ACP_DELIMITER_ROW]

def getTimeRestChange (s : Seen) : Timespec :=
  getTimeRestTmr s.item.reg.change_gap s.item.reg.tmr s.now

/-- `use` is 0 or 1. -/
def useFlag (use : Bool) : ℤ := if use then 1 else 0

/-- The columns of `bufCatProgRuntime`. -/
def columnsProgRuntime (s : Seen) : List (List UInt8) :=
  let reg := s.item.reg
  [fmtD s.item.id, regGetStateStr reg.state, regGetStateStr reg.state_r,
    fmtNum reg.heater.output, fmtNum reg.cooler.output, fmtD (getTimeRestChange s).tv_sec,
    fmtNum reg.sensor.value.value, fmtD reg.sensor.value.state]

def columnsProgInit (s : Seen) : List (List UInt8) :=
  let reg := s.item.reg
  [fmtD s.item.id, fmtD reg.change_gap.tv_sec, fmtNum reg.goal,
    fmtD (useFlag reg.heater.use), fmtNum reg.heater.delta, fmtNum reg.heater.em.pwm_rsl,
    fmtD (useFlag reg.cooler.use), fmtNum reg.cooler.delta, fmtNum reg.cooler.em.pwm_rsl]

def columnsProgError (s : Seen) : List (List UInt8) :=
  [fmtD s.item.id, fmtU s.item.reg.secure_out.error_code]

def columnsProgGoal (s : Seen) : List (List UInt8) := [fmtD s.item.id, fmtNum s.item.reg.goal]

def columnsProgEnabled (s : Seen) : List (List UInt8) :=
  [fmtD s.item.id, fmtD (regonfhcGetEnabled s.item.reg)]

/-- The arguments of `acp_responseFTSCat`. -/
def ftsOfProg (s : Seen) : FTS ℚ :=
  let value := s.item.reg.sensor.value
  { id := s.item.id, value := value.value, tm := value.tm, state := value.state }

/-- `snprintf` into an array of `LINE_SIZE` bytes, and `acp_responseStrCat`. -/
def bufCatRow (row : List UInt8) (response : ACPResponseOut) : Option (Bool × ACPResponseOut) :=
  acpResponseStrCat response (row.take (LINE_SIZE - 1))

/-- The `bufCat*` functions for a program; all but one lock it. -/
def Query.bufCat (q : Query) (s : Seen) (response : ACPResponseOut) :
    Option (Bool × ACPResponseOut) :=
  let locked (cat : Option (Bool × ACPResponseOut)) :=
    if s.locked then cat else some (false, response)
  match q with
  | .progRuntime => locked (bufCatRow (fmtRow (columnsProgRuntime s)) response)
  | .progInit => locked (bufCatRow (fmtRow (columnsProgInit s)) response)
  | .progEnabled => locked (bufCatRow (fmtRow (columnsProgEnabled s)) response)
  | .progGoal => locked (bufCatRow (fmtRow (columnsProgGoal s)) response)
  | .progError => bufCatRow (fmtRow (columnsProgError s)) response
  | .progFTS => locked (acpResponseFTSCat (ftsOfProg s) response)

/-- The loop of a query over its ids; an id whose program is not there is skipped. -/
def Query.bufCats (q : Query) :
    List (Option Seen) → ACPResponseOut → Option (Bool × ACPResponseOut)
  | [], response => some (true, response)
  | none :: found, response => q.bufCats found response
  | some s :: found, response =>
    (q.bufCat s response).bind fun r => if r.1 then q.bufCats found r.2 else some (false, r.2)

/-- The datagram that a query is answered with, if it is. -/
def Query.answer (q : Query) (found : List (Option Seen)) (response : ACPResponseOut)
    (sendto : List UInt8 → ℤ) : Option (Option (List UInt8)) :=
  (q.bufCats found response).bind fun r =>
    if r.1 then (acpResponseSend r.2 sendto).map fun a => some a.2.2 else some none

def ACP_RESP_APP_BUSY : List UInt8 := ascii "B"
def ACP_RESP_APP_IDLE : List UInt8 := ascii "I"

/-- `ACP_CMD_APP_PING`. -/
def answerPing (init_state : Bool) (response : ACPResponseOut) (sendto : List UInt8 → ℤ) :
    Option (Option (List UInt8)) :=
  (acpResponseSendStr (if init_state then ACP_RESP_APP_BUSY else ACP_RESP_APP_IDLE) 0 response
    sendto).map fun r => r.2

/-! The rows. -/

/-- A value of `float`. -/
def IsFloat (v : ℚ) : Prop := |v| < 2 ^ 128

/-- The values that are printed of a program are those of their C types. -/
structure Seen.InRange (s : Seen) : Prop where
  id : IsInt s.item.id
  gap : IsLong s.item.reg.change_gap.tv_sec
  rest : IsLong (getTimeRestChange s).tv_sec
  goal : IsFloat s.item.reg.goal
  heater_delta : IsFloat s.item.reg.heater.delta
  heater_output : IsFloat s.item.reg.heater.output
  heater_rsl : IsFloat s.item.reg.heater.em.pwm_rsl
  cooler_delta : IsFloat s.item.reg.cooler.delta
  cooler_output : IsFloat s.item.reg.cooler.output
  cooler_rsl : IsFloat s.item.reg.cooler.em.pwm_rsl
  value : IsFloat s.item.reg.sensor.value.value
  sec : IsLong s.item.reg.sensor.value.tm.tv_sec
  nsec : IsLong s.item.reg.sensor.value.tm.tv_nsec
  state : IsInt s.item.reg.sensor.value.state

/-- The columns of a query, as they are printed. -/
def Query.columns : Query → Seen → List (List UInt8)
  | .progRuntime => columnsProgRuntime
  | .progInit => columnsProgInit
  | .progEnabled => columnsProgEnabled
  | .progGoal => columnsProgGoal
  | .progError => columnsProgError
  | .progFTS => fun s => let f := ftsOfProg s
    [fmtD f.id, fmtF f.value, fmtD f.tm.tv_sec, fmtD f.tm.tv_nsec, fmtD f.state]

def Query.row (q : Query) (s : Seen) : List UInt8 := fmtRow (q.columns s)

/-- The query locks the programs. -/
def Query.locks : Query → Bool
  | .progError => false
  | _ => true

/-- The row of `acp_responseFTSCat` is one of columns as well. -/
theorem fmtFTS_eq_fmtRow (f : FTS ℚ) : fmtFTS f = fmtRow [fmtD f.id, fmtF f.value,
    fmtD f.tm.tv_sec, fmtD f.tm.tv_nsec, fmtD f.state] := by
  simp [fmtFTS, fmtRow, List.intercalate_cons_cons]

theorem Query.bufCat_eq (q : Query) (s : Seen) (response : ACPResponseOut) :
    q.bufCat s response = if q.locks && !s.locked then some (false, response)
      else bufCatRow (q.row s) response := by
  have hfts : acpResponseFTSCat (ftsOfProg s) response = bufCatRow (Query.progFTS.row s) response :=
    congrArg (fun row => bufCatRow row response) (fmtFTS_eq_fmtRow (ftsOfProg s))
  cases hl : s.locked <;> cases q <;> simp [Query.bufCat, Query.locks, hl, hfts]
  all_goals rfl

/-- A row that is not cut and does not end a packet. -/
structure IsRow (row : List UInt8) : Prop where
  block : ACP_DELIMITER_BLOCK ∉ row
  nul : 0 ∉ row
  short : row.length < LINE_SIZE
  long : 2 ≤ row.length

/-- A column of at most `n` printable characters. -/
structure IsColumn (c : List UInt8) (n : ℕ) : Prop where
  plain : ∀ b ∈ c, 32 < b
  length : c.length ≤ n

theorem plain_of_isdigit {w : List UInt8} (h : ∀ b ∈ w, isdigit b = true) : ∀ b ∈ w, 32 < b := by
  intro b hb
  have hd := h b hb
  simp only [isdigit, Bool.and_eq_true, decide_eq_true_eq] at hd
  exact UInt8.lt_of_lt_of_le (b := 48) (by decide) hd.1

theorem Writes.plain {V : Type*} {conv : List UInt8 → Option (V × List UInt8)} {w : List UInt8}
    {v : V} (h : Writes conv w v) : ∀ b ∈ w, 32 < b := by
  intro b hb
  rcases h.chars b hb with hd | rfl | rfl
  · exact plain_of_isdigit (w := [b]) (by simpa using hd) b List.mem_cons_self
  · decide
  · decide

theorem isColumn_int {v : ℤ} (h : IsInt v) : IsColumn (fmtD v) 11 := by
  refine ⟨(writes_int h).plain, ?_⟩
  have hw : (Decimal.write v.natAbs).length ≤ 10 := by
    refine Decimal.length_write_le (by decide) ?_
    unfold IsInt at h
    omega
  rw [fmtD_eq, List.length_append]
  split_ifs <;> simp <;> omega

theorem isColumn_long {v : ℤ} (h : IsLong v) : IsColumn (fmtD v) 20 :=
  ⟨(writes_long h).plain, length_fmtD h⟩

theorem isColumn_dec {n : ℕ} (hn : n ≤ 3) {v : ℚ} (h : IsFloat v) :
    IsColumn (fmtDec n v) (n + 41) :=
  ⟨(writes_fmtDec hn h).plain, length_fmtDec n h⟩

theorem isColumn_num {v : ℚ} (h : IsFloat v) : IsColumn (fmtNum v) 42 :=
  isColumn_dec (n := 1) (by decide) h

theorem isColumn_fmtF {v : ℚ} (h : IsFloat v) : IsColumn (fmtF v) 44 :=
  isColumn_dec (n := 3) le_rfl h

theorem isColumn_uint (v : UInt32) : IsColumn (fmtU v) 10 :=
  ⟨(writes_uint v).plain, length_fmtU v⟩

theorem isColumn_of_all {c : List UInt8} {n : ℕ} (h : c.all (32 < ·) = true) (hn : c.length ≤ n) :
    IsColumn c n := ⟨by simpa using h, hn⟩

theorem isColumn_use (use : Bool) : IsColumn (fmtD (useFlag use)) 1 := by
  cases use <;> exact isColumn_of_all (by decide) (by decide)

theorem isColumn_enabled (item : RegOnfHC ℚ) : IsColumn (fmtD (regonfhcGetEnabled item)) 1 := by
  unfold regonfhcGetEnabled
  split_ifs <;> exact isColumn_of_all (by decide) (by decide)

theorem isColumn_state (state : StateReg) : IsColumn (regGetStateStr state) 7 := by
  cases state <;> exact isColumn_of_all (by decide) (by decide)

theorem mem_intercalate {columns : List (List UInt8)} {d b : UInt8}
    (h : b ∈ [d].intercalate columns) : b = d ∨ ∃ c ∈ columns, b ∈ c := by
  -- on the columns; the delimiter stands between two of them only
  induction columns with
  | nil => cases h
  | cons c cs ih =>
    cases cs with
    | nil =>
      rw [List.intercalate_singleton] at h
      exact Or.inr ⟨c, List.mem_cons_self, h⟩
    | cons c' cs =>
      rw [List.intercalate_cons_cons, List.append_assoc, List.mem_append, List.mem_append] at h
      rcases h with h | h | h
      · exact Or.inr ⟨c, List.mem_cons_self, h⟩
      · exact Or.inl (List.mem_singleton.mp h)
      · exact (ih h).imp_right fun ⟨a, ha, hb⟩ => ⟨a, List.mem_cons_of_mem c ha, hb⟩

/-- Each column has a tab or the line end behind it. -/
theorem length_fmtRow {columns : List (List UInt8)} (hne : columns ≠ []) :
    (fmtRow columns).length = (columns.map List.length).sum + columns.length := by
  rw [fmtRow, List.length_append, List.length_singleton]
  induction columns with
  | nil => exact absurd rfl hne
  | cons c cs ih =>
    cases cs with
    | nil => simp
    | cons c' cs =>
      have hi := ih (List.cons_ne_nil c' cs)
      rw [List.intercalate_cons_cons]
      simp only [List.length_append, List.length_nil, List.map_cons, List.sum_cons,
        List.length_cons] at hi ⊢
      omega

theorem columns_spec {columns : List (List UInt8)} {ns : List ℕ}
    (h : List.Forall₂ IsColumn columns ns) :
    (∀ c ∈ columns, ∀ b ∈ c, 32 < b) ∧ (columns.map List.length).sum ≤ ns.sum := by
  induction h with
  | nil => exact ⟨List.forall_mem_nil _, le_rfl⟩
  | cons hc _ ih =>
    refine ⟨List.forall_mem_cons.mpr ⟨hc.plain, ih.1⟩, ?_⟩
    rw [List.map_cons, List.sum_cons, List.sum_cons]
    exact Nat.add_le_add hc.length ih.2

theorem isRow_fmtRow {columns : List (List UInt8)} {ns : List ℕ}
    (h : List.Forall₂ IsColumn columns ns) (hne : 2 ≤ columns.length)
    (hl : ns.sum + ns.length < LINE_SIZE) : IsRow (fmtRow columns) := by
  obtain ⟨hc, hsum⟩ := columns_spec h
  have hlen := length_fmtRow (show columns ≠ [] by rintro rfl; simp at hne)
  have hcount := h.length_eq
  -- a byte of the row is in a column or one of the two delimiters
  have hmem {b : UInt8} (hb : b ≤ 32) (h₁ : b ≠ ACP_DELIMITER_COLUMN) (h₂ : b ≠ ACP_DELIMITER_ROW) :
      b ∉ fmtRow columns := by
    intro hm
    rcases List.mem_append.mp hm with hm | hm
    · rcases mem_intercalate hm with h | ⟨c, hcm, hm⟩
      · exact h₁ h
      · exact absurd (hc c hcm b hm) (UInt8.not_lt.mpr hb)
    · exact h₂ (List.mem_singleton.mp hm)
  exact ⟨hmem (by decide) (by decide) (by decide), hmem (by decide) (by decide) (by decide),
    by omega, by omega⟩

/-- The widths of the columns of a query. -/
def Query.widths : Query → List ℕ
  | .progRuntime => [11, 7, 7, 42, 42, 20, 42, 11]
  | .progInit => [11, 20, 42, 1, 42, 42, 1, 42, 42]
  | .progEnabled => [11, 1]
  | .progGoal => [11, 42]
  | .progError => [11, 10]
  | .progFTS => [11, 44, 20, 20, 11]

theorem Query.isColumns (q : Query) {s : Seen} (h : s.InRange) :
    List.Forall₂ IsColumn (q.columns s) q.widths := by
  have hid := isColumn_int h.id
  cases q with
  | progRuntime =>
    exact .cons hid (.cons (isColumn_state _) (.cons (isColumn_state _)
      (.cons (isColumn_num h.heater_output) (.cons (isColumn_num h.cooler_output)
        (.cons (isColumn_long h.rest) (.cons (isColumn_num h.value)
          (.cons (isColumn_int h.state) .nil)))))))
  | progInit =>
    exact .cons hid (.cons (isColumn_long h.gap) (.cons (isColumn_num h.goal)
      (.cons (isColumn_use _) (.cons (isColumn_num h.heater_delta)
        (.cons (isColumn_num h.heater_rsl) (.cons (isColumn_use _)
          (.cons (isColumn_num h.cooler_delta) (.cons (isColumn_num h.cooler_rsl) .nil))))))))
  | progEnabled => exact .cons hid (.cons (isColumn_enabled _) .nil)
  | progGoal => exact .cons hid (.cons (isColumn_num h.goal) .nil)
  | progError => exact .cons hid (.cons (isColumn_uint _) .nil)
  | progFTS =>
    exact .cons hid (.cons (isColumn_fmtF h.value) (.cons (isColumn_long h.sec)
      (.cons (isColumn_long h.nsec) (.cons (isColumn_int h.state) .nil))))

/-- No row of a query is cut: the longest has 252 bytes. -/
theorem Query.isRow (q : Query) {s : Seen} (h : s.InRange) : IsRow (q.row s) :=
  isRow_fmtRow (q.isColumns h) (by cases q <;> exact Nat.le_add_left 2 _) (by cases q <;> decide)

/-- A reader that takes a text apart at its line ends and tabs. -/
def readColumns (text : List UInt8) : List (List (List UInt8)) :=
  (text.splitOn ACP_DELIMITER_ROW).dropLast.map (·.splitOn ACP_DELIMITER_COLUMN)

theorem readColumns_rows {columns : Seen → List (List UInt8)} {list : List Seen}
    (hne : ∀ s ∈ list, columns s ≠ []) (h : ∀ s ∈ list, ∀ c ∈ columns s, ∀ b ∈ c, 32 < b) :
    readColumns (rowsText (fun s => fmtRow (columns s)) list) = list.map columns := by
  -- each row ends with its line end, so the last cell is empty and is dropped
  have hsplit : (rowsText (fun s => fmtRow (columns s)) list).splitOn ACP_DELIMITER_ROW =
      (list.map fun s => [ACP_DELIMITER_COLUMN].intercalate (columns s)) ++ [[]] := by
    clear hne
    induction list with
    | nil => rfl
    | cons s list ih =>
      obtain ⟨hs, h⟩ := List.forall_mem_cons.mp h
      have hrow : ACP_DELIMITER_ROW ∉ [ACP_DELIMITER_COLUMN].intercalate (columns s) := by
        intro hm
        rcases mem_intercalate hm with h | ⟨c, hc, hm⟩
        · cases h
        · exact absurd (hs c hc _ hm) (by decide)
      rw [rowsText, List.map_cons, List.flatten_cons, fmtRow, List.append_assoc,
        List.singleton_append, List.splitOn_append_cons_self_of_not_mem hrow, ← rowsText, ih h]
      rfl
  rw [readColumns, hsplit, List.dropLast_concat, List.map_map]
  refine List.map_congr_left fun s hs => ?_
  exact List.splitOn_intercalate _ (fun c hc hm => absurd (h s hs c hc _ hm) (by decide)) (hne s hs)

/-! The response. -/

/-- The text of a response to a query: the rows of the programs that were found. -/
def Query.text (q : Query) (found : List (Option Seen)) : List UInt8 :=
  rowsText q.row found.reduceOption

/-- No call of `lockMutex` fails that the query makes. -/
def Query.Locked (q : Query) (found : List (Option Seen)) : Prop :=
  ∀ s ∈ found.reduceOption, q.locks = true → s.locked = true

theorem acpResponseStrCat_built (id₀ id : UInt32) {x : List UInt8} (hx : 0 ∉ x)
    (hl : x.length + 1 < ACP_DATA_MAX_SIZE) {row : List UInt8} (hr : IsRow row) :
    bufCatRow row (builtResponse id₀ id x) =
      if x.length + row.length + 1 ≥ ACP_DATA_MAX_SIZE then some (false, builtResponse id₀ id x)
      else some (true, builtResponse id₀ id (x ++ row)) := by
  rw [bufCatRow, List.take_of_length_le (Nat.le_sub_one_of_lt hr.short), acpResponseStrCat,
    show (builtResponse id₀ id x).data = field ACP_DATA_MAX_SIZE x from rfl,
    show (builtResponse id₀ id x).data_size = ACP_DATA_MAX_SIZE from rfl,
    dataStrCat_field hx (by omega)]
  split_ifs <;> rfl

/-- The loop of a query appends the rows of all programs that it finds, or fails at one whose
`lockMutex` fails or whose row does not fit. -/
theorem Query.bufCats_built (q : Query) (id₀ id : UInt32) {x : List UInt8}
    {found : List (Option Seen)} (hx : 0 ∉ x) (h : ∀ s ∈ found.reduceOption, IsRow (q.row s))
    (hl : x.length + 1 < ACP_DATA_MAX_SIZE) :
    (q.Locked found ∧ (x ++ q.text found).length + 1 < ACP_DATA_MAX_SIZE ∧
      q.bufCats found (builtResponse id₀ id x) =
        some (true, builtResponse id₀ id (x ++ q.text found))) ∨
    (¬(q.Locked found ∧ (x ++ q.text found).length + 1 < ACP_DATA_MAX_SIZE) ∧
      ∃ r, q.bufCats found (builtResponse id₀ id x) = some (false, r)) := by
  -- on the programs; `x` is what has been appended so far
  induction found generalizing x with
  | nil =>
    have htext : q.text [] = [] := rfl
    left
    rw [htext, List.append_nil]
    exact ⟨List.forall_mem_nil _, hl, rfl⟩
  | cons o found ih =>
    cases o with
    | none => exact ih hx h hl
    | some s =>
      rw [List.reduceOption_cons_of_some] at h
      obtain ⟨hr, h⟩ := List.forall_mem_cons.mp h
      have htext : x ++ q.text (some s :: found) = x ++ q.row s ++ q.text found := by
        simp [Query.text, rowsText]
      have hlocked : q.Locked (some s :: found) ↔
          (q.locks = true → s.locked = true) ∧ q.Locked found := by
        unfold Query.Locked
        rw [List.reduceOption_cons_of_some, List.forall_mem_cons]
      rw [Query.bufCats, Query.bufCat_eq, hlocked, htext]
      -- a `lockMutex` that fails ends the loop, as a row does that does not fit
      by_cases hlock : q.locks = true → s.locked = true
      · rw [if_neg (by simpa using hlock), acpResponseStrCat_built id₀ id hx hl hr]
        by_cases hfit : x.length + (q.row s).length + 1 ≥ ACP_DATA_MAX_SIZE
        · right
          rw [if_pos hfit]
          refine ⟨fun hc => ?_, _, rfl⟩
          have hlen := hc.2
          simp only [List.length_append] at hlen
          omega
        · rw [if_neg hfit, and_iff_right hlock]
          exact ih (by simp [hx, hr.nul]) h (by rw [List.length_append]; omega)
      · right
        rw [if_pos (by simpa using hlock)]
        exact ⟨fun hc => hlock hc.1.1, builtResponse id₀ id x, rfl⟩

theorem acpResponseRead_recovered {id : UInt32} {k : ℕ} {x : List UInt8} {f : Int32} {d : Datagram}
    (h : Recovered id k x f d) (id₁ : UInt32) (peer : Peer) :
    ∃ item, acpResponseRead (acpResponseInit id₁) peer (some d) = some (true, item, ⟨d.src⟩) ∧
      item.id = id ∧ cString item.data = some x := by
  obtain ⟨hcrc, item, hparse, -, -, hdata, hid⟩ := h
  refine ⟨item, ?_, hid, hdata⟩
  have hread : acpRead (acpResponseInit id₁).buf peer (some d) =
      (true, (receivedResponse d).buf, ⟨d.src⟩) := by
    rw [acpRead, ← hcrc]
    rfl
  have hparse' : acpResponseParse { acpResponseInit id₁ with buf := (receivedResponse d).buf } =
      some (true, item) := acpResponseParse_id hparse id₁
  rw [acpResponseRead, hread]
  dsimp only
  rw [hparse', Option.map_some]

/-- Every client reads the datagram as a response with this text, and with this id unless the text
is empty. -/
def Carries (bytes : List UInt8) (id : UInt32) (x : List UInt8) : Prop :=
  ∀ (id₁ : UInt32) (peer : Peer) (src : SockAddr), ∃ item,
    acpResponseRead (acpResponseInit id₁) peer (some ⟨src, bytes⟩) = some (true, item, ⟨src⟩) ∧
      cString item.data = some x ∧ (x ≠ [] → item.id = id)

theorem dataString_of_cString {item : ACPResponse} {x : List UInt8}
    (h : cString item.data = some x) : item.dataString = x := by
  obtain ⟨h₀, t, ht⟩ := cString_eq_some_iff.mp h
  rw [ACPResponse.dataString, ht, List.append_assoc, List.cons_append, takeWhile_ne_append h₀]

/-- A packet that is long enough for the parser. -/
theorem carries_sent {id : UInt32} {k : ℕ} {x : List UInt8} {f : Int32} (hs : IsStr x)
    (hf : IsPack f) {b : UInt8} (hb : crcUpdateByStr 0 (responseText id k x f) ≠ 0 → b = 0)
    (hmin : ACP_RESPONSE_BUF_SIZE_MIN ≤ (responseText id k x f).length +
      if crcUpdateByStr 0 (responseText id k x f) = 0 then 0 else 1) :
    Carries (sentBytes (responseText id k x f) b) id x := by
  intro id₁ peer src
  obtain ⟨item, hread, hid, hdata⟩ :=
    acpResponseRead_recovered ((recovered_iff hs hf hb src).mpr hmin) id₁ peer
  exact ⟨item, hread, hdata, fun _ => hid⟩

/-- The datagram of a response with its data. -/
theorem acpResponseSend_built (id₀ id : UInt32) {x : List UInt8} (hs : IsStr x)
    (hshort : x = [] ∨ 2 ≤ x.length) :
    ∃ sz response bytes, acpResponseSend (builtResponse id₀ id x) sendtoAll =
      some (sz, response, bytes) ∧ Carries bytes id x := by
  obtain ⟨packed, b, t, hpack, hbuf, hsize, hlen, hb⟩ : ∃ packed b t,
      acpResponsePack (builtResponse id₀ id x) = some packed ∧
      packed.buf = responseText id 0 x 0 ++ crcUpdateByStr 0 (responseText id 0 x 0) :: b :: t ∧
      packed.buf_size = ACP_BUFFER_MAX_SIZE ∧
      (responseText id 0 x 0).length + 2 + t.length = ACP_BUFFER_MAX_SIZE ∧
      (crcUpdateByStr 0 (responseText id 0 x 0) ≠ 0 → b = 0) := by
    obtain ⟨b, t, hpack, hlen, hb⟩ :=
      acpResponsePack_field (r := builtResponse id₀ id x) (k := 0) hs (Or.inl rfl) rfl
        List.length_replicate rfl rfl rfl
    exact ⟨_, b, t, hpack, rfl, rfl, hlen, hb⟩
  have hsend := acpSendBuf_response hs.1 (Or.inl rfl) hlen hsize hbuf
  refine ⟨(((responseText id 0 x 0).length + 2 : ℕ) : ℤ), packed,
    sentBytes (responseText id 0 x 0) b, ?_, ?_⟩
  · rw [acpResponseSend, hpack, Option.map_some, hsend]
  rcases hshort with rfl | h₃
  · -- a packet without data may be too short for the parser, which leaves the field as it was
    intro id₁ peer src
    obtain ⟨item, hread, hdata⟩ :=
      acpResponseRead_sent hs (Or.inl rfl) (Or.inl rfl) hb id₁ peer src
    refine ⟨item, hread, ?_, fun hne => absurd rfl hne⟩
    rw [hdata]
    exact cString_field List.not_mem_nil (by decide)
  · -- two bytes of data make the packet long enough, and the parser fills in the id
    refine carries_sent hs (Or.inl rfl) hb ?_
    have h₁ := length_fmtU_pos (UInt32.ofNat 0)
    have h₂ := length_fmtU_pos id
    rw [length_responseText (Or.inl rfl), ACP_RESPONSE_BUF_SIZE_MIN]
    omega

/-- What the decoders of the library make of the text of an answer: the `float` read of a number
that was printed with one place, and of the value of a sensor with three. The two queries for a
panel have no decoder. -/
def Query.Decodes (q : Query) (list : List Seen) (n : ℕ) (text : List UInt8) : Prop :=
  match q with
  | .progEnabled => acpDataToI2List n text =
      list.map fun s => ⟨s.item.id, regonfhcGetEnabled s.item.reg⟩
  | .progGoal => acpDataToI1F1List scanFloat n text =
      list.map fun s => ⟨s.item.id, toFloat (roundTo 1 s.item.reg.goal)⟩
  | .progError => acpDataToI1U321List n text =
      list.map fun s => ⟨s.item.id, s.item.reg.secure_out.error_code⟩
  | .progFTS => acpDataToFTSList scanFloat n text =
      list.map fun s => { ftsOfProg s with value := toFloat (roundTo 3 (ftsOfProg s).value) }
  | .progRuntime | .progInit => True

theorem writes_float {n : ℕ} (hn : n ≤ 3) {v : ℚ} (h : IsFloat v) :
    Writes scanFloat (fmtDec n v) (toFloat (roundTo n v)) := by
  have hw := writes_fmtDec hn h
  exact ⟨by rw [scanFloat, hw.read, Option.map_some], hw.chars, hw.length⟩

theorem fmtRow_two (a b : List UInt8) :
    fmtRow [a, b] = a ++ ACP_DELIMITER_COLUMN :: b ++ [ACP_DELIMITER_ROW] := by
  simp [fmtRow, List.intercalate_cons_cons]

theorem isInt_enabled (item : RegOnfHC ℚ) : IsInt (regonfhcGetEnabled item) := by
  unfold regonfhcGetEnabled IsInt
  split_ifs <;> decide

theorem Query.decodes (q : Query) {list : List Seen} (h : ∀ s ∈ list, s.InRange) {n : ℕ}
    (hn : list.length ≤ n) : q.Decodes list n (rowsText q.row list) := by
  cases q with
  | progRuntime | progInit => trivial
  | progEnabled =>
    refine acpDataToList_map (readsRows_I1X conversion_scanInt) (fun s hs => ?_) hn
    rw [Query.row, Query.columns, columnsProgEnabled, fmtRow_two]
    exact rowWrites_column (h s hs).id (writes_int (isInt_enabled _))
  | progGoal =>
    refine acpDataToList_map (readsRows_I1X conversion_scanFloat) (fun s hs => ?_) hn
    rw [Query.row, Query.columns, columnsProgGoal, fmtRow_two]
    exact rowWrites_column (h s hs).id (writes_float (by decide) (h s hs).goal)
  | progError =>
    refine acpDataToList_map (readsRows_I1X conversion_scanUInt) (fun s hs => ?_) hn
    rw [Query.row, Query.columns, columnsProgError, fmtRow_two]
    exact rowWrites_column (h s hs).id (writes_uint _)
  | progFTS =>
    rw [Query.Decodes, acpDataToFTSList]
    refine acpDataToList_map (readsRows_FTS conversion_scanFloat) (fun s hs => ?_) hn
    -- the only column with three places
    have hw := writes_float (n := 3) le_rfl (h s hs).value
    have hrow : Query.progFTS.row s = fmtFTS (ftsOfProg s) := (fmtFTS_eq_fmtRow _).symm
    rw [hrow]
    exact rowWrites_FTS_value
      (f := { ftsOfProg s with value := toFloat (roundTo 3 (ftsOfProg s).value) })
      (h s hs).id hw (h s hs).sec (h s hs).nsec (h s hs).state

/-- A query is answered with the rows of the programs that it finds, or with nothing. -/
theorem Query.answer_carries (q : Query) (found : List (Option Seen))
    (h : ∀ s ∈ found.reduceOption, s.InRange) (id₀ id : UInt32) :
    ∃ answer, q.answer found (acpResponseCoopRequest (acpResponseOutInit id₀) id) sendtoAll =
        some answer ∧
      (answer = none ↔ ¬q.Locked found ∨ ACP_DATA_MAX_SIZE ≤ (q.text found).length + 1) ∧
      ∀ bytes, answer = some bytes → Carries bytes id (q.text found) := by
  have hrow : ∀ s ∈ found.reduceOption, IsRow (q.row s) := fun s hs => q.isRow (h s hs)
  have hbuilt := q.bufCats_built id₀ id (x := []) List.not_mem_nil hrow (by decide)
  rw [List.nil_append, show builtResponse id₀ id [] =
    acpResponseCoopRequest (acpResponseOutInit id₀) id from rfl] at hbuilt
  unfold Query.answer
  rcases hbuilt with ⟨hlocked, hfit, hcats⟩ | ⟨hnot, r, hcats⟩
  -- the rows hold neither a delimiter of blocks nor a NUL
  · have hbytes : ∀ b, b = ACP_DELIMITER_BLOCK ∨ b = 0 → b ∉ q.text found := by
      intro b hb hm
      obtain ⟨row, hrm, hm⟩ := List.mem_flatten.mp hm
      obtain ⟨s, hs, rfl⟩ := List.mem_map.mp hrm
      rcases hb with rfl | rfl
      · exact (hrow s hs).block hm
      · exact (hrow s hs).nul hm
    -- without a program the text is empty, else it has a row
    have hshort : q.text found = [] ∨ 2 ≤ (q.text found).length := by
      cases hf : found.reduceOption with
      | nil => exact Or.inl (by rw [Query.text, hf]; rfl)
      | cons s list =>
        have hl := (hrow s (hf ▸ List.mem_cons_self)).long
        right
        rw [Query.text, hf, rowsText, List.map_cons, List.flatten_cons, List.length_append]
        omega
    obtain ⟨sz, response, bytes, hsend, hcarries⟩ := acpResponseSend_built id₀ id
      ⟨hbytes _ (Or.inl rfl), hbytes _ (Or.inr rfl), by omega⟩ hshort
    refine ⟨some bytes, ?_, iff_of_false (by simp) ?_, ?_⟩
    · rw [hcats, Option.bind_some, if_pos rfl, hsend]
      rfl
    · rintro (hn | hn)
      · exact hn hlocked
      · omega
    · rintro _ ⟨rfl⟩
      exact hcarries
  -- the loop has failed: `serverRun` returns without an answer
  · refine ⟨none, by rw [hcats]; rfl, iff_of_true rfl ?_, by simp⟩
    rw [not_and_or] at hnot
    exact hnot.imp_right not_lt.mp

theorem Query.text_ne_nil (q : Query) {found : List (Option Seen)}
    (h : ∀ s ∈ found.reduceOption, s.InRange) (hne : found.reduceOption ≠ []) :
    q.text found ≠ [] := by
  obtain ⟨s, list, hf⟩ := List.exists_cons_of_ne_nil hne
  have hl := (q.isRow (h s (hf ▸ List.mem_cons_self))).long
  intro hnil
  rw [Query.text, hf, rowsText, List.map_cons, List.flatten_cons, List.append_eq_nil_iff] at hnil
  rw [hnil.1] at hl
  exact absurd hl (by decide)

/-- The answer, with what a client has of it. -/
theorem Query.answer_spec (q : Query) (found : List (Option Seen))
    (h : ∀ s ∈ found.reduceOption, s.InRange) (id₀ id id₁ : UInt32) (peer : Peer)
    (src : SockAddr) :
    ∃ answer, q.answer found (acpResponseCoopRequest (acpResponseOutInit id₀) id) sendtoAll =
        some answer ∧
      (answer = none ↔ ¬q.Locked found ∨ ACP_DATA_MAX_SIZE ≤ (q.text found).length + 1) ∧
      ∀ bytes, answer = some bytes → ∃ item,
        acpResponseRead (acpResponseInit id₁) peer (some ⟨src, bytes⟩) = some (true, item, ⟨src⟩) ∧
          readColumns item.dataString = found.reduceOption.map q.columns ∧
          (found.reduceOption ≠ [] → item.id = id) ∧
          ∀ n, found.reduceOption.length ≤ n → q.Decodes found.reduceOption n item.dataString := by
  obtain ⟨answer, hans, hnone, hcarries⟩ := q.answer_carries found h id₀ id
  refine ⟨answer, hans, hnone, fun bytes hb => ?_⟩
  obtain ⟨item, hitem, hdata, hid⟩ := hcarries bytes hb id₁ peer src
  have htext := dataString_of_cString hdata
  refine ⟨item, hitem, ?_, fun hne => hid (q.text_ne_nil h hne), fun n hn => ?_⟩
  · rw [htext]
    refine readColumns_rows (fun s _ => ?_) fun s hs => (columns_spec (q.isColumns (h s hs))).1
    cases q <;> exact List.cons_ne_nil _ _
  · rw [htext]
    exact q.decodes h hn

end Regonf
