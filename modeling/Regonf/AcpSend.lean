import Regonf.AcpLists

/-! What the senders of `lib/acp/main.c` make of the result of `sendto`: `sendBuf` turns an error
into 0, and the senders of lists look for a negative number. -/
namespace Regonf.Sendto

variable {V : Type*}

/-- `S2`: two arrays that hold strings. -/
structure S2 where
  p0 : List UInt8
  p1 : List UInt8
deriving DecidableEq, Repr

def fmtS2 (i : S2) : Option (List UInt8) :=
  (cString i.p0).bind fun p0 => (cString i.p1).map fun p1 =>
    p0 ++ ACP_DELIMITER_COLUMN :: p1 ++ [ACP_DELIMITER_ROW]

def acpRequestSendS2List := acpRequestSendList fmtS2

def fmtS1 (p0 : List UInt8) : Option (List UInt8) :=
  (cString p0).map fun p0 => p0 ++ [ACP_DELIMITER_ROW]

/-- The strings of an `S1List`: `length` fields of `LINE_SIZE` bytes in one array. -/
def s1Fields (item : List UInt8) (length : ℕ) : List (List UInt8) :=
  (List.range length).map fun i => item.drop (i * LINE_SIZE)

def acpRequestSendS1List (cmd item : List UInt8) (length : ℕ) :=
  acpRequestSendList fmtS1 cmd (s1Fields item length)

def ACP_CMD_SET_FLOAT : List UInt8 := [115, 102]
def ACP_CMD_SET_INT : List UInt8 := [115, 105]

/-- The common part of `acp_setEMFloat` and `acp_setEMInt`: what the sender of the one row returns,
and `last_output`. -/
def acpSetEM (em : EM ℚ) (last_output : ℚ)
    (sent : Option (Bool × ACPRequest × Option (List UInt8))) :
    Option (Bool × EM ℚ × Option (List UInt8)) :=
  sent.map fun r =>
    if !r.1 then (false, em, r.2.2) else (true, { em with last_output := last_output }, r.2.2)

/-- `acp_setEMFloat`; `request` is what is on the stack. -/
def acpSetEMFloat (em : EM ℚ) (output : ℚ) (request : ACPRequest) (id : UInt32)
    (sendto : List UInt8 → ℤ) :
    Option (Bool × EM ℚ × Option (List UInt8)) :=
  acpSetEM em output
    (acpRequestSendI1F1List ACP_CMD_SET_FLOAT [⟨em.remote_id, output⟩] request id sendto)

def acpSetEMInt (em : EM ℚ) (output : ℤ) (request : ACPRequest) (id : UInt32)
    (sendto : List UInt8 → ℤ) :
    Option (Bool × EM ℚ × Option (List UInt8)) :=
  acpSetEM em output
    (acpRequestSendI2List ACP_CMD_SET_INT [⟨em.remote_id, output⟩] request id sendto)

/-- No result of `sendBuf` is negative. -/
theorem sendBuf_nonneg (buf : List UInt8) (sendto : List UInt8 → ℤ) : 0 ≤ sendBuf buf sendto := by
  unfold sendBuf
  dsimp only
  split_ifs with h
  · exact le_rfl
  · exact not_lt.mp h

/-- A sender whose result is 1 has handed a datagram to `sendto`, and `ok` says that it was
sent. -/
def Reports (ok : Prop) (r : Option (Bool × ACPRequest × Option (List UInt8))) : Prop :=
  ∀ request packet, r = some (true, request, packet) → packet.isSome ∧ ok

/-- The result is 1, or something of `em` has changed, only for an output that was sent. -/
def EMReports (ok : Prop) (em : EM ℚ) (r : Option (Bool × EM ℚ × Option (List UInt8))) : Prop :=
  ∀ b em' packet, r = some (b, em', packet) → b = true ∨ em' ≠ em → packet.isSome ∧ ok

/-- The rows do not fit into the data field. -/
def RowsOverflow (rows : List (List UInt8)) : Prop :=
  ACP_DATA_MAX_SIZE ≤ (rows.map fun q => q.take (LINE_SIZE - 1)).flatten.length + 1

instance (rows : List (List UInt8)) : Decidable (RowsOverflow rows) :=
  inferInstanceAs (Decidable (_ ≤ _))

section
variable {fmt : V → Option (List UInt8)} {cmd : List UInt8} {data : List V}
  {rows : List (List UInt8)} {ok : Prop}

/-- The datagram of a sender whose rows fit. -/
theorem acpRequestSendList_packed (hrows : data.map fmt = rows.map some)
    (h₀ : ∀ q ∈ rows, 0 ∉ q) (hcl : cmd.length < ACP_COMMAND_MAX_SIZE) {request packed : ACPRequest}
    {id : UInt32} (hover : ¬RowsOverflow rows)
    (hpack : acpRequestPack (builtRequest request cmd
      (rows.map fun q => q.take (LINE_SIZE - 1)).flatten) id = some packed)
    (sendto : List UInt8 → ℤ) :
    acpRequestSendList fmt cmd data request id sendto = some (true, packed,
      some (acpSendBuf (packed.buf.take packed.buf_size) sendto).2) := by
  have hq : ∀ q ∈ rows.map (fun q => q.take (LINE_SIZE - 1)), 0 ∉ q := by
    intro q hq hm
    obtain ⟨r, hr, rfl⟩ := List.mem_map.mp hq
    exact h₀ r hr (List.mem_of_mem_take hm)
  have hcats := acpRequestStrCats_built request cmd (x := []) List.not_mem_nil hq (by decide)
  rw [List.nil_append, if_pos (not_le.mp hover)] at hcats
  have hsend : acpRequestSend (builtRequest request cmd
      (rows.map fun q => q.take (LINE_SIZE - 1)).flatten) id sendto = some
        ((acpSendBuf (packed.buf.take packed.buf_size) sendto).1, packed,
          (acpSendBuf (packed.buf.take packed.buf_size) sendto).2) := by
    rw [acpRequestSend, hpack]
    rfl
  -- no result of `sendBuf` is taken for a failure
  have hno : decide ((acpSendBuf (packed.buf.take packed.buf_size) sendto).1 < 0) = false :=
    decide_eq_false (not_lt.mpr (sendBuf_nonneg _ _))
  rw [acpRequestSendList, acpRequestSetCmd_built hcl.le, hrows, acpRequestCatRows_some, hcats,
    Option.bind_some, if_pos rfl, hsend, Option.map_some, hno]
  rfl

/-- The result of a sender does not depend on that of `sendto`. -/
theorem acpRequestSendList_result (hrows : data.map fmt = rows.map some)
    (h₀ : ∀ q ∈ rows, 0 ∉ q) (hc : 0 ∉ cmd) (hcl : cmd.length < ACP_COMMAND_MAX_SIZE)
    (request : ACPRequest) (id : UInt32)
    (sendto : List UInt8 → ℤ) :
    if RowsOverflow rows then
      ∃ request', acpRequestSendList fmt cmd data request id sendto = some (false, request', none)
    else ∃ request' bytes,
      acpRequestSendList fmt cmd data request id sendto = some (true, request', some bytes) := by
  have hq : ∀ q ∈ rows.map (fun q => q.take (LINE_SIZE - 1)), 0 ∉ q := by
    intro q hq hm
    obtain ⟨r, hr, rfl⟩ := List.mem_map.mp hq
    exact h₀ r hr (List.mem_of_mem_take hm)
  by_cases hover : RowsOverflow rows
  -- one of the rows is refused, and the sender returns before it sends
  · have hcats := acpRequestStrCats_built request cmd (x := []) List.not_mem_nil hq (by decide)
    rw [List.nil_append, if_neg (not_lt.mpr hover)] at hcats
    obtain ⟨item', hcats⟩ := hcats
    rw [if_pos hover, acpRequestSendList, acpRequestSetCmd_built hcl.le, hrows,
      acpRequestCatRows_some, hcats]
    exact ⟨item', rfl⟩
  · have hd : 0 ∉ (rows.map fun q => q.take (LINE_SIZE - 1)).flatten := by
      intro hm
      obtain ⟨q, hq', hm⟩ := List.mem_flatten.mp hm
      exact hq q hq' hm
    obtain ⟨b, t, hpack, -⟩ := acpRequestPack_built request hc hcl hd (not_le.mp hover) id
    rw [if_neg hover]
    exact ⟨_, _, acpRequestSendList_packed hrows h₀ hcl hover hpack sendto⟩

theorem reports_iff (hrows : data.map fmt = rows.map some) (h₀ : ∀ q ∈ rows, 0 ∉ q)
    (hc : 0 ∉ cmd) (hcl : cmd.length < ACP_COMMAND_MAX_SIZE) (request : ACPRequest) (id : UInt32)
    (sendto : List UInt8 → ℤ) :
    Reports ok (acpRequestSendList fmt cmd data request id sendto) ↔ RowsOverflow rows ∨ ok := by
  have hres := acpRequestSendList_result hrows h₀ hc hcl request id sendto
  by_cases hover : RowsOverflow rows
  · rw [if_pos hover] at hres
    obtain ⟨request', hres⟩ := hres
    refine iff_of_true (fun r p hr => ?_) (Or.inl hover)
    rw [hres] at hr
    cases hr
  · rw [if_neg hover] at hres
    obtain ⟨request', bytes, hres⟩ := hres
    constructor
    · exact fun h => Or.inr (h _ _ hres).2
    · intro h r p hr
      rw [hres] at hr
      cases hr
      exact ⟨rfl, h.resolve_left hover⟩

/-- One row is always sent. -/
theorem emReports_iff {row : List UInt8} {em : EM ℚ} {output : ℚ} {a : V}
    (hrow : fmt a = some row) (h₀ : 0 ∉ row) (hc : 0 ∉ cmd)
    (hcl : cmd.length < ACP_COMMAND_MAX_SIZE) (request : ACPRequest) (id : UInt32)
    (sendto : List UInt8 → ℤ) :
    EMReports ok em (acpSetEM em output (acpRequestSendList fmt cmd [a] request id sendto)) ↔
      ok := by
  -- `snprintf` cuts the row before it could fill the field
  have hover : ¬ RowsOverflow [row] := by
    have hl : (row.take (LINE_SIZE - 1)).length ≤ 255 := List.length_take_le _ _
    simp only [RowsOverflow, List.map_cons, List.map_nil, List.flatten_cons, List.flatten_nil,
      List.append_nil, ACP_DATA_MAX_SIZE]
    omega
  have hrows : [a].map fmt = [row].map some := by
    rw [List.map_singleton, hrow, List.map_singleton]
  have hres := acpRequestSendList_result hrows (List.forall_mem_singleton.mpr h₀) hc hcl request
    id sendto
  rw [if_neg hover] at hres
  obtain ⟨request', bytes, hres⟩ := hres
  rw [hres]
  constructor
  · exact fun h => (h _ _ _ rfl (Or.inl rfl)).2
  · intro h b em' p hr _
    cases hr
    exact ⟨rfl, h⟩

end

theorem not_mem_fmtD (v : ℤ) : 0 ∉ fmtD v := by
  intro hm
  rcases chars_fmtD v 0 hm with h | h | h <;> exact absurd h (by decide)

theorem not_mem_fmtF (v : ℚ) : 0 ∉ fmtF v := by
  intro hm
  unfold fmtF fmtDec at hm
  dsimp only at hm
  rw [List.mem_append, List.mem_append, List.mem_cons] at hm
  rcases hm with (hm | hm) | hm | hm
  · split_ifs at hm
    · exact absurd (List.mem_singleton.mp hm) (by decide)
    · cases hm
  · exact absurd (Decimal.mem_write hm).1 (by decide)
  · exact absurd hm (by decide)
  · exact absurd (Decimal.mem_fixed hm).1 (by decide)

theorem not_mem_fmtI1 (p0 : ℤ) : 0 ∉ fmtI1 p0 := by
  simp [fmtI1, not_mem_fmtD, ACP_DELIMITER_ROW]

theorem not_mem_fmtI1X {fmt : V → List UInt8} (h : ∀ v, 0 ∉ fmt v) (i : I1X V) :
    0 ∉ fmtI1X fmt i := by
  simp [fmtI1X, not_mem_fmtD, h, ACP_DELIMITER_ROW, ACP_DELIMITER_COLUMN]

theorem not_mem_cString {a s : List UInt8} (h : cString a = some s) : 0 ∉ s := by
  unfold cString at h
  split_ifs at h
  cases h
  intro hm
  simpa using List.mem_takeWhile_imp hm

/-- A failure of `sendto` is reported if and only if the rows do not fit, since nothing is handed
over then, or there is none; the one row of `acp_setEMFloat` and `acp_setEMInt` always fits. `ok`
says which results of `sendto` are successes. -/
theorem send_failures_reported (ok : ℤ → Prop) {cmd : List UInt8} (hc : 0 ∉ cmd)
    (hcl : cmd.length < ACP_COMMAND_MAX_SIZE) (request : ACPRequest) (id : UInt32) (n : ℤ) :
    (∀ data, Reports (ok n) (acpRequestSendI1List cmd data request id fun _ => n) ↔
      RowsOverflow (data.map fmtI1) ∨ ok n) ∧
    (∀ data, Reports (ok n) (acpRequestSendI1F1List cmd data request id fun _ => n) ↔
      RowsOverflow (data.map (fmtI1X fmtF)) ∨ ok n) ∧
    (∀ data, Reports (ok n) (acpRequestSendI1U321List cmd data request id fun _ => n) ↔
      RowsOverflow (data.map (fmtI1X fmtU)) ∨ ok n) ∧
    (∀ data, Reports (ok n) (acpRequestSendI2List cmd data request id fun _ => n) ↔
      RowsOverflow (data.map (fmtI1X fmtD)) ∨ ok n) ∧
    (∀ data rows, data.map fmtS2 = rows.map some →
      (Reports (ok n) (acpRequestSendS2List cmd data request id fun _ => n) ↔
        RowsOverflow rows ∨ ok n)) ∧
    (∀ item length rows, (s1Fields item length).map fmtS1 = rows.map some →
      (Reports (ok n) (acpRequestSendS1List cmd item length request id fun _ => n) ↔
        RowsOverflow rows ∨ ok n)) ∧
    (∀ em output, EMReports (ok n) em (acpSetEMFloat em output request id fun _ => n) ↔ ok n) ∧
    ∀ em output, EMReports (ok n) em (acpSetEMInt em output request id fun _ => n) ↔ ok n := by
  have hsome {α : Type} (f : α → List UInt8) (data : List α) :
      data.map (fun a => some (f a)) = (data.map f).map some := by
    rw [List.map_map]
    rfl
  have hnum {α : Type} {f : α → List UInt8} (hf : ∀ a, 0 ∉ f a) (data : List α) :
      Reports (ok n) (acpRequestSendList (fun a => some (f a)) cmd data request id fun _ => n) ↔
        RowsOverflow (data.map f) ∨ ok n := by
    refine reports_iff (hsome f data) (fun q hq => ?_) hc hcl request id _
    obtain ⟨a, -, rfl⟩ := List.mem_map.mp hq
    exact hf a
  have hstr {α : Type} {f : α → Option (List UInt8)} (hf : ∀ a q, f a = some q → 0 ∉ q)
      {data : List α} {rows : List (List UInt8)} (hrows : data.map f = rows.map some) :
      Reports (ok n) (acpRequestSendList f cmd data request id fun _ => n) ↔
        RowsOverflow rows ∨ ok n := by
    refine reports_iff hrows (fun q hq => ?_) hc hcl request id _
    have hmem : some q ∈ data.map f := by
      rw [hrows]
      exact List.mem_map_of_mem hq
    obtain ⟨a, -, ha⟩ := List.mem_map.mp hmem
    exact hf a q ha
  refine ⟨hnum not_mem_fmtI1, hnum (not_mem_fmtI1X not_mem_fmtF),
    hnum (not_mem_fmtI1X fun v => (not_mem_fmtU v).2), hnum (not_mem_fmtI1X not_mem_fmtD),
    fun data rows => hstr fun i q hq => ?_, fun item length rows => hstr fun p0 q hq => ?_,
    fun em output => ?_, fun em output => ?_⟩
  · obtain ⟨p0, h₀, hq⟩ := Option.bind_eq_some_iff.mp hq
    obtain ⟨p1, h₁, rfl⟩ := Option.map_eq_some_iff.mp hq
    simp [not_mem_cString h₀, not_mem_cString h₁, ACP_DELIMITER_COLUMN, ACP_DELIMITER_ROW]
  · obtain ⟨p0, h₀, rfl⟩ := Option.map_eq_some_iff.mp hq
    simp [not_mem_cString h₀, ACP_DELIMITER_ROW]
  · exact emReports_iff rfl (not_mem_fmtI1X not_mem_fmtF _) (by decide) (by decide) request id _
  · exact emReports_iff rfl (not_mem_fmtI1X not_mem_fmtD _) (by decide) (by decide) request id _

/-- The command of `acp_setEMInt` with the result of a `sendto` that has sent all. -/
theorem send_failures_reported_example :
    Reports ((0 : ℤ) < 12) (acpRequestSendI2List ACP_CMD_SET_INT [⟨3, 100⟩]
      ⟨[], [], [], 0, 0, 0, 0, 0, 0⟩ 7 fun _ => 12) ↔
      RowsOverflow [fmtI1X fmtD ⟨3, 100⟩] ∨ (0 : ℤ) < 12 :=
  (send_failures_reported (fun n => 0 < n) (show 0 ∉ ACP_CMD_SET_INT by decide) (by decide) _ 7
    12).2.2.2.1 _

/-- `sendto` fails: the sender of the list returns 1, and `acp_setEMInt` returns 1 and takes the
output for sent. -/
theorem send_failure_unreported :
    ¬ Reports (0 ≤ (-1 : ℤ)) (acpRequestSendI1List [115, 116] [5]
      ⟨[], [], [], 0, 0, 0, 0, 0, 0⟩ 7 fun _ => -1) ∧
    ¬ EMReports (0 ≤ (-1 : ℤ)) ⟨1, 3, ⟨⟨0, 0⟩⟩, 0, 1000⟩ (acpSetEMInt ⟨1, 3, ⟨⟨0, 0⟩⟩, 0, 1000⟩ 100
      ⟨[], [], [], 0, 0, 0, 0, 0, 0⟩ 7 fun _ => -1) := by
  constructor
  · have hrun : (acpRequestSendI1List [115, 116] [5] ⟨[], [], [], 0, 0, 0, 0, 0, 0⟩ 7
        fun _ => -1).map (fun r => r.1) = some true := by
      decide +kernel
    obtain ⟨⟨o, request, packet⟩, hr, rfl⟩ := Option.map_eq_some_iff.mp hrun
    exact fun h => absurd (h request packet hr).2 (by decide)
  · have hrun : (acpSetEMInt ⟨1, 3, ⟨⟨0, 0⟩⟩, 0, 1000⟩ 100 ⟨[], [], [], 0, 0, 0, 0, 0, 0⟩ 7
        fun _ => -1).map (fun r => (r.1, r.2.1.last_output)) = some (true, 100) := by
      decide +kernel
    obtain ⟨⟨b, em', packet⟩, hr, hb⟩ := Option.map_eq_some_iff.mp hrun
    exact fun h => absurd (h b em' packet hr (Or.inl (Prod.mk.inj hb).1)).2 (by decide)

end Regonf.Sendto
