import Regonf.AcpWire

/-! Where the strings in the fields of a received packet end. The fields of the two structs stand
one behind the other: `cmd`, `data`, `buf` in a request, `data`, `buf` in a response. -/
namespace Regonf

open Blocks

/-- The string that starts at a field ends inside the field and is that of the block; `next` is
what follows the field in the struct. -/
def EndsInField (a next x : List UInt8) : Prop :=
  0 ∈ a ∧ (a ++ next).takeWhile (· ≠ 0) = x.takeWhile (· ≠ 0)

theorem mem_field {n : ℕ} {x : List UInt8} : 0 ∈ field n x ↔ 0 ∈ x ∨ x.length < n := by
  rw [field, List.mem_append, List.mem_replicate]
  refine or_congr_right ?_
  constructor
  · rintro ⟨h, -⟩
    omega
  · intro h
    exact ⟨by omega, rfl⟩

/-- A block in a zeroed field: only a block that fills the field has no end there. -/
theorem endsInField_iff {n : ℕ} (x next : List UInt8) :
    EndsInField (field n x) next x ↔ 0 ∈ x ∨ x.length < n := by
  rw [EndsInField, mem_field]
  refine and_iff_left_of_imp fun h => ?_
  -- the string ends at the padding, or at the first NUL of the block itself
  rcases block_cases 0 x with h₀ | ⟨y, z, hy, rfl⟩
  · rw [field_cons (h.resolve_left h₀), List.append_assoc, List.cons_append,
      takeWhile_ne_append h₀, takeWhile_ne_self h₀]
  · rw [field, List.append_assoc, List.append_assoc, List.cons_append, takeWhile_ne_append hy,
      takeWhile_ne_append hy]

/-- What a server that is ready for a request has when it accepts one. -/
theorem acpRequestRead_true {item item' : ACPRequest} {peer peer' : Peer} {d : Option Datagram}
    (h : acpRequestRead (acpRequestInit item) peer d = some (true, item', peer')) :
    ∃ g, d = some g ∧ item'.buf = recvInto (List.replicate ACP_BUFFER_MAX_SIZE 0) g ∧
      item'.cmd = field ACP_COMMAND_MAX_SIZE (block ACP_DELIMITER_BLOCK 0 item'.buf) ∧
      item'.data = field ACP_DATA_MAX_SIZE (block ACP_DELIMITER_BLOCK 1 item'.buf) ∧
      item'.data_rows_count = countDataRows item'.data := by
  rw [acpRequestRead] at h
  cases d with
  | none => cases h
  | some g =>
    dsimp only [acpRead] at h
    cases hc : acpCrcCheck (recvInto (acpRequestInit item).buf g) with
    | false =>
      rw [hc] at h
      cases h
    | true =>
      rw [hc, Option.map_eq_some_iff] at h
      obtain ⟨⟨ok, r⟩, hp, he⟩ := h
      cases he
      -- `recvfrom` is given the size of the buffer
      have hlen : (recvInto (acpRequestInit item).buf g).length ≤ ACP_BUFFER_MAX_SIZE := by
        simp only [recvInto, acpRequestInit, List.length_append, List.length_take,
          List.length_drop, List.length_replicate]
        omega
      have hiff : acpRequestParse { acpRequestInit item with
          buf := recvInto (acpRequestInit item).buf g } = some (true, r) ↔ _ :=
        acpRequestParse_true (List.length_replicate).ge (List.length_replicate).ge hlen
      obtain ⟨-, -, hdl, -, -, rfl⟩ := hiff.mp hp
      have hfield (x : List UInt8) :
          writeAt (acpRequestInit item).data 0 x = field ACP_DATA_MAX_SIZE x :=
        writeAt_replicate _ _
      have hlen : (block ACP_DELIMITER_BLOCK 1 (recvInto (acpRequestInit item).buf g)).length ≤
          ACP_DATA_MAX_SIZE := hdl
      refine ⟨g, rfl, rfl, writeAt_replicate _ _, writeAt_replicate _ _, ?_⟩
      dsimp only [acpCountDataRows]
      rw [hfield, show (acpRequestInit item).data_size = ACP_DATA_MAX_SIZE from rfl,
        List.take_of_length_le (length_field hlen).le]

theorem acpResponseParse_fields {id : UInt32} {buf : List UInt8} {item' : ACPResponse}
    (hbuf : buf.length ≤ ACP_BUFFER_MAX_SIZE)
    (h : acpResponseParse { acpResponseInit id with buf := buf } = some (true, item')) :
    item'.buf = buf ∧ item'.data = field ACP_DATA_MAX_SIZE (block ACP_DELIMITER_BLOCK 1 buf) := by
  have hiff : acpResponseParse { acpResponseInit id with buf := buf } = some (true, item') ↔ _ :=
    acpResponseParse_true (List.length_replicate).ge hbuf
  obtain ⟨-, u, seq, inl, -, -, -, -, -, -, -, -, -, rfl⟩ := hiff.mp h
  exact ⟨rfl, writeAt_replicate _ _⟩

/-- The strings of an accepted packet end inside their fields exactly when no block that fills its
field is without a NUL. -/
theorem fields_end (item : ACPRequest) (id : UInt32) :
    (∀ (item' : ACPRequest) (peer peer' : Peer) (d : Datagram),
      acpRequestRead (acpRequestInit item) peer (some d) = some (true, item', peer') →
      let buf := recvInto (List.replicate ACP_BUFFER_MAX_SIZE 0) d
      let cmd := block ACP_DELIMITER_BLOCK 0 buf
      let data := block ACP_DELIMITER_BLOCK 1 buf
      (EndsInField item'.cmd (item'.data ++ item'.buf) cmd ∧
          EndsInField item'.data item'.buf data ↔
        (0 ∈ cmd ∨ cmd.length < ACP_COMMAND_MAX_SIZE) ∧
          (0 ∈ data ∨ data.length < ACP_DATA_MAX_SIZE))) ∧
    ∀ (buf : List UInt8) (item' : ACPResponse), buf.length ≤ ACP_BUFFER_MAX_SIZE →
      acpResponseParse { acpResponseInit id with buf := buf } = some (true, item') →
      let data := block ACP_DELIMITER_BLOCK 1 buf
      (EndsInField item'.data item'.buf data ↔ 0 ∈ data ∨ data.length < ACP_DATA_MAX_SIZE) := by
  constructor
  · intro item' peer peer' d h
    obtain ⟨g, hg, hbuf, hcmd, hdata, -⟩ := acpRequestRead_true h
    cases hg
    dsimp only
    rw [hcmd, hdata, ← hbuf, endsInField_iff, endsInField_iff]
  · intro buf item' hbuf h
    obtain ⟨hb, hdata⟩ := acpResponseParse_fields hbuf h
    dsimp only
    rw [hdata, endsInField_iff]

/-- The request `pst` without data, received by a fresh server. -/
theorem fields_end_example :
    let d : Datagram := ⟨⟨0, 0⟩, sentBytes (packetText [112, 115, 116] [] (fmtU 7)) 0⟩
    let buf := recvInto (List.replicate ACP_BUFFER_MAX_SIZE 0) d
    ∃ item', acpRequestRead (acpRequestInit blankRequest) ⟨⟨0, 0⟩⟩ (some d) =
        some (true, item', ⟨⟨0, 0⟩⟩) ∧
      EndsInField item'.cmd (item'.data ++ item'.buf) (block ACP_DELIMITER_BLOCK 0 buf) ∧
      EndsInField item'.data item'.buf (block ACP_DELIMITER_BLOCK 1 buf) := by
  have hread := acpRequestRead_packet [112, 115, 116] [] 7 (by decide) (by decide) (by decide)
    (by decide) (by decide) blankRequest ⟨⟨0, 0⟩⟩ ⟨0, 0⟩ 0
  exact ⟨_, hread, ((fields_end _ 7).1 _ _ _ _ hread).mpr (by decide +kernel)⟩

/-- A command of 16 bytes and a data block of 456 bytes are accepted, and neither string ends in
its field. -/
theorem full_fields_run_on :
    ∃ (d : Datagram) (item' : ACPRequest),
      acpRequestRead (acpRequestInit blankRequest) ⟨⟨0, 0⟩⟩ (some d) =
        some (true, item', ⟨⟨0, 0⟩⟩) ∧
      (∀ x, ¬EndsInField item'.cmd (item'.data ++ item'.buf) x) ∧
      ∀ x, ¬EndsInField item'.data item'.buf x := by
  have hread := acpRequestRead_packet (List.replicate ACP_COMMAND_MAX_SIZE 97)
    (List.replicate ACP_DATA_MAX_SIZE 49) 7 (by simp [ACP_DELIMITER_BLOCK])
    (by simp [ACP_DELIMITER_BLOCK]) (List.length_replicate).le (List.length_replicate).le
    (by rw [List.length_replicate]; exact Nat.le_add_right_of_le (by decide)) blankRequest
    ⟨⟨0, 0⟩⟩ ⟨0, 0⟩ 0
  have hfull (n : ℕ) (b : UInt8) (hb : b ≠ 0) : 0 ∉ field n (List.replicate n b) := by
    simp [mem_field, hb.symm]
  exact ⟨_, _, hread, fun _ h => hfull _ 97 (by decide) h.1, fun _ h => hfull _ 49 (by decide) h.1⟩

end Regonf
