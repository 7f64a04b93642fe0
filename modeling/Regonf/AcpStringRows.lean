import Regonf.AcpStringsFit

/-! The rows of strings that `lib/acp/main.c` sends, and when the decoders read them back. -/
namespace Regonf

open Blocks Rows

variable {V W : Type*}

/-- What a sender of a list has handed over: nothing where it returns 0, else a datagram whose data
block satisfies `P`. -/
def WholeOrNothing (P : List UInt8 → Prop) (r : Option (Bool × ACPRequest × Option (List UInt8))) :
    Prop :=
  ∃ ok request sent, r = some (ok, request, sent) ∧
    (ok = false ∧ sent = none ∨ ∃ bytes, sent = some bytes ∧ P (block ACP_DELIMITER_BLOCK 1 bytes))

/-- The strings of a list. -/
def stringsS1 (list : S1List) : List (Option (List UInt8)) :=
  (Sendto.s1Fields list.item list.length).map cString

def stringsS2 (list : S2List) : List (Option (List UInt8) × Option (List UInt8)) :=
  (list.item.take list.length).map fun i => (cString i.p0, cString i.p1)

/-- `acp_dataToS1List` makes the strings `ws` of a data block, in a list that its rows have room
in. -/
def DecodesToS1 (ws : List (List UInt8)) (x : List UInt8) : Prop :=
  ∀ arr : List UInt8, arr.length = blockRows x * LINE_SIZE →
    ∃ list, acpDataToS1List x (defServerList arr) = some list ∧ stringsS1 list = ws.map some

def DecodesToS2 (ws : List (List UInt8 × List UInt8)) (x : List UInt8) : Prop :=
  ∀ arr : List Sendto.S2, arr.length = blockRows x →
    (∀ i ∈ arr, i.p0.length = LINE_SIZE ∧ i.p1.length = LINE_SIZE) →
    ∃ list, acpDataToS2List x (defServerList arr) = some list ∧
      stringsS2 list = ws.map fun w => (some w.1, some w.2)

/-! The data block of a datagram. -/

section
variable {fmt : V → Option (List UInt8)} {cmd : List UInt8} {data : List V}
  {rows : List (List UInt8)}

/-- The rows as `snprintf` cuts them. -/
def cutRows (rows : List (List UInt8)) : List UInt8 :=
  (rows.map fun q => q.take (LINE_SIZE - 1)).flatten

theorem mem_cutRows {rows : List (List UInt8)} {b : UInt8} (h : b ∈ cutRows rows) :
    ∃ q ∈ rows, b ∈ q := by
  obtain ⟨q', hq', hb⟩ := List.mem_flatten.mp h
  obtain ⟨q, hq, rfl⟩ := List.mem_map.mp hq'
  exact ⟨q, hq, List.mem_of_mem_take hb⟩

/-- A sender of a list sends its rows as they were cut, or nothing where they do not fit. -/
theorem wholeOrNothing_iff {P : List UInt8 → Prop} (hrows : data.map fmt = rows.map some)
    (h₀ : ∀ q ∈ rows, 0 ∉ q) (h₁ : ∀ q ∈ rows, ACP_DELIMITER_BLOCK ∉ q) (hc₀ : 0 ∉ cmd)
    (hc₁ : ACP_DELIMITER_BLOCK ∉ cmd) (hcl : cmd.length < ACP_COMMAND_MAX_SIZE)
    (request : ACPRequest) (id : UInt32)
    (sendto : List UInt8 → ℤ) :
    WholeOrNothing P (acpRequestSendList fmt cmd data request id sendto) ↔
      Sendto.RowsOverflow rows ∨ P (cutRows rows) := by
  by_cases hover : Sendto.RowsOverflow rows
  · have hres := Sendto.acpRequestSendList_result hrows h₀ hc₀ hcl request id sendto
    rw [if_pos hover] at hres
    obtain ⟨request', hres⟩ := hres
    exact iff_of_true ⟨_, _, _, hres, Or.inl ⟨rfl, rfl⟩⟩ (Or.inl hover)
  have hd₀ : 0 ∉ cutRows rows := fun hm => by
    obtain ⟨q, hq, hb⟩ := mem_cutRows hm
    exact h₀ q hq hb
  have hd₁ : ACP_DELIMITER_BLOCK ∉ cutRows rows := fun hm => by
    obtain ⟨q, hq, hb⟩ := mem_cutRows hm
    exact h₁ q hq hb
  obtain ⟨b, t, hpack, hlen⟩ := acpRequestPack_built request hc₀ hcl hd₀ (not_le.mp hover) id
  obtain ⟨packed, hpack, hbuf, hsize⟩ : ∃ packed,
      acpRequestPack (builtRequest request cmd (cutRows rows)) id = some packed ∧
      packed.buf = packetText cmd (cutRows rows) (fmtU id) ++
        crcUpdateByStr 0 (packetText cmd (cutRows rows) (fmtU id)) :: b :: t ∧
      packed.buf_size = ACP_BUFFER_MAX_SIZE := ⟨_, hpack, rfl, rfl⟩
  have hres := Sendto.acpRequestSendList_packed hrows h₀ hcl hover hpack sendto
  -- block 1 of the bytes that are sent
  have hbytes : (acpSendBuf (packed.buf.take packed.buf_size) sendto).2 =
      sentBytes (packetText cmd (cutRows rows) (fmtU id)) b :=
    congrArg Prod.snd (acpSendBuf_packed hc₁ hd₁ (not_mem_fmtU id).1 hbuf hlen hsize)
  have hblock : block ACP_DELIMITER_BLOCK 1
      (sentBytes (packetText cmd (cutRows rows) (fmtU id)) b) = cutRows rows :=
    block_one_packet hc₁ hd₁ _
  rw [hres, hbytes]
  constructor
  · rintro ⟨ok, request', sent, hr, ⟨rfl, -⟩ | ⟨bytes, rfl, hP⟩⟩
    · cases hr
    · cases hr
      rw [hblock] at hP
      exact Or.inr hP
  · intro h
    have hP := h.resolve_left hover
    rw [← hblock] at hP
    exact ⟨_, _, _, rfl, Or.inr ⟨_, rfl, hP⟩⟩

end

/-! The decoders on rows that were not cut. -/

/-- Rows that are scanned one by one are read back. -/
theorem readChecked_strings {scan : List UInt8 → Option (Option W)} {row : W → List UInt8}
    {ws : List W}
    (hscan : ∀ w ∈ ws, ∀ t, scan (row w ++ ACP_DELIMITER_ROW :: t) = some (some w))
    (hrow : ∀ w ∈ ws, ACP_DELIMITER_ROW ∉ row w ∧ ACP_DELIMITER_BLOCK ∉ row w)
    (hend : scan [] = some none) {n : ℕ} (hn : ws.length ≤ n) :
    readChecked scan acpBufnrow n (ws.map fun w => row w ++ [ACP_DELIMITER_ROW]).flatten =
      some ws := by
  induction ws generalizing n with
  | nil =>
    cases n with
    | zero => rfl
    | succ n => rw [List.map_nil, List.flatten_nil, readChecked, hend]
  | cons w ws ih =>
    obtain ⟨n, rfl⟩ := Nat.exists_eq_add_of_le' hn
    obtain ⟨hw, hscan⟩ := List.forall_mem_cons.mp hscan
    obtain ⟨⟨hr, -⟩, hrow⟩ := List.forall_mem_cons.mp hrow
    have htext : ((w :: ws).map fun w => row w ++ [ACP_DELIMITER_ROW]).flatten =
        row w ++ ACP_DELIMITER_ROW :: (ws.map fun w => row w ++ [ACP_DELIMITER_ROW]).flatten := by
      simp
    -- the text behind the row does not begin with the delimiter of blocks
    have hhead : ((ws.map fun w => row w ++ [ACP_DELIMITER_ROW]).flatten.head? ==
        some ACP_DELIMITER_BLOCK) = false := by
      rw [beq_eq_false_iff_ne]
      intro hh
      obtain ⟨q, hq, hb⟩ := List.mem_flatten.mp (List.mem_of_head? hh)
      obtain ⟨v, hv, rfl⟩ := List.mem_map.mp hq
      rcases List.mem_append.mp hb with hb | hb
      · exact (hrow v hv).2 hb
      · cases List.mem_singleton.mp hb
    rw [htext, List.length_cons, ← Nat.add_assoc, readChecked, hw, acpBufnrow_row hr, hhead]
    dsimp only
    rw [if_neg Bool.false_ne_true, ih hscan hrow (Nat.le_add_left _ _), Option.map_some]

theorem scanS1_row {s : List UInt8} (hs : s.length < LINE_SIZE) (hr : ACP_DELIMITER_ROW ∉ s)
    (t : List UInt8) : scanS1 (s ++ ACP_DELIMITER_ROW :: t) = some (some s) := by
  rw [scanS1, block_zero_append hr]
  rw [if_neg (not_le.mpr hs), if_pos (by simp)]

theorem scanS2_row {p0 p1 : List UInt8} (h₀ : p0.length < LINE_SIZE) (h₁ : p1.length < LINE_SIZE)
    (hc₀ : ACP_DELIMITER_COLUMN ∉ p0) (hc₁ : ACP_DELIMITER_COLUMN ∉ p1)
    (hr : ACP_DELIMITER_ROW ∉ p0 ++ ACP_DELIMITER_COLUMN :: p1) (t : List UInt8) :
    scanS2 (p0 ++ ACP_DELIMITER_COLUMN :: p1 ++ ACP_DELIMITER_ROW :: t) = some (some (p0, p1)) := by
  rw [scanS2, block_zero_append hr, block_zero_append hc₀, block_succ_append hc₀,
    block_zero_self hc₁]
  rw [if_neg (not_le.mpr h₀), if_neg (by simp), if_neg (not_le.mpr h₁)]

section
variable {row : W → List UInt8} {ws : List W}

theorem cutRows_cons (q : List UInt8) (rows : List (List UInt8)) :
    cutRows (q :: rows) = q.take (LINE_SIZE - 1) ++ cutRows rows := rfl

theorem cutRows_append (rows rows' : List (List UInt8)) :
    cutRows (rows ++ rows') = cutRows rows ++ cutRows rows' := by
  simp [cutRows]

theorem cutRows_short (h : ∀ w ∈ ws, (row w).length + 1 < LINE_SIZE) :
    cutRows (ws.map fun w => row w ++ [ACP_DELIMITER_ROW]) =
      (ws.map fun w => row w ++ [ACP_DELIMITER_ROW]).flatten := by
  have htake : ∀ q ∈ ws.map fun w => row w ++ [ACP_DELIMITER_ROW], q.take (LINE_SIZE - 1) = q := by
    intro q hq
    obtain ⟨w, hw, rfl⟩ := List.mem_map.mp hq
    have hl := h w hw
    exact List.take_of_length_le (by rw [List.length_append, List.length_singleton]; omega)
  rw [cutRows, List.map_congr_left htake, List.map_id']

theorem count_cutRows_le (h : ∀ w ∈ ws, ACP_DELIMITER_ROW ∉ row w) :
    (cutRows (ws.map fun w => row w ++ [ACP_DELIMITER_ROW])).count ACP_DELIMITER_ROW ≤
      ws.length := by
  induction ws with
  | nil => exact le_rfl
  | cons w ws ih =>
    obtain ⟨hw, h⟩ := List.forall_mem_cons.mp h
    have hone : ((row w ++ [ACP_DELIMITER_ROW]).take (LINE_SIZE - 1)).count ACP_DELIMITER_ROW ≤
        1 := by
      refine le_trans ((List.take_sublist _ _).count_le _) ?_
      simp [List.count_eq_zero_of_not_mem hw]
    have hrest := ih h
    rw [List.map_cons, cutRows_cons, List.count_append, List.length_cons]
    omega

/-- Rows that are not cut keep their newlines. -/
theorem count_rows (h : ∀ w ∈ ws, ACP_DELIMITER_ROW ∉ row w) :
    (ws.map fun w => row w ++ [ACP_DELIMITER_ROW]).flatten.count ACP_DELIMITER_ROW =
      ws.length := by
  induction ws with
  | nil => rfl
  | cons w ws ih =>
    obtain ⟨hw, h⟩ := List.forall_mem_cons.mp h
    rw [List.map_cons, List.flatten_cons, List.count_append, ih h, List.count_append,
      List.count_eq_zero_of_not_mem hw, List.count_singleton_self, List.length_cons]
    omega

/-- A row that loses its newline leaves fewer newlines than rows. -/
theorem count_cutRows_lt (h : ∀ w ∈ ws, ACP_DELIMITER_ROW ∉ row w) {w : W} (hw : w ∈ ws)
    (hl : LINE_SIZE ≤ (row w).length + 1) :
    (cutRows (ws.map fun w => row w ++ [ACP_DELIMITER_ROW])).count ACP_DELIMITER_ROW <
      ws.length := by
  have hcut : ACP_DELIMITER_ROW ∉ (row w ++ [ACP_DELIMITER_ROW]).take (LINE_SIZE - 1) := by
    rw [List.take_append_of_le_length (by omega)]
    exact fun hm => h w hw (List.mem_of_mem_take hm)
  have hzero := List.count_eq_zero_of_not_mem hcut
  obtain ⟨us, vs, rfl⟩ := List.append_of_mem hw
  have hus := count_cutRows_le fun u hu => h u (List.mem_append_left _ hu)
  have hvs := count_cutRows_le fun v hv =>
    h v (List.mem_append_right _ (List.mem_cons_of_mem _ hv))
  rw [List.map_append, List.map_cons, cutRows_append, cutRows_cons, List.count_append,
    List.count_append, hzero, List.length_append, List.length_cons]
  omega

variable (row) in
/-- Rows are read back if and only if none of them was cut. -/
theorem readChecked_cutRows_iff {scan : List UInt8 → Option (Option W)}
    (hscan : ∀ w ∈ ws, (row w).length + 1 < LINE_SIZE →
      ∀ t, scan (row w ++ ACP_DELIMITER_ROW :: t) = some (some w))
    (hrow : ∀ w ∈ ws, ACP_DELIMITER_ROW ∉ row w ∧ ACP_DELIMITER_BLOCK ∉ row w)
    (hend : scan [] = some none) {n : ℕ}
    (hn : (cutRows (ws.map fun w => row w ++ [ACP_DELIMITER_ROW])).count ACP_DELIMITER_ROW ≤ n)
    (hle : ∀ vs, readChecked scan acpBufnrow n
      (cutRows (ws.map fun w => row w ++ [ACP_DELIMITER_ROW])) = some vs → vs.length ≤
        (cutRows (ws.map fun w => row w ++ [ACP_DELIMITER_ROW])).count ACP_DELIMITER_ROW) :
    readChecked scan acpBufnrow n (cutRows (ws.map fun w => row w ++ [ACP_DELIMITER_ROW])) =
      some ws ↔ ∀ w ∈ ws, (row w).length + 1 < LINE_SIZE := by
  constructor
  · intro h w hw
    by_contra hl
    -- the decoder takes at most one row for each newline that is left
    have hlt := count_cutRows_lt (fun w hw => (hrow w hw).1) hw (not_lt.mp hl)
    have := hle ws h
    omega
  · intro h
    have hcount := count_rows fun w hw => (hrow w hw).1
    rw [cutRows_short h] at hn ⊢
    exact readChecked_strings (fun w hw => hscan w hw (h w hw)) hrow hend (hcount ▸ hn)

end

/-! The lists of the decoders. -/

/-- A decoder makes a given list of strings exactly when its scan reads them. -/
theorem Decodes.decodes_iff {L S : Type*} {read : List UInt8 → Option (Option (L × List UInt8))}
    {store : L → ItemList V → Option (List V)} {scan : List UInt8 → Option (Option W)}
    {Holds : List V → List W → Prop} {cap : ℕ} (h : Decodes read store scan Holds cap)
    (strings : ItemList V → List S) {f : W → S} (hf : Function.Injective f) (Ok : List V → Prop)
    {n : ℕ} {buf : List UInt8} (h₀ : 0 ∉ buf) (hok : ∀ arr, Ok arr → Holds arr [])
    (hne : ∃ arr, Ok arr)
    (hcap : ∀ vs, readChecked scan acpBufnrow n buf = some vs → vs.length ≤ cap)
    (hs : ∀ item vs m, Holds item vs → vs.length ≤ cap → strings ⟨item, vs.length, m⟩ = vs.map f)
    (ws : List W) :
    (∀ arr, Ok arr → ∃ list, acpDataToStrings read store n buf (defServerList arr) = some list ∧
      strings list = ws.map f) ↔ readChecked scan acpBufnrow n buf = some ws := by
  obtain ⟨arr, harr⟩ := hne
  cases hr : readChecked scan acpBufnrow n buf with
  | none =>
    refine iff_of_false (fun hall => ?_) (by simp)
    obtain ⟨list, hrun, -⟩ := hall arr harr
    rw [h.acpDataToStrings_none h₀ hr] at hrun
    cases hrun
  | some vs =>
    have hrun (arr : List V) (harr : Ok arr) : ∃ list,
        acpDataToStrings read store n buf (defServerList arr) = some list ∧
          strings list = vs.map f := by
      obtain ⟨item, hitem, hholds⟩ := h.acpDataToStrings_some h₀ hr (defServerList arr) [] rfl
        (hok arr harr) (by simpa using hcap vs hr)
      exact ⟨_, hitem, hs item vs _ hholds (hcap vs hr)⟩
    rw [Option.some.injEq]
    constructor
    · intro hall
      obtain ⟨list, hlist, hstr⟩ := hall arr harr
      obtain ⟨list', hlist', hstr'⟩ := hrun arr harr
      cases hlist.symm.trans hlist'
      exact hf.list_map (hstr'.symm.trans hstr)
    · rintro rfl
      exact hrun

theorem stringsS1_holds {cap : ℕ} {item : List UInt8} {vs : List (List UInt8)} (m : ℕ)
    (h : HoldsS1 cap item vs) : stringsS1 ⟨item, vs.length, m⟩ = vs.map some := by
  refine List.ext_getElem (by simp [stringsS1, Sendto.s1Fields]) fun k hk _ => ?_
  have hlt : k < vs.length := by simpa [stringsS1, Sendto.s1Fields] using hk
  simpa [stringsS1, Sendto.s1Fields] using (h.2 k _ (List.getElem?_eq_getElem hlt)).2

theorem stringsS2_holds {cap : ℕ} {item : List Sendto.S2} {vs : List (List UInt8 × List UInt8)}
    (m : ℕ) (h : HoldsS2 cap item vs) (hcap : vs.length ≤ cap) :
    stringsS2 ⟨item, vs.length, m⟩ = vs.map fun w => (some w.1, some w.2) := by
  have hroom : vs.length ≤ item.length := h.1 ▸ hcap
  refine List.ext_getElem (by simp [stringsS2, hroom]) fun k hk _ => ?_
  have hlt : k < vs.length := by
    rw [stringsS2, List.length_map, List.length_take, Nat.lt_min] at hk
    exact hk.1
  obtain ⟨-, -, i, hi, hs₀, hs₁⟩ := h.2.2 k _ (List.getElem?_eq_getElem hlt)
  obtain ⟨_, hi⟩ := List.getElem?_eq_some_iff.mp hi
  simp [stringsS2, hi, hs₀, hs₁]

theorem decodesToS1_iff {x : List UInt8} (h₀ : 0 ∉ x) (ws : List (List UInt8)) :
    DecodesToS1 ws x ↔ readChecked scanS1 acpBufnrow (blockRows x * LINE_SIZE) x = some ws := by
  rw [← (decodes_S1 (blockRows x)).decodes_iff stringsS1 (Option.some_injective _)
    (fun arr => arr.length = blockRows x * LINE_SIZE) h₀ (fun arr harr => ⟨harr, by simp⟩)
    ⟨List.replicate _ 0, List.length_replicate⟩
    (fun vs hvs => (length_scanS1_le hvs).trans (blockRows_eq h₀).ge)
    fun item vs m hh _ => stringsS1_holds m hh]
  refine forall₂_congr fun arr harr => ?_
  rw [← harr]
  rfl

theorem decodesToS2_iff {x : List UInt8} (h₀ : 0 ∉ x) (ws : List (List UInt8 × List UInt8)) :
    DecodesToS2 ws x ↔ readChecked scanS2 acpBufnrow (blockRows x) x = some ws := by
  have hf : Function.Injective fun w : List UInt8 × List UInt8 => (some w.1, some w.2) := by
    intro v w h
    simpa [Prod.ext_iff] using h
  rw [← (decodes_S2 (blockRows x)).decodes_iff stringsS2 hf
    (fun arr => arr.length = blockRows x ∧
      ∀ i ∈ arr, i.p0.length = LINE_SIZE ∧ i.p1.length = LINE_SIZE) h₀
    (fun arr harr => ⟨harr.1, harr.2, by simp⟩)
    ⟨List.replicate _ ⟨lineBuf, lineBuf⟩, List.length_replicate, fun i hi => by
      rw [(List.mem_replicate.mp hi).2]
      exact ⟨List.length_replicate, List.length_replicate⟩⟩
    (fun vs => length_readChecked_le) fun item vs m hh hcap => stringsS2_holds m hh hcap]
  unfold DecodesToS2
  simp only [and_imp]
  refine forall₂_congr fun arr harr => ?_
  rw [← harr]
  rfl

/-- A string without the delimiters of rows, columns and blocks. -/
def IsPlain (s : List UInt8) : Prop :=
  ACP_DELIMITER_COLUMN ∉ s ∧ ACP_DELIMITER_ROW ∉ s ∧ ACP_DELIMITER_BLOCK ∉ s

instance (s : List UInt8) : Decidable (IsPlain s) := inferInstanceAs (Decidable (_ ∧ _))

/-- The row of a pair, without its newline. -/
def rowS2 (w : List UInt8 × List UInt8) : List UInt8 := w.1 ++ ACP_DELIMITER_COLUMN :: w.2

theorem rows_plain {row : W → List UInt8} {ws : List W} {b : UInt8} (hb : b ≠ ACP_DELIMITER_ROW)
    (h : ∀ w ∈ ws, b ∉ row w) : ∀ q ∈ ws.map fun w => row w ++ [ACP_DELIMITER_ROW], b ∉ q := by
  intro q hq hm
  obtain ⟨w, hw, rfl⟩ := List.mem_map.mp hq
  rcases List.mem_append.mp hm with hm | hm
  · exact h w hw hm
  · exact hb (List.mem_singleton.mp hm)

theorem decodesToS1_cutRows {ws : List (List UInt8)} (h₀ : ∀ w ∈ ws, 0 ∉ w)
    (hplain : ∀ w ∈ ws, IsPlain w) :
    DecodesToS1 ws (cutRows (ws.map fun w => w ++ [ACP_DELIMITER_ROW])) ↔
      ∀ w ∈ ws, w.length + 1 < LINE_SIZE := by
  have hx : 0 ∉ cutRows (ws.map fun w => w ++ [ACP_DELIMITER_ROW]) := by
    intro hm
    obtain ⟨q, hq, hb⟩ := mem_cutRows hm
    exact rows_plain (by decide) h₀ q hq hb
  rw [decodesToS1_iff hx, blockRows_eq hx]
  refine readChecked_cutRows_iff (fun w => w) (fun w hw hl t => ?_)
    (fun w hw => (hplain w hw).2) rfl (Nat.le_mul_of_pos_right _ (by decide))
    fun vs hvs => length_scanS1_le hvs
  exact scanS1_row (by omega) (hplain w hw).2.1 t

theorem not_mem_rowS2 {w : List UInt8 × List UInt8} {b : UInt8} (hb : b ≠ ACP_DELIMITER_COLUMN)
    (h₁ : b ∉ w.1) (h₂ : b ∉ w.2) : b ∉ rowS2 w := by
  simp [rowS2, hb, h₁, h₂]

theorem decodesToS2_cutRows {ws : List (List UInt8 × List UInt8)}
    (h₀ : ∀ w ∈ ws, 0 ∉ w.1 ∧ 0 ∉ w.2) (hplain : ∀ w ∈ ws, IsPlain w.1 ∧ IsPlain w.2) :
    DecodesToS2 ws (cutRows (ws.map fun w => rowS2 w ++ [ACP_DELIMITER_ROW])) ↔
      ∀ w ∈ ws, (rowS2 w).length + 1 < LINE_SIZE := by
  have hx : 0 ∉ cutRows (ws.map fun w => rowS2 w ++ [ACP_DELIMITER_ROW]) := by
    intro hm
    obtain ⟨q, hq, hb⟩ := mem_cutRows hm
    exact rows_plain (by decide) (fun w hw => not_mem_rowS2 (by decide) (h₀ w hw).1 (h₀ w hw).2)
      q hq hb
  have hrow : ∀ w ∈ ws, ACP_DELIMITER_ROW ∉ rowS2 w ∧ ACP_DELIMITER_BLOCK ∉ rowS2 w := by
    intro w hw
    obtain ⟨⟨-, hr₁, hb₁⟩, -, hr₂, hb₂⟩ := hplain w hw
    exact ⟨not_mem_rowS2 (by decide) hr₁ hr₂, not_mem_rowS2 (by decide) hb₁ hb₂⟩
  rw [decodesToS2_iff hx, blockRows_eq hx]
  refine readChecked_cutRows_iff rowS2 (fun w hw hl t => ?_) hrow rfl le_rfl
    fun vs hvs => length_readChecked_le hvs
  have hl' : w.1.length + (w.2.length + 1) + 1 < LINE_SIZE := by simpa [rowS2] using hl
  exact scanS2_row (by omega) (by omega) (hplain w hw).1.1 (hplain w hw).2.1 (hrow w hw).1 t

/-- A list of strings is sent whole or not at all if and only if its rows do not fit into the data
field, so that nothing is sent, or each row fits with its newline and a NUL into the `LINE_SIZE`
bytes that `snprintf` writes to. -/
theorem string_rows_whole {cmd : List UInt8} (hc₀ : 0 ∉ cmd) (hc₁ : ACP_DELIMITER_BLOCK ∉ cmd)
    (hcl : cmd.length < ACP_COMMAND_MAX_SIZE) (request : ACPRequest) (id : UInt32)
    (sendto : List UInt8 → ℤ) :
    (∀ item length strs, (Sendto.s1Fields item length).map cString = strs.map some →
      (∀ s ∈ strs, IsPlain s) →
      (WholeOrNothing (DecodesToS1 strs)
          (Sendto.acpRequestSendS1List cmd item length request id sendto) ↔
        Sendto.RowsOverflow (strs.map fun s => s ++ [ACP_DELIMITER_ROW]) ∨
          ∀ s ∈ strs, s.length + 1 < LINE_SIZE)) ∧
    ∀ (data : List Sendto.S2) (pairs : List (List UInt8 × List UInt8)),
      data.map (fun i => (cString i.p0, cString i.p1)) = pairs.map (fun w => (some w.1, some w.2)) →
      (∀ w ∈ pairs, IsPlain w.1 ∧ IsPlain w.2) →
      (WholeOrNothing (DecodesToS2 pairs) (Sendto.acpRequestSendS2List cmd data request id sendto) ↔
        Sendto.RowsOverflow (pairs.map fun w => rowS2 w ++ [ACP_DELIMITER_ROW]) ∨
          ∀ w ∈ pairs, (rowS2 w).length + 1 < LINE_SIZE) := by
  constructor
  · intro item length strs hstrs hplain
    -- what was read up to a NUL has none
    have h₀ : ∀ s ∈ strs, 0 ∉ s := by
      intro s hs
      have hmem : some s ∈ (Sendto.s1Fields item length).map cString := by
        rw [hstrs]
        exact List.mem_map_of_mem hs
      obtain ⟨a, -, ha⟩ := List.mem_map.mp hmem
      exact Sendto.not_mem_cString ha
    have hrows : (Sendto.s1Fields item length).map Sendto.fmtS1 =
        (strs.map fun s => s ++ [ACP_DELIMITER_ROW]).map some := by
      have h := congrArg (List.map (Option.map fun s => s ++ [ACP_DELIMITER_ROW])) hstrs
      rw [List.map_map, List.map_map] at h
      rw [List.map_map]
      exact h
    rw [← decodesToS1_cutRows h₀ hplain]
    exact wholeOrNothing_iff hrows (rows_plain (by decide) h₀)
      (rows_plain (by decide) fun s hs => (hplain s hs).2.2) hc₀ hc₁ hcl request id sendto
  · intro data pairs hpairs hplain
    have hmem (w : List UInt8 × List UInt8) (hw : w ∈ pairs) : 0 ∉ w.1 ∧ 0 ∉ w.2 := by
      have hmem : (some w.1, some w.2) ∈ data.map fun i => (cString i.p0, cString i.p1) := by
        rw [hpairs]
        exact List.mem_map_of_mem hw
      obtain ⟨i, -, hi⟩ := List.mem_map.mp hmem
      obtain ⟨h₁, h₂⟩ := Prod.ext_iff.mp hi
      exact ⟨Sendto.not_mem_cString h₁, Sendto.not_mem_cString h₂⟩
    have hrows : data.map Sendto.fmtS2 =
        (pairs.map fun w => rowS2 w ++ [ACP_DELIMITER_ROW]).map some := by
      have h := congrArg (List.map fun p : Option (List UInt8) × Option (List UInt8) =>
        p.1.bind fun p0 => p.2.map fun p1 => rowS2 (p0, p1) ++ [ACP_DELIMITER_ROW]) hpairs
      rw [List.map_map, List.map_map] at h
      rw [List.map_map]
      exact h
    rw [← decodesToS2_cutRows hmem hplain]
    exact wholeOrNothing_iff hrows
      (rows_plain (by decide) fun w hw => not_mem_rowS2 (by decide) (hmem w hw).1 (hmem w hw).2)
      (rows_plain (by decide) fun w hw =>
        not_mem_rowS2 (by decide) (hplain w hw).1.2.2 (hplain w hw).2.2.2)
      hc₀ hc₁ hcl request id sendto

/-- The last theorem for a list of one string and one of a pair. -/
theorem string_rows_whole_example :
    (WholeOrNothing (DecodesToS1 [[97]])
        (Sendto.acpRequestSendS1List [115, 116] (97 :: lineBuf.tail) 1 blankRequest 7 sendtoAll) ↔
      Sendto.RowsOverflow ([[97]].map fun s => s ++ [ACP_DELIMITER_ROW]) ∨
        ∀ s ∈ ([[97]] : List (List UInt8)), s.length + 1 < LINE_SIZE) ∧
    (WholeOrNothing (DecodesToS2 [([97], [98])])
        (Sendto.acpRequestSendS2List [115, 116] [⟨97 :: lineBuf.tail, 98 :: lineBuf.tail⟩]
          blankRequest 7 sendtoAll) ↔
      Sendto.RowsOverflow ([([97], [98])].map fun w => rowS2 w ++ [ACP_DELIMITER_ROW]) ∨
        ∀ w ∈ [(([97], [98]) : List UInt8 × List UInt8)], (rowS2 w).length + 1 < LINE_SIZE) :=
  have h := string_rows_whole (show (0 : UInt8) ∉ [115, 116] by decide) (by decide) (by decide)
    blankRequest 7 sendtoAll
  ⟨h.1 (97 :: lineBuf.tail) 1 [[97]] (by decide) (by decide),
    h.2 [⟨97 :: lineBuf.tail, 98 :: lineBuf.tail⟩] [([97], [98])] (by decide) (by decide)⟩

/-- A string of 255 bytes: its row is sent without the newline, so it is no row for the decoder. -/
theorem long_string_lost :
    ¬WholeOrNothing (DecodesToS1 [List.replicate 255 97])
      (Sendto.acpRequestSendS1List [115, 116] (List.replicate 255 97 ++ [0]) 1 blankRequest 7
        sendtoAll) := by
  have hrows : (Sendto.s1Fields (List.replicate 255 97 ++ [0]) 1).map Sendto.fmtS1 =
      ([List.replicate 255 97].map fun s => s ++ [ACP_DELIMITER_ROW]).map some := by
    decide +kernel
  have h₀ : ∀ w ∈ [List.replicate 255 97], (0 : UInt8) ∉ w := by decide +kernel
  have hplain : ∀ w ∈ [List.replicate 255 97], IsPlain w := by decide +kernel
  have hsent := wholeOrNothing_iff (P := DecodesToS1 [List.replicate 255 97]) hrows
    (rows_plain (by decide) h₀) (rows_plain (by decide) fun s hs => (hplain s hs).2.2)
    (show (0 : UInt8) ∉ [115, 116] by decide) (by decide) (by decide) blankRequest 7 sendtoAll
  intro h
  rcases hsent.mp h with hover | hd
  · exact absurd hover (by decide +kernel)
  · exact absurd ((decodesToS1_cutRows h₀ hplain).mp hd) (by decide +kernel)

end Regonf
