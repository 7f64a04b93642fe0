import Regonf.AcpStringsStore

/-! Which data blocks the decoders of strings store within their arrays. -/
namespace Regonf

open Blocks Rows

/-- No string of a row that a decoder comes to fills its array: `fields` are the strings of the
row at the front of a text, and `stored` says that the decoder goes on behind it. -/
def FieldsFit (fields : List UInt8 → List (List UInt8)) (stored : List UInt8 → Prop) (n : ℕ)
    (buf : List UInt8) : Prop :=
  ∀ i < n, (∀ j < i, stored (acpBufnrow^[j] buf)) →
    ∀ w ∈ fields (acpBufnrow^[i] buf), w.length < LINE_SIZE

def fieldsS1 (t : List UInt8) : List (List UInt8) := [block ACP_DELIMITER_ROW 0 t]

def fieldsI1S1 (t : List UInt8) : List (List UInt8) := [rowWord t]

def fieldsS2 (t : List UInt8) : List (List UInt8) :=
  [block ACP_DELIMITER_COLUMN 0 (block ACP_DELIMITER_ROW 0 t),
    block ACP_DELIMITER_COLUMN 1 (block ACP_DELIMITER_ROW 0 t)]

/-- Every string that is stored ends within its array of `LINE_SIZE` bytes, and there are not more
items than newlines in the block. -/
def S1Fits (buf : List UInt8) (list : S1List) : Prop :=
  ∃ list', acpDataToS1List buf list = some list' ∧
    list'.length ≤ buf.count ACP_DELIMITER_ROW ∧
    ∀ p ∈ Sendto.s1Fields list'.item list'.length, ∃ s, cString p = some s ∧ s.length < LINE_SIZE

def I1S1Fits (buf : List UInt8) (list : I1S1List) : Prop :=
  ∃ list', acpDataToI1S1List buf list = some list' ∧
    list'.length ≤ buf.count ACP_DELIMITER_ROW ∧
    ∀ i ∈ list'.item.take list'.length, ∃ s, cString i.p1 = some s ∧ s.length < LINE_SIZE

def S2Fits (buf : List UInt8) (list : S2List) : Prop :=
  ∃ list', acpDataToS2List buf list = some list' ∧
    list'.length ≤ buf.count ACP_DELIMITER_ROW ∧
    ∀ i ∈ list'.item.take list'.length, ∃ s₀ s₁, cString i.p0 = some s₀ ∧
      s₀.length < LINE_SIZE ∧ cString i.p1 = some s₁ ∧ s₁.length < LINE_SIZE

theorem countDataRows_append_zeros {buf : List UInt8} (h₀ : 0 ∉ buf) (k : ℕ) :
    countDataRows (buf ++ List.replicate k 0) = buf.count ACP_DELIMITER_ROW := by
  induction buf with
  | nil => exact countDataRows_zeros k
  | cons b buf ih =>
    obtain ⟨hb, h₀⟩ := not_or.mp (mt List.mem_cons.mpr h₀)
    rw [List.cons_append, countDataRows, if_neg (Ne.symm hb), ih h₀, List.count_cons]
    simp

/-- What `acp_countDataRows` finds in the data field that holds a block. -/
def blockRows (buf : List UInt8) : ℕ := countDataRows (field ACP_DATA_MAX_SIZE buf)

theorem blockRows_eq {buf : List UInt8} (h₀ : 0 ∉ buf) :
    blockRows buf = buf.count ACP_DELIMITER_ROW := countDataRows_append_zeros h₀ _

/-- A row that is stored takes a newline of the block. -/
theorem count_acpBufnrow_lt {t : List UInt8} (h : ACP_DELIMITER_ROW ∈ t) :
    (acpBufnrow t).count ACP_DELIMITER_ROW < t.count ACP_DELIMITER_ROW := by
  obtain ⟨r, u, hr, rfl⟩ := (block_cases ACP_DELIMITER_ROW t).resolve_left (not_not_intro h)
  rw [acpBufnrow_row hr, List.count_append, List.count_cons_self]
  split_ifs
  · simp
  · omega

theorem isSome_iff_fieldsFit {W : Type*} {scan : List UInt8 → Option (Option W)}
    {fields : List UInt8 → List (List UInt8)} {stored : List UInt8 → Prop}
    (hfail : ∀ t, scan t = none ↔ ¬∀ w ∈ fields t, w.length < LINE_SIZE)
    (hitem : ∀ t v, scan t = some v → (v.isSome ↔ stored t)) (n : ℕ) (buf : List UInt8) :
    (readChecked scan acpBufnrow n buf).isSome ↔ FieldsFit fields stored n buf :=
  readChecked_isSome_iff hfail hitem n buf

theorem isSome_scanS1 (n : ℕ) (buf : List UInt8) :
    (readChecked scanS1 acpBufnrow n buf).isSome ↔
      FieldsFit fieldsS1 (ACP_DELIMITER_ROW ∈ ·) n buf := by
  refine isSome_iff_fieldsFit (fun t => ?_) (fun t v hv => ?_) n buf
  · unfold scanS1 fieldsS1
    dsimp only
    rw [List.forall_mem_singleton]
    split_ifs with hl hr <;> simp [hl]
  · unfold scanS1 at hv
    dsimp only at hv
    split_ifs at hv with hl hr <;> cases hv <;> simp [hr]

theorem isSome_scanI1S1 (n : ℕ) (buf : List UInt8) :
    (readChecked scanI1S1 acpBufnrow n buf).isSome ↔
      FieldsFit fieldsI1S1 (rowWord · ≠ []) n buf := by
  refine isSome_iff_fieldsFit (fun t => ?_) (fun t v hv => ?_) n buf
  · unfold scanI1S1 fieldsI1S1
    rw [List.forall_mem_singleton]
    split_ifs with hl hr <;> simp [hl]
  · unfold scanI1S1 at hv
    split_ifs at hv with hl hr
    · cases hv
      simp [hr]
    · obtain ⟨p0, hs⟩ := scanInt_isSome hr
      rw [hs] at hv
      cases hv
      simp [hr]

theorem isSome_scanS2 (n : ℕ) (buf : List UInt8) :
    (readChecked scanS2 acpBufnrow n buf).isSome ↔
      FieldsFit fieldsS2 (fun t => ACP_DELIMITER_COLUMN ∈ block ACP_DELIMITER_ROW 0 t) n buf := by
  refine isSome_iff_fieldsFit (fun t => ?_) (fun t v hv => ?_) n buf
  · unfold scanS2 fieldsS2
    dsimp only
    rw [List.forall_mem_cons, List.forall_mem_singleton]
    split_ifs with hl₀ hc hl₁
    · simp [hl₀]
    · simp [hl₁]
    · simp [not_le.mp hl₀, not_le.mp hl₁]
    · -- a row without a tab has no second column
      have hnil : block ACP_DELIMITER_COLUMN 1 (block ACP_DELIMITER_ROW 0 t) = [] := by
        rw [block.eq_2, dropWhile_ne_self hc, List.tail_nil, block_nil]
      rw [hnil]
      exact iff_of_false (by simp) (not_not_intro ⟨not_le.mp hl₀, by decide⟩)
  · unfold scanS2 at hv
    dsimp only at hv
    split_ifs at hv with hl₀ hc hl₁ <;> cases hv <;> simp [hc]

section
variable {V W L : Type*} {read : List UInt8 → Option (Option (L × List UInt8))}
  {store : L → ItemList V → Option (List V)} {scan : List UInt8 → Option (Option W)}
  {Holds : List V → List W → Prop} {cap : ℕ}

/-- A decoder has a result exactly when no string fills its array, and then its items hold the
strings that were read. -/
theorem Decodes.exists_iff (h : Decodes read store scan Holds cap) {P : ItemList V → Prop} {n : ℕ}
    {buf : List UInt8} (h₀ : 0 ∉ buf) {arr : List V} (harr : Holds arr [])
    (hcap : ∀ vs, readChecked scan acpBufnrow n buf = some vs → vs.length ≤ cap)
    (hP : ∀ item vs, readChecked scan acpBufnrow n buf = some vs → Holds item vs →
      P ⟨item, vs.length, arr.length⟩) :
    (∃ list, acpDataToStrings read store n buf (defServerList arr) = some list ∧ P list) ↔
      (readChecked scan acpBufnrow n buf).isSome := by
  cases hr : readChecked scan acpBufnrow n buf with
  | none =>
    rw [h.acpDataToStrings_none h₀ hr]
    simp
  | some vs =>
    obtain ⟨item, hrun, hholds⟩ := h.acpDataToStrings_some h₀ hr (defServerList arr) [] rfl harr
      (by simpa using hcap vs hr)
    exact iff_of_true ⟨_, hrun, hP item vs hr hholds⟩ rfl

end

/-- The rows that `acp_dataToS1List` takes are rows that end with a newline. -/
theorem length_scanS1_le {n : ℕ} {buf : List UInt8} {vs : List (List UInt8)}
    (h : readChecked scanS1 acpBufnrow n buf = some vs) :
    vs.length ≤ buf.count ACP_DELIMITER_ROW := by
  refine length_readChecked_le_of_lt (List.count ACP_DELIMITER_ROW) (fun t v ht => ?_) h
  unfold scanS1 at ht
  dsimp only at ht
  split_ifs at ht with hl hr
  · exact count_acpBufnrow_lt hr
  · cases ht

/-- The items of a list that a decoder has filled. -/
theorem getElem?_take {α : Type*} {l : List α} {n : ℕ} {a : α} (h : a ∈ l.take n) :
    ∃ k < n, l[k]? = some a := by
  obtain ⟨k, hk, rfl⟩ := List.getElem_of_mem h
  rw [List.length_take, Nat.lt_min] at hk
  exact ⟨k, hk.1, by rw [List.getElem_take, List.getElem?_eq_getElem hk.2]⟩

/-- The strings that the decoders store fit into their arrays, and there are not more items than
newlines, if and only if no row that a decoder comes to has a string of `LINE_SIZE` bytes or more:
the row itself, the word behind its number, or one of its first two columns. The arrays are those of
the macros `DEF_SERVER_S1LIST`, `DEF_SERVER_I1S1LIST` and `DEF_SERVER_S2LIST`. -/
theorem strings_fit_iff {buf : List UInt8} (h₀ : 0 ∉ buf) :
    (∀ arr : List UInt8, arr.length = blockRows buf * LINE_SIZE →
      (S1Fits buf (defServerList arr) ↔
        FieldsFit fieldsS1 (ACP_DELIMITER_ROW ∈ ·) arr.length buf)) ∧
    (∀ arr : List I1S1, arr.length = blockRows buf → (∀ i ∈ arr, i.p1.length = LINE_SIZE) →
      (I1S1Fits buf (defServerList arr) ↔
        FieldsFit fieldsI1S1 (rowWord · ≠ []) arr.length buf)) ∧
    (∀ arr : List Sendto.S2, arr.length = blockRows buf →
      (∀ i ∈ arr, i.p0.length = LINE_SIZE ∧ i.p1.length = LINE_SIZE) →
      (S2Fits buf (defServerList arr) ↔
        FieldsFit fieldsS2 (fun t => ACP_DELIMITER_COLUMN ∈ block ACP_DELIMITER_ROW 0 t)
          arr.length buf)) := by
  rw [blockRows_eq h₀]
  refine ⟨fun arr harr => ?_, fun arr harr hsize => ?_, fun arr harr hsize => ?_⟩
  · rw [← isSome_scanS1]
    refine (decodes_S1 _).exists_iff h₀ ⟨harr, by simp⟩ (fun vs => length_scanS1_le)
      fun item vs hvs hh => ⟨length_scanS1_le hvs, fun p hp => ?_⟩
    obtain ⟨k, hk, rfl⟩ := List.mem_map.mp hp
    obtain ⟨hl, hs⟩ := hh.2 k _ (List.getElem?_eq_getElem (List.mem_range.mp hk))
    exact ⟨_, hs, hl⟩
  -- the other two lists have room for one item for each newline
  · rw [← isSome_scanI1S1]
    refine (decodes_I1S1 arr.length).exists_iff h₀ ⟨rfl, hsize, by simp⟩
      (fun vs => length_readChecked_le)
      fun item vs hvs hh => ⟨harr ▸ length_readChecked_le hvs, fun i hi => ?_⟩
    obtain ⟨k, hk, hki⟩ := getElem?_take hi
    obtain ⟨hl, i', hi', -, hs⟩ := hh.2.2 k _ (List.getElem?_eq_getElem hk)
    cases hki.symm.trans hi'
    exact ⟨_, hs, hl⟩
  · rw [← isSome_scanS2]
    refine (decodes_S2 arr.length).exists_iff h₀ ⟨rfl, hsize, by simp⟩
      (fun vs => length_readChecked_le)
      fun item vs hvs hh => ⟨harr ▸ length_readChecked_le hvs, fun i hi => ?_⟩
    obtain ⟨k, hk, hki⟩ := getElem?_take hi
    obtain ⟨hl₀, hl₁, i', hi', hs₀, hs₁⟩ := hh.2.2 k _ (List.getElem?_eq_getElem hk)
    cases hki.symm.trans hi'
    exact ⟨_, _, hs₀, hl₀, hs₁, hl₁⟩

/-- The last theorem for a row with a number and a word, and room for one item. -/
theorem strings_fit_iff_example :
    I1S1Fits [49, 9, 97, 10] (defServerList [⟨0, lineBuf⟩]) ↔
      FieldsFit fieldsI1S1 (rowWord · ≠ []) 1 [49, 9, 97, 10] :=
  (strings_fit_iff (by decide)).2.1 [⟨0, lineBuf⟩] (by decide)
    (by simp [lineBuf])

/-- A word, a row and a first column of 256 bytes: the NUL would be behind the array. -/
theorem long_strings_overflow :
    ¬I1S1Fits ([49, 9] ++ List.replicate 256 97 ++ [10]) (defServerList [⟨0, lineBuf⟩]) ∧
    ¬S1Fits (List.replicate 256 97 ++ [10]) (defServerList lineBuf) ∧
    ¬S2Fits (List.replicate 256 97 ++ [9, 98, 10]) (defServerList [⟨lineBuf, lineBuf⟩]) := by
  have h₁ : acpDataToI1S1List ([49, 9] ++ List.replicate 256 97 ++ [10])
      (defServerList [⟨0, lineBuf⟩]) = none :=
    (decodes_I1S1 1).acpDataToStrings_none (by decide +kernel) (by decide +kernel) _
  have h₂ : acpDataToS1List (List.replicate 256 97 ++ [10]) (defServerList lineBuf) = none :=
    (decodes_S1 1).acpDataToStrings_none (by decide +kernel) (by decide +kernel) _
  have h₃ : acpDataToS2List (List.replicate 256 97 ++ [9, 98, 10])
      (defServerList [⟨lineBuf, lineBuf⟩]) = none :=
    (decodes_S2 1).acpDataToStrings_none (by decide +kernel) (by decide +kernel) _
  refine ⟨?_, ?_, ?_⟩
  · rintro ⟨_, h, -⟩
    cases h₁.symm.trans h
  · rintro ⟨_, h, -⟩
    cases h₂.symm.trans h
  · rintro ⟨_, h, -⟩
    cases h₃.symm.trans h

end Regonf
