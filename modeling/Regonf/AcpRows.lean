import Regonf.AcpScan
import Regonf.Lib.Rows

/-! The row decoders `acp_dataTo*List`, and when they keep to the rows of the data block. -/
namespace Regonf

open Rows

variable {R V : Type*}

/-- `I2`, `I1F1` and `I1U321`: an `int` and a second column. -/
structure I1X (V : Type*) where
  p0 : ℤ
  p1 : V
deriving DecidableEq, Repr

abbrev I2 := I1X ℤ
abbrev I1F1 (R : Type*) := I1X R
abbrev I1U321 := I1X UInt32

def sscanfI1 (s : List UInt8) : Option ℤ := (scanInt s).map (·.1)

/-- The `sscanf` of `%d`, a tab and a second conversion. -/
def sscanfI1X (conv : List UInt8 → Option (V × List UInt8)) (s : List UInt8) : Option (I1X V) :=
  (scanInt s).bind fun p0 => (conv p0.2).map fun p1 => ⟨p0.1, p1.1⟩

def acpDataToI1List : ℕ → List UInt8 → List ℤ := acpDataToList sscanfI1

def acpDataToI2List : ℕ → List UInt8 → List I2 := acpDataToList (sscanfI1X scanInt)

def acpDataToI1F1List (scanF : List UInt8 → Option (R × List UInt8)) :
    ℕ → List UInt8 → List (I1F1 R) := acpDataToList (sscanfI1X scanF)

def acpDataToI1U321List : ℕ → List UInt8 → List I1U321 := acpDataToList (sscanfI1X scanUInt)

/-- A column is a number without blanks that its conversion reads to the end. -/
def column (conv : List UInt8 → Option (V × List UInt8)) (c : List UInt8) : Option V :=
  if c.head?.any isspace then none
  else (conv c).bind fun r => if r.2 = [] then some r.1 else none

theorem column_some {conv : List UInt8 → Option (V × List UInt8)} {c : List UInt8} {v : V}
    (h : column conv c = some v) : conv c = some (v, []) := by
  unfold column at h
  split_ifs at h
  obtain ⟨⟨w, t⟩, hr, hv⟩ := Option.bind_eq_some_iff.mp h
  dsimp only at hv
  split_ifs at hv with ht
  cases hv
  rw [hr, ht]

theorem column_space (conv : List UInt8 → Option (V × List UInt8)) {b : UInt8}
    (hb : isspace b = true) (c : List UInt8) : column conv (b :: c) = none :=
  if_pos (by simpa using hb)

/-- The row of `acp_dataToI1List`. -/
def rowI1 (r : List UInt8) : Option ℤ := column scanInt r

/-- The row of two columns. -/
def rowI1X (conv : List UInt8 → Option (V × List UInt8)) (r : List UInt8) : Option (I1X V) :=
  match r.splitOn ACP_DELIMITER_COLUMN with
  | [c₀, c₁] => (column scanInt c₀).bind fun p0 => (column conv c₁).map fun p1 => ⟨p0, p1⟩
  | _ => none

/-- The row of `acp_dataToFTSList`. -/
def rowFTS (scanF : List UInt8 → Option (R × List UInt8)) (r : List UInt8) : Option (FTS R) :=
  match r.splitOn ACP_DELIMITER_COLUMN with
  | [c₀, c₁, c₂, c₃, c₄] =>
    (column scanInt c₀).bind fun id => (column scanF c₁).bind fun value =>
      (column scanLong c₂).bind fun sec => (column scanLong c₃).bind fun nsec =>
        (column scanInt c₄).map fun state =>
          { id := id, value := value, tm := ⟨sec, nsec⟩, state := state }
  | _ => none

/-- The columns behind the first begin with the tab, which the conversion skips. -/
theorem Conversion.next {conv : List UInt8 → Option (V × List UInt8)} (h : Conversion conv)
    {c e : List UInt8} {v : V} (hc : column conv c = some v) (he : ColumnEnd e) :
    conv (ACP_DELIMITER_COLUMN :: (c ++ e)) = some (v, e) := by
  rw [h.space (by decide), h.stop (column_some hc) he]

theorem eq_of_splitOn {r : List UInt8} {d : UInt8} {cs : List (List UInt8)}
    (h : r.splitOn d = cs) : r = [d].intercalate cs := by
  have hr : [d].intercalate (r.splitOn d) = r := List.intercalate_splitOn d
  rw [← hr, h]

theorem sscanfI1_row {r e : List UInt8} {v : ℤ} (h : rowI1 r = some v) (he : ColumnEnd e) :
    sscanfI1 (r ++ e) = some v := by
  rw [sscanfI1, conversion_scanInt.stop (column_some h) he]
  rfl

theorem sscanfI1X_row {conv : List UInt8 → Option (V × List UInt8)} (hconv : Conversion conv)
    {r e : List UInt8} {v : I1X V} (h : rowI1X conv r = some v) (he : ColumnEnd e) :
    sscanfI1X conv (r ++ e) = some v := by
  unfold rowI1X at h
  split at h
  · rename_i c₀ c₁ hs
    obtain ⟨p0, h₀, h⟩ := Option.bind_eq_some_iff.mp h
    obtain ⟨p1, h₁, rfl⟩ := Option.map_eq_some_iff.mp h
    have hr : r = c₀ ++ ACP_DELIMITER_COLUMN :: c₁ := by
      rw [eq_of_splitOn hs]
      simp
    rw [hr, List.append_assoc, List.cons_append, sscanfI1X,
      conversion_scanInt.stop (column_some h₀) (columnEnd_column _), Option.bind_some,
      hconv.next h₁ he]
    rfl
  · cases h

theorem sscanfFTS_row {scanF : List UInt8 → Option (R × List UInt8)} (hF : Conversion scanF)
    {r e : List UInt8} {v : FTS R} (h : rowFTS scanF r = some v) (he : ColumnEnd e) :
    sscanfFTS scanF (r ++ e) = some v := by
  unfold rowFTS at h
  split at h
  · rename_i c₀ c₁ c₂ c₃ c₄ hs
    obtain ⟨id, h₀, h⟩ := Option.bind_eq_some_iff.mp h
    obtain ⟨value, h₁, h⟩ := Option.bind_eq_some_iff.mp h
    obtain ⟨sec, h₂, h⟩ := Option.bind_eq_some_iff.mp h
    obtain ⟨nsec, h₃, h⟩ := Option.bind_eq_some_iff.mp h
    obtain ⟨state, h₄, rfl⟩ := Option.map_eq_some_iff.mp h
    have hr : r ++ e = c₀ ++ ACP_DELIMITER_COLUMN :: (c₁ ++ ACP_DELIMITER_COLUMN ::
        (c₂ ++ ACP_DELIMITER_COLUMN :: (c₃ ++ ACP_DELIMITER_COLUMN :: (c₄ ++ e)))) := by
      rw [eq_of_splitOn hs]
      simp
    rw [hr, sscanfFTS, conversion_scanInt.stop (column_some h₀) (columnEnd_column _),
      Option.bind_some, hF.next h₁ (columnEnd_column _), Option.bind_some,
      conversion_scanLong.next h₂ (columnEnd_column _), Option.bind_some,
      conversion_scanLong.next h₃ (columnEnd_column _), Option.bind_some,
      conversion_scanInt.next h₄ he]
    rfl
  · cases h

theorem acpBufnrow_row {r : List UInt8} (hr : ACP_DELIMITER_ROW ∉ r) (t : List UInt8) :
    acpBufnrow (r ++ ACP_DELIMITER_ROW :: t) =
      if t.head? == some ACP_DELIMITER_BLOCK then [] else t := by
  rw [acpBufnrow, Blocks.dropWhile_ne_append hr, List.tail_cons]

theorem acpBufnrow_last {r : List UInt8} (hr : ACP_DELIMITER_ROW ∉ r) : acpBufnrow r = [] := by
  rw [acpBufnrow, Blocks.dropWhile_ne_self hr]
  rfl

/-- A format whose rows are read at the front of a text is read row by row. -/
theorem readsRows {row scan : List UInt8 → Option V} (hnil : row [] = none)
    (hcr : ∀ r, row (ACP_DELIMITER_BLOCK :: r) = none) (hscan : scan [] = none)
    (hrow : ∀ {r v e}, row r = some v → ColumnEnd e → scan (r ++ e) = some v) :
    ReadsRows row scan acpBufnrow ACP_DELIMITER_ROW where
  row_nil := hnil
  scan_nil := hscan
  scan_last {r v} _ h := by simpa using hrow h columnEnd_nil
  scan_row _ h t := hrow h (columnEnd_row t)
  next_last := acpBufnrow_last
  next_row {r} hr t := by
    rw [acpBufnrow_row hr]
    by_cases ht : t.head? = some ACP_DELIMITER_BLOCK
    · obtain ⟨t, rfl⟩ : ∃ u, t = ACP_DELIMITER_BLOCK :: u := by
        cases t with
        | nil => cases ht
        | cons b t => exact ⟨t, by rw [Option.some.inj ht]⟩
      -- the row behind begins with the delimiter of blocks, so it is not well formed
      refine Or.inr ⟨by simp, ?_⟩
      rcases Blocks.block_cases ACP_DELIMITER_ROW (ACP_DELIMITER_BLOCK :: t) with h | ⟨x, u, hx, hu⟩
      · rw [List.splitOn_eq_singleton h, leading_stop (hcr t)]
      · rw [hu, List.splitOn_append_cons_self_of_not_mem hx]
        cases x with
        | nil => cases hu
        | cons b x =>
          obtain ⟨rfl, -⟩ := List.cons.inj hu
          exact leading_stop (hcr x)
    · simp [ht]

/-- The first column of a row that begins with a blank. -/
theorem splitOn_column_cons {b : UInt8} (hb : b ≠ ACP_DELIMITER_COLUMN) (r : List UInt8) :
    ∃ c cs, (b :: r).splitOn ACP_DELIMITER_COLUMN = (b :: c) :: cs := by
  obtain ⟨c, cs, hc⟩ := List.exists_cons_of_ne_nil (List.splitOn_ne_nil ACP_DELIMITER_COLUMN r)
  refine ⟨c, cs, ?_⟩
  rw [List.splitOn_cons_eq_if_modifyHead, if_neg (by simpa using hb), hc]
  rfl

theorem readsRows_I1 : ReadsRows rowI1 sscanfI1 acpBufnrow ACP_DELIMITER_ROW :=
  readsRows rfl (column_space _ (by decide)) rfl sscanfI1_row

theorem readsRows_I1X {conv : List UInt8 → Option (V × List UInt8)} (hconv : Conversion conv) :
    ReadsRows (rowI1X conv) (sscanfI1X conv) acpBufnrow ACP_DELIMITER_ROW := by
  refine readsRows rfl (fun r => ?_) rfl (sscanfI1X_row hconv)
  obtain ⟨c, cs, hc⟩ := splitOn_column_cons (b := ACP_DELIMITER_BLOCK) (by decide) r
  rw [rowI1X, hc]
  split
  · rename_i c₀ c₁ hs
    obtain ⟨rfl, -⟩ := List.cons.inj hs
    rw [column_space _ (by decide)]
    rfl
  · rfl

theorem readsRows_FTS {scanF : List UInt8 → Option (R × List UInt8)} (hF : Conversion scanF) :
    ReadsRows (rowFTS scanF) (sscanfFTS scanF) acpBufnrow ACP_DELIMITER_ROW := by
  refine readsRows rfl (fun r => ?_) rfl (sscanfFTS_row hF)
  obtain ⟨c, cs, hc⟩ := splitOn_column_cons (b := ACP_DELIMITER_BLOCK) (by decide) r
  rw [rowFTS, hc]
  split
  · rename_i c₀ c₁ c₂ c₃ c₄ hs
    obtain ⟨rfl, -⟩ := List.cons.inj hs
    rw [column_space _ (by decide)]
    rfl
  · rfl

/-- Item `i` of the list is row `i` of the block, up to the capacity or the first row that does
not consist of its columns. -/
def RowByRow (row : List UInt8 → Option V) (max_length : ℕ) (buf : List UInt8) (items : List V) :
    Prop :=
  items = (leading row (buf.splitOn ACP_DELIMITER_ROW)).take max_length

/-- The text begins, behind blanks, with an integer, and `Q` holds of what follows it. -/
def IntThen (Q : List UInt8 → Prop) (s : List UInt8) : Prop :=
  ∃ g ds t, BeginsInt g ds t s ∧ Q t

theorem scanInt_none_iff {Q : List UInt8 → Prop} {s : List UInt8} :
    (∀ r, scanInt s = some r → ¬Q r.2) ↔ ¬IntThen Q s := by
  constructor
  · rintro h ⟨g, ds, t, hb, hq⟩
    obtain ⟨v, hv⟩ : ∃ v, scanInt s = some (v, t) := by
      rw [scanInt, scanLong_iff.mpr ⟨g, ds, hb, rfl⟩]
      exact ⟨_, rfl⟩
    exact h _ hv hq
  · rintro h r hr hq
    rw [scanInt, Option.map_eq_some_iff] at hr
    obtain ⟨⟨v, t⟩, hl, rfl⟩ := hr
    obtain ⟨g, ds, hb, -⟩ := scanLong_iff.mp hl
    exact h ⟨g, ds, t, hb, hq⟩

theorem sscanfI1_none_iff {s : List UInt8} :
    sscanfI1 s = none ↔ ¬IntThen (fun _ => True) s := by
  rw [sscanfI1, ← scanInt_none_iff, Option.map_eq_none_iff]
  cases scanInt s <;> simp

theorem sscanfI1X_none_iff {conv : List UInt8 → Option (V × List UInt8)} {s : List UInt8} :
    sscanfI1X conv s = none ↔ ¬IntThen (fun t => conv t ≠ none) s := by
  rw [sscanfI1X, ← scanInt_none_iff, Option.bind_eq_none_iff]
  simp

/-- The rows of a block that are well formed, from the first on. -/
def rowsBefore (row : List UInt8 → Option V) (buf : List UInt8) : ℕ :=
  (leading row (buf.splitOn ACP_DELIMITER_ROW)).length

/-- The decoders keep to the rows of the block exactly when they are full before the first row that
is not well formed, or the text from that row on does not begin, across blanks and line ends, with
the numbers of the format. -/
theorem rows_not_mixed {scanF : List UInt8 → Option (R × List UInt8)} (hF : Conversion scanF)
    (n : ℕ) (buf : List UInt8) :
    (RowByRow rowI1 n buf (acpDataToI1List n buf) ↔
      n ≤ rowsBefore rowI1 buf ∨
        ¬IntThen (fun _ => True) (acpBufnrow^[rowsBefore rowI1 buf] buf)) ∧
    (RowByRow (rowI1X scanInt) n buf (acpDataToI2List n buf) ↔
      n ≤ rowsBefore (rowI1X scanInt) buf ∨
        ¬IntThen (IntThen fun _ => True) (acpBufnrow^[rowsBefore (rowI1X scanInt) buf] buf)) ∧
    (RowByRow (rowI1X scanF) n buf (acpDataToI1F1List scanF n buf) ↔
      n ≤ rowsBefore (rowI1X scanF) buf ∨
        ¬IntThen (fun t => scanF t ≠ none) (acpBufnrow^[rowsBefore (rowI1X scanF) buf] buf)) := by
  -- a second column that is an integer
  have hint : (fun t => scanInt t ≠ none) = IntThen fun _ => True := by
    funext t
    have h := sscanfI1_none_iff (s := t)
    rw [sscanfI1, Option.map_eq_none_iff] at h
    exact propext (not_iff_comm.mp h.symm)
  refine ⟨?_, ?_, ?_⟩
  · rw [← sscanfI1_none_iff]
    exact readsRows_I1.readRows_iff n buf
  · rw [← hint, ← sscanfI1X_none_iff]
    exact (readsRows_I1X conversion_scanInt).readRows_iff n buf
  · rw [← sscanfI1X_none_iff]
    exact (readsRows_I1X hF).readRows_iff n buf

/-- The last theorem for a block whose second row has no second column. -/
theorem rows_not_mixed_example :
    RowByRow (rowI1X scanDecimal) 2 [53, 9, 55, 46, 53, 10, 54, 10]
      (acpDataToI1F1List scanDecimal 2 [53, 9, 55, 46, 53, 10, 54, 10]) := by
  refine (rows_not_mixed conversion_scanDecimal 2 _).2.2.mpr (Or.inr ?_)
  rw [← sscanfI1X_none_iff]
  decide +kernel

/-- A row with one column and a row with two: the first item has its second column from the second
row. -/
theorem short_row_mixed :
    acpDataToI2List 2 [53, 10, 55, 9, 51, 10] = [⟨5, 7⟩, ⟨7, 3⟩] ∧
      ¬RowByRow (rowI1X scanInt) 2 [53, 10, 55, 9, 51, 10]
        (acpDataToI2List 2 [53, 10, 55, 9, 51, 10]) := by
  unfold RowByRow
  decide +kernel

end Regonf
