import Regonf.Lib.Blocks
import Regonf.TsvGrid

/-! The tables that a file can hold, and their round trip. -/
namespace Regonf.Tsv

open Cells

/-- A text that can be the name of a column or a value. -/
def IsCell (cell : List UInt8) : Prop := cell ≠ [] ∧ TAB ∉ cell ∧ NL ∉ cell ∧ 0 ∉ cell

instance (cell : List UInt8) : Decidable (IsCell cell) :=
  inferInstanceAs (Decidable (cell ≠ [] ∧ TAB ∉ cell ∧ NL ∉ cell ∧ 0 ∉ cell))

structure TSVTable where
  names : List (List UInt8)
  rows : List (List (List UInt8))
  names_ne : names ≠ []
  rows_ne : rows ≠ []
  nodup : names.Nodup
  width : ∀ row ∈ rows, row.length = names.length
  isCell_name : ∀ name ∈ names, IsCell name
  isCell : ∀ row ∈ rows, ∀ cell ∈ row, IsCell cell

/-- A line: its cells with tabs between them. -/
def lineText (cells : List (List UInt8)) : List UInt8 := [TAB].intercalate cells ++ [NL]

def TSVTable.text (t : TSVTable) : List UInt8 := lineText t.names ++ (t.rows.map lineText).flatten

theorem splitOn_line {cs : List (List UInt8)} (hne : cs ≠ []) (h : ∀ c ∈ cs, IsCell c) :
    ([TAB].intercalate cs).splitOn TAB = cs :=
  List.splitOn_intercalate TAB (fun c hc => (h c hc).2.1) hne

/-- What is in a line is a tab or in a cell. -/
theorem mem_line {cs : List (List UInt8)} (hne : cs ≠ []) (h : ∀ c ∈ cs, IsCell c) {x : UInt8}
    (hx : x ∈ [TAB].intercalate cs) (htab : x ≠ TAB) : ∃ c ∈ cs, x ∈ c := by
  have := exists_mem_splitOnP (p := (· == TAB)) hx (by simpa using htab)
  rwa [← List.splitOn_eq_splitOnP, splitOn_line hne h] at this

theorem NL_not_mem_line {cs : List (List UInt8)} (hne : cs ≠ []) (h : ∀ c ∈ cs, IsCell c) :
    NL ∉ [TAB].intercalate cs := by
  intro hx
  obtain ⟨c, hc, hx⟩ := mem_line hne h hx (by decide)
  exact (h c hc).2.2.1 hx

theorem splitOnP_lines {rows : List (List (List UInt8))}
    (h : ∀ row ∈ rows, row ≠ [] ∧ ∀ c ∈ row, IsCell c) :
    ((rows.map lineText).flatten).splitOnP (· == NL) =
      rows.map (fun row => [TAB].intercalate row) ++ [[]] := by
  induction rows with
  | nil => rfl
  | cons row rows ih =>
    obtain ⟨hrow, hrows⟩ := List.forall_mem_cons.mp h
    have hline : ∀ x ∈ [TAB].intercalate row, (x == NL) = false := by
      intro x hx
      rw [beq_eq_false_iff_ne]
      rintro rfl
      exact NL_not_mem_line hrow.1 hrow.2 hx
    rw [List.map_cons, List.flatten_cons, lineText, List.append_assoc, List.singleton_append,
      List.splitOnP_append_cons_of_forall_mem hline NL rfl, ih hrows]
    rfl

namespace TSVTable

variable (t : TSVTable)

theorem row_ne {row : List (List UInt8)} (hrow : row ∈ t.rows) : row ≠ [] := by
  rintro rfl
  exact t.names_ne (List.length_eq_zero_iff.mp (t.width [] hrow).symm)

theorem rows_cells : ∀ row ∈ t.rows, row ≠ [] ∧ ∀ c ∈ row, IsCell c :=
  fun row hrow => ⟨t.row_ne hrow, t.isCell row hrow⟩

theorem text_eq :
    t.text = [TAB].intercalate t.names ++ NL :: (t.rows.map lineText).flatten := by
  rw [text, lineText, List.append_assoc, List.singleton_append]

theorem headerLine_text : headerLine t.text = [TAB].intercalate t.names := by
  rw [headerLine, text_eq]
  exact Blocks.takeWhile_ne_append (NL_not_mem_line t.names_ne t.isCell_name) _

theorem tsvSkipLine_text : tsvSkipLine t.text = (t.rows.map lineText).flatten := by
  have hNL : NL ∈ t.text := by simp [text_eq]
  have h := stream_eq hNL
  rw [headerLine_text] at h
  conv_lhs at h => rw [text_eq]
  exact (List.cons.inj (List.append_cancel_left h)).2.symm

theorem columns_text : columns t.text = t.names := by
  rw [columns, headerLine_text, splitOn_line t.names_ne t.isCell_name]

theorem bodyLines_text : bodyLines t.text = t.rows.map fun row => [TAB].intercalate row := by
  rw [bodyLines, lines, ended, tsvSkipLine_text, splitOnP_lines t.rows_cells]
  simp

theorem map_bodyLines_text : (bodyLines t.text).map (fun line => line.splitOn TAB) = t.rows := by
  rw [bodyLines_text, List.map_map]
  refine (List.map_congr_left fun row hrow => ?_).trans (List.map_id _)
  exact splitOn_line (t.row_ne hrow) (t.isCell row hrow)

theorem getLast?_text : ∀ x ∈ (tsvSkipLine t.text).getLast?, x = NL := by
  have h := getLast?_splitOnP (q := (· == NL)) (tsvSkipLine t.text)
  rw [tsvSkipLine_text, splitOnP_lines t.rows_cells, List.getLast?_concat] at h
  rw [tsvSkipLine_text]
  simpa using h

theorem cells_text : cells t.text = t.rows.flatten := by
  rw [cells_of_newline t.getLast?_text, map_bodyLines_text]

theorem accepted : Accepted ⟨true, true, true, true⟩ t.text := by
  refine ⟨rfl, ?_, fun h => ?_⟩
  · obtain ⟨row, hrow⟩ := List.exists_mem_of_ne_nil _ t.rows_ne
    obtain ⟨cell, hcell⟩ := List.exists_mem_of_ne_nil _ (t.row_ne hrow)
    rw [cells_text]
    exact List.ne_nil_of_mem (List.mem_flatten.mpr ⟨row, hrow, hcell⟩)
  · have hmem := List.mem_of_mem_take h
    rw [cells_text] at hmem
    obtain ⟨row, hrow, hcell⟩ := List.mem_flatten.mp hmem
    exact (t.isCell row hrow [] hcell).1 rfl

theorem rowsWhole : RowsWhole t.text := by
  refine ⟨(rectangular_iff _).mp ?_, t.getLast?_text, fun h => ?_⟩
  · rw [Rectangular, map_bodyLines_text, columns_text]
    exact t.width
  · rw [tsvSkipLine_text] at h
    obtain ⟨line, hline, h⟩ := List.mem_flatten.mp h
    obtain ⟨row, hrow, rfl⟩ := List.mem_map.mp hline
    have hmem := (List.mem_append.mp h).resolve_right (by decide)
    obtain ⟨cell, hcell, h⟩ := mem_line (t.row_ne hrow) (t.isCell row hrow) hmem (by decide)
    exact (t.isCell row hrow cell hcell).2.2.2 h

/-- The lookup of a name stops at its column. -/
theorem findIdx?_name {j : ℕ} {name : List UInt8} (hj : t.names[j]? = some name) :
    t.names.findIdx? (stopsAt name) = some j := by
  have hstop : ∀ c ∈ t.names, (stopsAt name c = true ↔ name = c) := by
    intro c hc
    obtain ⟨hne, -, -, h₀⟩ := t.isCell_name c hc
    have hself : c.takeWhile (· ≠ 0) = c := by
      refine List.takeWhile_eq_self_iff.mpr fun x hx => ?_
      rw [decide_eq_true_eq]
      rintro rfl
      exact h₀ hx
    simp only [stopsAt, hself, Bool.or_eq_true, decide_eq_true_eq, hne, false_or]
  obtain ⟨hlt, rfl⟩ := List.getElem?_eq_some_iff.mp hj
  refine List.findIdx?_eq_some_iff_getElem.mpr ⟨hlt, ?_, fun k hk h => ?_⟩
  · exact (hstop _ (List.getElem_mem hlt)).mpr rfl
  · have heq := (hstop _ (List.getElem_mem (by omega))).mp h
    have := (t.nodup.getElem_inj_iff).mp heq
    omega

/-- A table whose text an `int` can count is read back: its rows, and each cell by its number and
by the name of its column; no lookup sets `null_returned`. -/
theorem round_trip (hlen : t.text.length ≤ INT_MAX) (r : TSVresult) :
    ∃ r', TSVinit ⟨true, true, true, true⟩ t.text r = some (true, r') ∧
      r'.null_returned = r.null_returned ∧ TSVntuples r' = t.rows.length ∧
      ∀ (i j : ℕ) (row : List (List UInt8)) (name cell : List UInt8), t.rows[i]? = some row →
        t.names[j]? = some name → row[j]? = some cell →
          ∃ a, TSVgetvalue r' i j = some (some a, r') ∧
            TSVgetvalues r' i name = some (some a, r') ∧ cString (r'.buf.drop a) = some cell := by
  obtain ⟨ok, r', hrun, hok, hr⟩ := TSVinit_eq hlen ⟨true, true, true, true⟩ r
  obtain rfl := hok.mpr t.accepted
  obtain ⟨hrows, hvalues⟩ := t.rowsWhole.isGrid hlen t.accepted r.null_returned
  rw [hr rfl] at hrun
  refine ⟨_, hrun, rfl, ?_, fun i j row name cell hi hj hcell => ?_⟩
  · rw [hrows, bodyLines_text, List.length_map]
  have hline : (bodyLines t.text)[i]? = some ([TAB].intercalate row) := by
    rw [bodyLines_text, List.getElem?_map, hi]
    rfl
  have hrow := List.mem_of_getElem? hi
  obtain ⟨a, hget, hs⟩ := (hvalues i _ hline).2 j cell (by
    rwa [splitOn_line (t.row_ne hrow) (t.isCell row hrow)])
  refine ⟨a, hget, ?_, hs⟩
  have hname : t.names[j]? ≠ some [] := by
    rw [hj]
    rintro ⟨⟩
    exact (t.isCell_name [] (List.mem_of_getElem? hj)).1 rfl
  rw [TSVgetvalues, getvaluesLoop_eq (forall₂_points (NL_mem_of_cells t.accepted.2.1) _),
    columns_text, t.findIdx?_name hj]
  simp only [hname, if_false, Nat.zero_add]
  exact hget

end TSVTable

/-- A table with one row of one cell, which consists of a letter. -/
def letterTable (n : ℕ) (hn : n ≠ 0) : TSVTable where
  names := [[97]]
  rows := [[List.replicate n 98]]
  names_ne := by simp
  rows_ne := by simp
  nodup := List.nodup_singleton _
  width := by simp
  isCell_name := by simp; decide
  isCell := by simp [IsCell, hn, TAB, NL]

theorem length_letterTable (n : ℕ) (hn : n ≠ 0) : (letterTable n hn).text.length = n + 3 := by
  simp [letterTable, TSVTable.text, lineText]

/-- The round trip of the text `a<NL>bb<NL>`. -/
theorem TSVTable.round_trip_example :
    ∃ r', TSVinit ⟨true, true, true, true⟩ (letterTable 2 (by decide)).text
        TSVRESULT_INITIALIZER = some (true, r') ∧
      r'.null_returned = TSVRESULT_INITIALIZER.null_returned ∧ TSVntuples r' = 1 ∧
      ∀ (i j : ℕ) (row : List (List UInt8)) (name cell : List UInt8),
        (letterTable 2 (by decide)).rows[i]? = some row →
        (letterTable 2 (by decide)).names[j]? = some name → row[j]? = some cell →
          ∃ a, TSVgetvalue r' i j = some (some a, r') ∧
            TSVgetvalues r' i name = some (some a, r') ∧ cString (r'.buf.drop a) = some cell :=
  TSVTable.round_trip (letterTable 2 (by decide)) (by decide) TSVRESULT_INITIALIZER

/-- A cell of 2^31 bytes: the length of the text is no `int`, and `TSVinit` has no result. -/
theorem long_table_undefined :
    ¬∃ r', TSVinit ⟨true, true, true, true⟩ (letterTable (2 ^ 31) (by decide)).text
      TSVRESULT_INITIALIZER = some (true, r') := by
  rw [TSVinit_none rfl (by rw [length_letterTable]; decide)]
  rintro ⟨r', h⟩
  cases h

end Regonf.Tsv
