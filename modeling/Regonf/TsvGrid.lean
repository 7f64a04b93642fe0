import Regonf.AcpSend
import Regonf.TsvLookup

/-! Which of the accepted files are tables, and the tables that are read back. -/
namespace Regonf.Tsv

open Cells

/-- The lines behind the header. -/
def bodyLines (stream : List UInt8) : List (List UInt8) := lines (· == NL) (tsvSkipLine stream)

/-- Each line behind the header is a row: it has one cell for each name, and the lookups give its
cells. -/
def IsGrid (stream : List UInt8) (r : TSVresult) : Prop :=
  TSVntuples r = (bodyLines stream).length ∧
    ∀ (i : ℕ) (line : List UInt8), (bodyLines stream)[i]? = some line →
      (line.splitOn TAB).length = (columns stream).length ∧
        ∀ (j : ℕ) (cell : List UInt8), (line.splitOn TAB)[j]? = some cell →
          ∃ a, TSVgetvalue r i j = some (some a, r) ∧ cString (r.buf.drop a) = some cell

/-- Each line behind the header has as many tabs as the header and ends with a newline, and no byte
in them is NUL. -/
def RowsWhole (stream : List UInt8) : Prop :=
  (∀ line ∈ bodyLines stream, line.count TAB = (headerLine stream).count TAB) ∧
    (∀ x ∈ (tsvSkipLine stream).getLast?, x = NL) ∧ 0 ∉ tsvSkipLine stream

theorem length_splitOn_TAB (line : List UInt8) :
    (line.splitOn TAB).length = line.count TAB + 1 := by
  rw [List.splitOn_eq_splitOnP, length_splitOnP, List.count]

/-- The cells of a text are those of its lines. -/
theorem splitOnP_isDelimiter (l : List UInt8) :
    l.splitOnP isDelimiter = ((l.splitOnP (· == NL)).map fun line => line.splitOn TAB).flatten := by
  have hqp : ∀ x : UInt8, (x == NL) = true → isDelimiter x = true := by
    intro x hx
    simp [isDelimiter, beq_iff_eq.mp hx]
  rw [splitOnP_flatMap hqp, List.flatMap_def]
  congr 1
  refine List.map_congr_left fun line hline => ?_
  rw [List.splitOn_eq_splitOnP]
  refine splitOnP_congr fun x hx => ?_
  have hne : (x == NL) = false := not_of_mem_splitOnP hline x hx
  simp [isDelimiter, hne]

/-- The lines when the last one ends with a newline, and when it does not. -/
theorem bodyLines_cases (stream : List UInt8) :
    (∀ x ∈ (tsvSkipLine stream).getLast?, x = NL) ∧
        (tsvSkipLine stream).splitOnP (· == NL) = bodyLines stream ++ [[]] ∨
      (¬∀ x ∈ (tsvSkipLine stream).getLast?, x = NL) ∧
        (tsvSkipLine stream).splitOnP (· == NL) = bodyLines stream := by
  obtain ⟨w, hsplit, hlast⟩ := splitOnP_ended (p := (· == NL)) (tsvSkipLine stream)
  have hiff := getLast?_splitOnP (q := (· == NL)) (tsvSkipLine stream)
  simp only [beq_iff_eq] at hiff
  rw [bodyLines, lines, ← hiff, hlast]
  cases w with
  | nil => exact Or.inl ⟨rfl, hsplit⟩
  | cons b w => exact Or.inr ⟨by simp, rfl⟩

/-- When every line ends with a newline, all of its cells are counted. -/
theorem cells_of_newline {stream : List UInt8} (h : ∀ x ∈ (tsvSkipLine stream).getLast?, x = NL) :
    cells stream = ((bodyLines stream).map fun line => line.splitOn TAB).flatten := by
  have hsplit := ((bodyLines_cases stream).resolve_right fun h' => h'.1 h).2
  rw [cells, ended, splitOnP_isDelimiter, hsplit]
  simp

/-- The last cell of a last line without a newline is not counted. -/
theorem cells_of_no_newline {stream : List UInt8}
    (h : ¬∀ x ∈ (tsvSkipLine stream).getLast?, x = NL) :
    bodyLines stream ≠ [] ∧ (cells stream).length + 1 =
      ((bodyLines stream).map fun line => line.splitOn TAB).flatten.length := by
  have hsplit := ((bodyLines_cases stream).resolve_left fun h' => h h'.1).2
  have hlen : (cells stream).length + 1 = ((tsvSkipLine stream).splitOnP isDelimiter).length := by
    rw [cells, length_ended, length_splitOnP]
  rw [hlen, splitOnP_isDelimiter, hsplit]
  exact ⟨hsplit ▸ List.splitOnP_ne_nil _ _, rfl⟩

theorem mem_splitOnP_of_bodyLines {stream line : List UInt8} (h : line ∈ bodyLines stream) :
    line ∈ (tsvSkipLine stream).splitOnP (· == NL) := by
  rcases bodyLines_cases stream with ⟨-, hsplit⟩ | ⟨-, hsplit⟩
  · exact hsplit ▸ List.mem_append_left _ h
  · exact hsplit ▸ h

/-- What is in a cell of a line is behind the header. -/
theorem mem_of_mem_cell {stream line cell : List UInt8} (hline : line ∈ bodyLines stream)
    (hcell : cell ∈ line.splitOn TAB) {x : UInt8} (hx : x ∈ cell) : x ∈ tsvSkipLine stream := by
  rw [List.splitOn_eq_splitOnP] at hcell
  exact mem_of_mem_splitOnP (mem_splitOnP_of_bodyLines hline) (mem_of_mem_splitOnP hcell hx)

/-- What is no delimiter behind the header is in a cell of a line. -/
theorem exists_mem_cell {stream : List UInt8} {x : UInt8} (hx : x ∈ tsvSkipLine stream)
    (hNL : x ≠ NL) (hTAB : x ≠ TAB) :
    ∃ line ∈ bodyLines stream, ∃ cell ∈ line.splitOn TAB, x ∈ cell := by
  obtain ⟨line, hsplit, hmem⟩ := exists_mem_splitOnP (p := (· == NL)) hx (by simpa using hNL)
  have hline : line ∈ bodyLines stream := by
    rcases bodyLines_cases stream with ⟨-, hcases⟩ | ⟨-, hcases⟩
    · rw [hcases] at hsplit
      refine (List.mem_append.mp hsplit).resolve_right fun h => ?_
      rw [List.mem_singleton.mp h] at hmem
      cases hmem
    · exact hcases ▸ hsplit
  obtain ⟨cell, hcell, hmem⟩ := exists_mem_splitOnP (p := (· == TAB)) hmem (by simpa using hTAB)
  rw [← List.splitOn_eq_splitOnP] at hcell
  exact ⟨line, hline, cell, hcell, hmem⟩

/-- Rows of the length of the header. -/
def Rectangular (stream : List UInt8) : Prop :=
  ∀ row ∈ (bodyLines stream).map fun line => line.splitOn TAB,
    row.length = (columns stream).length

theorem rectangular_iff (stream : List UInt8) : Rectangular stream ↔
    ∀ line ∈ bodyLines stream, line.count TAB = (headerLine stream).count TAB := by
  simp [Rectangular, length_splitOn_TAB, length_columns]

theorem IsGrid.rectangular {stream : List UInt8} {r : TSVresult} (h : IsGrid stream r) :
    Rectangular stream := by
  intro row hrow
  obtain ⟨line, hline, rfl⟩ := List.mem_map.mp hrow
  obtain ⟨i, hi⟩ := List.mem_iff_getElem?.mp hline
  exact (h.2 i line hi).1

section
variable {w : World} {stream : List UInt8} (hlen : stream.length ≤ INT_MAX)
  (hacc : Accepted w stream)
include hlen hacc

/-- Without the last newline the last cell of the last line would be looked up behind the array. -/
theorem IsGrid.getLast? {null_returned : Bool} (h : IsGrid stream (parsed stream null_returned)) :
    ∀ x ∈ (tsvSkipLine stream).getLast?, x = NL := by
  by_contra hlast
  obtain ⟨hne, hcount⟩ := cells_of_no_newline hlast
  rw [length_flatten h.rectangular, List.length_map] at hcount
  obtain ⟨n, hn⟩ := Nat.exists_eq_succ_of_ne_zero (List.length_pos_iff.mpr hne).ne'
  obtain ⟨c, hc⟩ := Nat.exists_eq_succ_of_ne_zero
    (List.length_pos_iff.mpr (columns_ne_nil stream)).ne'
  have hi : (bodyLines stream)[n]? = some (bodyLines stream)[n] :=
    List.getElem?_eq_getElem (by omega)
  obtain ⟨hrow, hvalue⟩ := h.2 n _ hi
  obtain ⟨a, hget, -⟩ := hvalue c _ (List.getElem?_eq_getElem (by omega))
  have hind : (columns stream).length * n + c = (cells stream).length := by
    rw [hn, hc, Nat.mul_succ] at hcount
    rw [hc]
    omega
  have hcells := length_cells_lt (NL_mem_of_cells hacc.2.1)
  rw [TSVgetvalue, dataAt, length_column_name_parsed, length_data_parsed, hind,
    if_neg (by omega), if_pos le_rfl] at hget
  cases hget

theorem IsGrid.rowsWhole {null_returned : Bool} (h : IsGrid stream (parsed stream null_returned)) :
    RowsWhole stream := by
  refine ⟨(rectangular_iff stream).mp h.rectangular, h.getLast? hlen hacc, fun h₀ => ?_⟩
  obtain ⟨line, hline, cell, hcell, hmem⟩ := exists_mem_cell h₀ (by decide) (by decide)
  obtain ⟨i, hi⟩ := List.mem_iff_getElem?.mp hline
  obtain ⟨j, hj⟩ := List.mem_iff_getElem?.mp hcell
  obtain ⟨a, -, hs⟩ := (h.2 i line hi).2 j cell hj
  exact Sendto.not_mem_cString hs hmem

theorem RowsWhole.isGrid (h : RowsWhole stream) (null_returned : Bool) :
    IsGrid stream (parsed stream null_returned) := by
  obtain ⟨hcount, hlast, h₀⟩ := h
  have hrect := (rectangular_iff stream).mpr hcount
  have hcells := cells_of_newline hlast
  have htotal : (cells stream).length = (columns stream).length * (bodyLines stream).length := by
    rw [hcells, length_flatten hrect, List.length_map]
  have hpos : 0 < (columns stream).length := List.length_pos_iff.mpr (columns_ne_nil stream)
  have hlt := length_cells_lt (NL_mem_of_cells hacc.2.1)
  refine ⟨?_, fun i line hi => ?_⟩
  · rw [TSVntuples, length_column_name_parsed, length_data_parsed, if_neg hpos.ne', htotal,
      Nat.mul_div_cancel_left _ hpos]
  have hrow : (line.splitOn TAB).length = (columns stream).length :=
    hrect _ (List.mem_map.mpr ⟨line, List.mem_of_getElem? hi, rfl⟩)
  refine ⟨hrow, fun j cell hj => ?_⟩
  obtain ⟨hjlt, -⟩ := List.getElem?_eq_some_iff.mp hj
  have hcell : (cells stream)[(columns stream).length * i + j]? = some cell := by
    rw [hcells, getElem?_flatten hrect i (hrow ▸ hjlt), List.getElem?_map, hi]
    exact hj
  have hind : (columns stream).length * i + j < (cells stream).length :=
    (List.getElem?_eq_some_iff.mp hcell).1
  obtain ⟨p, hp, hpoints⟩ := points_cells hcell null_returned
  -- no cell of an accepted table is empty
  have hne : cell ≠ [] := by
    rintro rfl
    refine hacc.2.2 (List.mem_iff_getElem?.mpr ⟨(columns stream).length * i + j, ?_⟩)
    rw [List.getElem?_take_of_lt, hcell]
    rw [checked, htotal, Nat.mul_div_cancel_left _ hpos, ← htotal]
    exact hind
  obtain ⟨-, a, rfl, hs⟩ := hpoints.resolve_left fun h => hne h.1
  refine ⟨a, ?_, ?_⟩
  · rw [TSVgetvalue, dataAt, length_column_name_parsed, length_data_parsed,
      if_neg (by omega), if_neg (by omega), hp]
    rfl
  · have hzero : ∀ x ∈ cell, x ≠ 0 := by
      rintro x hx rfl
      exact h₀ (mem_of_mem_cell (List.mem_of_getElem? hi) (List.mem_of_getElem? hj) hx)
    rw [hs, List.takeWhile_eq_self_iff.mpr (by simpa using hzero)]

end

/-- What `TSVinit` accepts is a grid if and only if the file cannot be opened, or it is not longer
than an `int` counts and is refused or has whole rows. -/
theorem TSVinit_grid_iff (w : World) (stream : List UInt8) (r : TSVresult) :
    (∃ ok r', TSVinit w stream r = some (ok, r') ∧ (ok = true → IsGrid stream r')) ↔
      w.fopen = false ∨
        stream.length ≤ INT_MAX ∧ (¬Accepted w stream ∨ RowsWhole stream) := by
  by_cases hlen : stream.length ≤ INT_MAX
  · obtain ⟨ok, r', hrun, hok, hr⟩ := TSVinit_eq hlen w r
    constructor
    · rintro ⟨ok', r'', hrun', hgrid⟩
      cases hrun.symm.trans hrun'
      refine Or.inr ⟨hlen, ?_⟩
      by_cases hacc : Accepted w stream
      · have hok := hok.mpr hacc
        have hgrid := hgrid hok
        rw [hr hok] at hgrid
        exact Or.inr (hgrid.rowsWhole hlen hacc)
      · exact Or.inl hacc
    · intro h
      refine ⟨ok, r', hrun, fun ht => ?_⟩
      have hacc := hok.mp ht
      rw [hr ht]
      rcases h with hw | ⟨-, h | h⟩
      · simp [hacc.1] at hw
      · exact absurd hacc h
      · exact h.isGrid hlen hacc r.null_returned
  · cases hw : w.fopen with
    | false =>
      refine iff_of_true ⟨false, r, ?_, nofun⟩ (Or.inl rfl)
      rw [TSVinit, hw]
      rfl
    | true =>
      rw [TSVinit_none hw (not_le.mp hlen)]
      simp [hlen]

/-- A short row and a long one make up for each other, and the cell of the second is moved to the
first; without the last newline a row is lost. -/
theorem ragged_rows_accepted :
    (∃ r, TSVinit ⟨true, true, true, true⟩ [97, 9, 98, 10, 49, 10, 50, 9, 51, 9, 52, 10]
        TSVRESULT_INITIALIZER = some (true, r) ∧
      ¬IsGrid [97, 9, 98, 10, 49, 10, 50, 9, 51, 9, 52, 10] r) ∧
    ∃ r, TSVinit ⟨true, true, true, true⟩ [97, 10, 49, 10, 50] TSVRESULT_INITIALIZER =
        some (true, r) ∧ ¬IsGrid [97, 10, 49, 10, 50] r := by
  refine ⟨⟨⟨[97, 0, 98, 0, 49, 0, 50, 0, 51, 0, 52, 0], [some 0, some 2],
      [some 4, some 6, some 8, some 10], false⟩, by decide +kernel, fun h => ?_⟩,
    ⟨⟨[97, 0, 49, 0, 50], [some 0], [some 2], false⟩, by decide +kernel, fun h => ?_⟩⟩
  · exact absurd (h.2 0 [49] (by decide +kernel)).1 (by decide +kernel)
  · exact absurd h.1 (by decide +kernel)

end Regonf.Tsv
