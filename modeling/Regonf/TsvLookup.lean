import Regonf.TsvParse

/-! Which lookups by name are safe in a file that `TSVinit` has accepted. -/
namespace Regonf.Tsv

open Cells

/-- The pointer leads to the cell, up to its first NUL, and an empty cell has none. -/
def Points (r : TSVresult) (cell : List UInt8) (p : Option ℕ) : Prop :=
  cell = [] ∧ p = none ∨
    cell ≠ [] ∧ ∃ a, p = some a ∧ cString (r.buf.drop a) = some (cell.takeWhile (· ≠ 0))

theorem takeWhile_append_zero (w t : List UInt8) :
    (w ++ 0 :: t).takeWhile (· ≠ 0) = w.takeWhile (· ≠ 0) := by
  induction w with
  | nil => simp
  | cons b w ih =>
    rw [List.cons_append, List.takeWhile_cons, List.takeWhile_cons, ih]

/-- What stands in the buffer where a cell begins. -/
theorem points_of_drop {stream w t : List UInt8} {a : ℕ} {d : UInt8} (null_returned : Bool)
    (hne : w ≠ []) (hw : ∀ x ∈ w, isDelimiter x = false) (hd : isDelimiter d = true)
    (h : stream.drop a = w ++ d :: t) : Points (parsed stream null_returned) w (some a) := by
  have hmap : w.map blank = w := by
    refine (List.map_congr_left fun x hx => ?_).trans (List.map_id w)
    rw [blank, hw x hx]
    rfl
  have hbuf : (parsed stream null_returned).buf.drop a = w ++ 0 :: t.map blank := by
    have hblank : blank d = 0 := by rw [blank, if_pos hd]
    rw [parsed, ← List.map_drop, h, List.map_append, List.map_cons, hmap, hblank]
  refine Or.inr ⟨hne, a, rfl, ?_⟩
  rw [hbuf, cString, if_pos (by simp), takeWhile_append_zero]

/-- The cells behind the header. -/
theorem points_cells {stream w : List UInt8} {k : ℕ} (hk : (cells stream)[k]? = some w)
    (null_returned : Bool) : ∃ p, (parsed stream null_returned).data[k]? = some p ∧
      Points (parsed stream null_returned) w p := by
  have hNL := NL_mem_of_cells (List.ne_nil_of_mem (List.mem_of_getElem? hk))
  have hlen : (headerLine stream).length + 1 = (headerLine stream ++ [NL]).length := by simp
  rcases starts_ended (headerLine stream ++ [NL]) hk with ⟨hw, hs⟩ | ⟨hne, a, d, t, hs, hd, ht⟩
  · exact ⟨none, by rw [parsed, hlen]; exact hs, Or.inl ⟨hw, rfl⟩⟩
  · rw [List.append_assoc, List.singleton_append, ← stream_eq hNL] at ht
    refine ⟨some a, by rw [parsed, hlen]; exact hs, points_of_drop _ hne ?_ hd ht⟩
    exact not_of_mem_splitOnP (List.mem_of_mem_dropLast (List.mem_of_getElem? hk))

theorem columns_eq_ended (stream : List UInt8) :
    columns stream = ended isDelimiter (headerLine stream ++ [NL]) := by
  rw [ended_snoc _ (by decide), columns, List.splitOn_eq_splitOnP]
  refine splitOnP_congr fun x hx => ?_
  have hne : x ≠ NL := fun h => NL_not_mem_headerLine stream (h ▸ hx)
  simp [isDelimiter, hne]

/-- The cells of the header. -/
theorem points_columns {stream w : List UInt8} {k : ℕ} (hNL : NL ∈ stream)
    (hk : (columns stream)[k]? = some w) (null_returned : Bool) :
    ∃ p, (parsed stream null_returned).column_name[k]? = some p ∧
      Points (parsed stream null_returned) w p := by
  have hsplit : stream = headerLine stream ++ [NL] ++ tsvSkipLine stream := by
    rw [List.append_assoc, List.singleton_append]
    exact stream_eq hNL
  rw [parsed]
  dsimp only
  rw [columns_eq_ended] at hk ⊢
  rcases starts_ended [] hk with ⟨hw, hs⟩ | ⟨hne, a, d, t, hs, hd, ht⟩
  · exact ⟨none, hs, Or.inl ⟨hw, rfl⟩⟩
  · refine ⟨some a, hs, points_of_drop null_returned (t := t ++ tsvSkipLine stream) hne ?_ hd ?_⟩
    · exact not_of_mem_splitOnP (List.mem_of_mem_dropLast (List.mem_of_getElem? hk))
    · rw [List.nil_append] at ht
      have hlt : a ≤ (headerLine stream ++ [NL]).length := by
        by_contra hlt
        rw [List.drop_eq_nil_of_le (not_le.mp hlt).le] at ht
        simp at ht
      conv_lhs => rw [hsplit]
      rw [List.drop_append_of_le_length hlt, ht, List.append_assoc, List.cons_append]

theorem forall₂_points {stream : List UInt8} (hNL : NL ∈ stream) (null_returned : Bool) :
    List.Forall₂ (Points (parsed stream null_returned)) (columns stream)
      (parsed stream null_returned).column_name := by
  refine List.forall₂_iff_get.mpr ⟨by simp [parsed], fun k hk hk' => ?_⟩
  obtain ⟨p, hp, hpoints⟩ := points_columns hNL (List.getElem?_eq_getElem hk) null_returned
  rw [List.getElem?_eq_getElem hk'] at hp
  cases hp
  exact hpoints

/-- Where `TSVgetvalues` stops: at a cell of the header that is empty or has the name. -/
def stopsAt (column_name cell : List UInt8) : Bool :=
  decide (cell = []) || decide (column_name = cell.takeWhile (· ≠ 0))

theorem getvaluesLoop_eq {r : TSVresult} {cs : List (List UInt8)} {ps : List (Option ℕ)}
    (h : List.Forall₂ (Points r) cs ps) (row_number : ℕ) (column_name : List UInt8) (i : ℕ) :
    getvaluesLoop r row_number column_name ps i =
      match cs.findIdx? (stopsAt column_name) with
      | none => some (none, { r with null_returned := true })
      | some k => if cs[k]? = some [] then none else dataAt r row_number (i + k) := by
  induction h generalizing i with
  | nil => rfl
  | @cons cell p cs ps hp h ih =>
    rw [List.findIdx?_cons]
    rcases hp with ⟨rfl, rfl⟩ | ⟨hne, a, rfl, hs⟩
    -- the name is compared with NULL
    · rfl
    · rw [getvaluesLoop, hs, Option.bind_some]
      by_cases hname : column_name = cell.takeWhile (· ≠ 0)
      · have hstop : stopsAt column_name cell = true := by simp [stopsAt, hname]
        rw [if_pos hname, hstop]
        simp [hne]
      · have hstop : stopsAt column_name cell = false := by
          rw [stopsAt, decide_eq_false hne, decide_eq_false hname]
          rfl
        rw [if_neg hname, hstop, ih]
        cases hfind : cs.findIdx? (stopsAt column_name) with
        | none => simp
        | some k => simp [Nat.add_assoc, Nat.add_comm 1]

/-- A lookup that is defined, and gives a cell or says that there is none. -/
def SafeLookup (r : TSVresult) (row_number : ℕ) (column_name : List UInt8) : Prop :=
  ∃ v r', TSVgetvalues r row_number column_name = some (v, r') ∧
    (v ≠ none ∨ r'.null_returned = true)

/-- Where the lookup stops in the header, the cell has a name, the index of the value is an `int`,
and the value, if the array has it, is not empty. -/
def LookupHasCell (stream : List UInt8) (row_number : ℕ) (column_name : List UInt8) : Prop :=
  ∀ k, (columns stream).findIdx? (stopsAt column_name) = some k →
    (columns stream)[k]? ≠ some [] ∧ (columns stream).length * row_number + k ≤ INT_MAX ∧
      (cells stream)[(columns stream).length * row_number + k]? ≠ some []

/-- What the lookups find in the array. -/
theorem dataAt_parsed (stream : List UInt8) (row_number k : ℕ) :
    (∃ v r', dataAt (parsed stream false) row_number k = some (v, r') ∧
        (v ≠ none ∨ r'.null_returned = true)) ↔
      (columns stream).length * row_number + k ≤ INT_MAX ∧
        (cells stream)[(columns stream).length * row_number + k]? ≠ some [] := by
  rw [dataAt, length_column_name_parsed, length_data_parsed]
  set ind := (columns stream).length * row_number + k
  by_cases hint : INT_MAX < ind
  · simp [hint]
  rw [if_neg hint]
  by_cases hlt : ind < (cells stream).length
  · obtain ⟨p, hp, hpoints⟩ := points_cells (List.getElem?_eq_getElem hlt) false
    rw [if_neg (not_le.mpr hlt), hp, List.getElem?_eq_getElem hlt]
    rcases hpoints with ⟨hnil, rfl⟩ | ⟨hne, a, rfl, -⟩
    · simp [hnil, parsed]
    · simp [hne, not_lt.mp hint]
  · -- behind the array the flag is set
    rw [if_pos (not_lt.mp hlt), List.getElem?_eq_none (not_lt.mp hlt)]
    simp [not_lt.mp hint]

/-- A file that was accepted, with the result that it has. -/
theorem accepted_of_TSVinit {w : World} {stream : List UInt8} {r r' : TSVresult}
    (h : TSVinit w stream r = some (true, r')) :
    stream.length ≤ INT_MAX ∧ Accepted w stream ∧ r' = parsed stream r.null_returned := by
  by_cases hlen : stream.length ≤ INT_MAX
  · obtain ⟨ok, r'', hrun, hok, hr⟩ := TSVinit_eq hlen w r
    cases hrun.symm.trans h
    exact ⟨hlen, hok.mp rfl, hr rfl⟩
  · cases hw : w.fopen with
    | true => cases (TSVinit_none hw (not_le.mp hlen) r).symm.trans h
    | false =>
      rw [TSVinit, hw] at h
      cases h

/-- In every file that is accepted, a lookup by name is safe if and only if it finds a cell or gets
to the end of the header or of the array. -/
theorem TSVgetvalues_safe_iff {w : World} {stream : List UInt8} {r : TSVresult}
    (h : TSVinit w stream TSVRESULT_INITIALIZER = some (true, r)) (row_number : ℕ)
    (column_name : List UInt8) :
    SafeLookup r row_number column_name ↔ LookupHasCell stream row_number column_name := by
  obtain ⟨-, hacc, rfl⟩ := accepted_of_TSVinit h
  have hpoints := forall₂_points (NL_mem_of_cells hacc.2.1) false
  have hflag : TSVRESULT_INITIALIZER.null_returned = false := rfl
  rw [SafeLookup, TSVgetvalues, LookupHasCell, hflag, getvaluesLoop_eq hpoints]
  cases hfind : (columns stream).findIdx? (stopsAt column_name) with
  | none => simp
  | some k =>
    by_cases hnil : (columns stream)[k]? = some []
    · simp [hnil]
    · simp only [hnil, if_false, Nat.zero_add, Option.some.injEq, forall_eq', ne_eq,
        not_false_eq_true, true_and]
      exact dataAt_parsed stream row_number k

/-- The last theorem for a file with one column and one row. -/
theorem TSVgetvalues_safe_iff_example :
    SafeLookup ⟨[97, 0, 49, 0], [some 0], [some 2], false⟩ 0 [97] ↔
      LookupHasCell [97, 10, 49, 10] 0 [97] :=
  TSVgetvalues_safe_iff (w := ⟨true, true, true, true⟩) (by decide +kernel) 0 [97]

/-- The first name of the header is missing: the lookup of `b` compares with NULL. -/
theorem empty_name_compared :
    ∃ r, TSVinit ⟨true, true, true, true⟩ [9, 98, 10, 49, 9, 50, 10] TSVRESULT_INITIALIZER =
        some (true, r) ∧ TSVgetvalues r 0 [98] = none ∧ ¬SafeLookup r 0 [98] := by
  have hnone : TSVgetvalues ⟨[0, 98, 0, 49, 0, 50, 0], [none, some 1], [some 3, some 5], false⟩ 0
      [98] = none := by decide +kernel
  refine ⟨_, by decide +kernel, hnone, ?_⟩
  rintro ⟨v, r', hv, -⟩
  cases hnone.symm.trans hv

end Regonf.Tsv
