import Regonf.Lib.Cells
import Regonf.Tsv

/-! What `TSVinit` makes of a file: the cells of its header and those of its other lines. -/
namespace Regonf.Tsv

open Cells

/-! The counting loops. -/

theorem countLoop_eq {counts : UInt8 → Bool} {stream : List UInt8} {out : ℕ}
    (h : out + stream.countP counts ≤ INT_MAX) :
    countLoop counts stream out = some (out + stream.countP counts) := by
  induction stream generalizing out with
  | nil => rfl
  | cons c stream ih =>
    rw [countLoop, List.countP_cons] at *
    split_ifs at h ⊢
    · rw [incr, if_pos (by omega), Option.bind_some, ih (by omega)]
      congr 1
      omega
    · exact ih h

theorem countLoop_none {counts : UInt8 → Bool} {stream : List UInt8} {out : ℕ}
    (hout : out ≤ INT_MAX) (h : INT_MAX < out + stream.countP counts) :
    countLoop counts stream out = none := by
  induction stream generalizing out with
  | nil =>
    rw [List.countP_nil] at h
    omega
  | cons c stream ih =>
    rw [countLoop]
    rw [List.countP_cons] at h
    split_ifs at h ⊢
    · unfold incr
      split_ifs with hlt
      · rw [Option.bind_some]
        exact ih hlt (by omega)
      · rfl
    · exact ih hout h

theorem getBufLength_eq {stream : List UInt8} (h : stream.length ≤ INT_MAX) :
    getBufLength stream = some stream.length := by
  rw [getBufLength, countLoop_eq (by simpa using h)]
  simp

theorem getBufLength_none {stream : List UInt8} (h : INT_MAX < stream.length) :
    getBufLength stream = none :=
  countLoop_none (Nat.zero_le _) (by simpa using h)

/-! The header and what is behind it. -/

def headerLine (stream : List UInt8) : List UInt8 := stream.takeWhile (· ≠ NL)

/-- The cells of the header. -/
def columns (stream : List UInt8) : List (List UInt8) := (headerLine stream).splitOn TAB

/-- The cells of the other lines that a tab or a newline ends. -/
def cells (stream : List UInt8) : List (List UInt8) := ended isDelimiter (tsvSkipLine stream)

theorem NL_not_mem_headerLine (stream : List UInt8) : NL ∉ headerLine stream := by
  intro h
  simpa using List.mem_takeWhile_imp h

theorem stream_eq {stream : List UInt8} (h : NL ∈ stream) :
    stream = headerLine stream ++ NL :: tsvSkipLine stream := by
  unfold headerLine
  induction stream with
  | nil => cases h
  | cons x stream ih =>
    rw [tsvSkipLine]
    by_cases hx : x = NL
    · subst hx
      simp
    · have hmem := (List.mem_cons.mp h).resolve_left (Ne.symm hx)
      rw [if_neg hx, List.takeWhile_cons_of_pos (by simpa using hx), List.cons_append, ← ih hmem]

theorem tsvSkipLine_eq_nil {stream : List UInt8} (h : NL ∉ stream) : tsvSkipLine stream = [] := by
  induction stream with
  | nil => rfl
  | cons x stream ih =>
    obtain ⟨hx, h⟩ := not_or.mp (mt List.mem_cons.mpr h)
    rw [tsvSkipLine, if_neg (Ne.symm hx), ih h]

theorem length_columns (stream : List UInt8) :
    (columns stream).length = (headerLine stream).count TAB + 1 := by
  rw [columns, List.splitOn_eq_splitOnP, length_splitOnP, List.count]

theorem columns_ne_nil (stream : List UInt8) : columns stream ≠ [] := List.splitOn_ne_nil _ _

theorem getColumnNameLengthLoop_line {h : List UInt8} (hh : NL ∉ h) (t : List UInt8) {out : ℕ}
    (hout : out + h.count TAB + 1 ≤ INT_MAX) :
    getColumnNameLengthLoop (h ++ NL :: t) out = some (out + h.count TAB + 1) := by
  induction h generalizing out with
  | nil =>
    rw [List.count_nil] at hout
    rw [List.nil_append, getColumnNameLengthLoop, if_pos rfl, incr, if_pos (by omega)]
    rfl
  | cons c h ih =>
    obtain ⟨hc, hline⟩ := not_or.mp (mt List.mem_cons.mpr hh)
    rw [List.cons_append, getColumnNameLengthLoop, if_neg (Ne.symm hc)]
    split_ifs with htab
    · subst htab
      rw [List.count_cons_self] at hout ⊢
      rw [incr, if_pos (by omega), Option.bind_some, ih hline (by omega)]
      congr 1
      omega
    · rw [List.count_cons_of_ne htab] at hout ⊢
      exact ih hline hout

theorem getColumnNameLengthLoop_isSome {stream : List UInt8} {out : ℕ}
    (h : out + stream.length ≤ INT_MAX) : (getColumnNameLengthLoop stream out).isSome := by
  induction stream generalizing out with
  | nil => rfl
  | cons c stream ih =>
    rw [List.length_cons] at h
    have hincr : incr out = some (out + 1) := if_pos (by omega)
    rw [getColumnNameLengthLoop, hincr]
    split_ifs
    · rfl
    · exact ih (by omega)
    · exact ih (by omega)

/-! `parse` -/

/-- What `parse` leaves in the buffer. -/
def blank (c : UInt8) : UInt8 := if isDelimiter c then 0 else c

/-- The steps on one array. -/
def cellFold (p : UInt8 → Bool) :
    List UInt8 → ℕ → List (Option ℕ) × ℕ × Bool → List (Option ℕ) × ℕ × Bool
  | [], _, t => t
  | c :: stream, i, t => cellFold p stream (i + 1) (cellStep (p c) i t.1 t.2.1 t.2.2)

theorem cellFold_append (p : UInt8 → Bool) (x y : List UInt8) (i : ℕ)
    (t : List (Option ℕ) × ℕ × Bool) :
    cellFold p (x ++ y) i t = cellFold p y (i + x.length) (cellFold p x i t) := by
  induction x generalizing i t with
  | nil => rfl
  | cons c x ih => rw [List.cons_append, cellFold, ih, cellFold, List.length_cons, Nat.add_assoc,
      Nat.add_comm 1]

section
variable {p : UInt8 → Bool} {w : List UInt8} (hw : ∀ x ∈ w, p x = false)
include hw

/-- Behind the first byte of a cell nothing is stored. -/
theorem cellFold_rest (i : ℕ) (a : List (Option ℕ)) (j : ℕ) :
    cellFold p w i (a, j, false) = (a, j, false) := by
  induction w generalizing i with
  | nil => rfl
  | cons c w ih =>
    obtain ⟨hc, hw⟩ := List.forall_mem_cons.mp hw
    rw [cellFold, hc]
    exact ih hw (i + 1)

/-- A cell stores where it begins, if the array has room. -/
theorem cellFold_cell (hne : w ≠ []) (i : ℕ) (a : List (Option ℕ)) (j : ℕ) :
    cellFold p w i (a, j, true) =
      if j < a.length then (a.set j (some i), j + 1, false) else (a, j, false) := by
  obtain ⟨c, w, rfl⟩ := List.exists_cons_of_ne_nil hne
  obtain ⟨hc, hw⟩ := List.forall_mem_cons.mp hw
  rw [cellFold, hc]
  simp only [cellStep, Bool.false_eq_true, if_false, if_true]
  split_ifs
  · exact cellFold_rest hw _ _ _
  · exact cellFold_rest hw _ _ _

end

/-- A cell and its delimiter give one element of the array its value. -/
theorem cellFold_ended {p : UInt8 → Bool} {w : List UInt8} {d : UInt8}
    (hw : ∀ x ∈ w, p x = false) (hd : p d = true) (t : List UInt8) (i : ℕ)
    (done rest : List (Option ℕ)) :
    cellFold p (w ++ d :: t) i (done ++ none :: rest, done.length, true) =
      cellFold p t (i + w.length + 1)
        (done ++ (if w = [] then none else some i) :: rest, done.length + 1, true) := by
  have hroom : done.length < (done ++ none :: rest).length := by
    rw [List.length_append, List.length_cons]
    omega
  rw [cellFold_append]
  by_cases hne : w = []
  · -- the delimiter of an empty cell goes on to the next element
    subst hne
    simp [cellFold, hd, cellStep]
  · rw [cellFold_cell hw hne, if_pos hroom, cellFold, hd, if_neg hne]
    simp only [cellStep, if_true, Bool.false_and, Bool.false_eq_true, if_false]
    rw [List.set_append_right _ _ (le_refl _), Nat.sub_self, List.set_cons_zero]

/-- An array that is as long as there are delimiters gets the starts of the ended cells. -/
theorem cellFold_starts (p : UInt8 → Bool) (l : List UInt8) (i : ℕ) (done : List (Option ℕ)) :
    (cellFold p l i (done ++ List.replicate (l.countP p) none, done.length, true)).1 =
      done ++ starts i (ended p l) := by
  induction l using cell_induction (p := p) generalizing i done with
  | rest w hw =>
    rw [ended_of_forall hw, List.countP_eq_zero.mpr (by simpa using hw)]
    simp only [List.replicate_zero, List.append_nil, starts]
    by_cases hne : w = []
    · rw [hne]
      rfl
    · rw [cellFold_cell hw hne, if_neg (lt_irrefl _)]
  | cell w d t hw hd ih =>
    have hcount : (w ++ d :: t).countP p = t.countP p + 1 := by
      rw [List.countP_append, List.countP_eq_zero.mpr (by simpa using hw), List.countP_cons, hd,
        if_pos rfl, Nat.zero_add]
    have hrest := ih (i + w.length + 1) (done ++ [if w = [] then none else some i])
    simp only [List.append_assoc, List.singleton_append, List.length_append,
      List.length_singleton] at hrest
    rw [ended_append_cons hw hd, hcount, List.replicate_succ, cellFold_ended hw hd, starts]
    exact hrest

theorem set_buf (pre : List UInt8) (c : UInt8) (n : ℕ) :
    (pre.map blank ++ List.replicate (n + 1) 0).set pre.length (if isDelimiter c then 0 else c) =
      (pre ++ [c]).map blank ++ List.replicate n 0 := by
  rw [List.set_append_right _ _ (by simp)]
  simp [List.replicate_succ, blank]

/-- The loop in the header. -/
theorem parseLoop_header {h : List UInt8} (hh : NL ∉ h) (t pre : List UInt8)
    (data : List (Option ℕ)) (null_returned : Bool) (column_name : List (Option ℕ)) (j : ℕ)
    (set : Bool) :
    parseLoop (h ++ t) ⟨⟨pre.map blank ++ List.replicate (h ++ t).length 0, column_name, data,
        null_returned⟩, true, pre.length, j, set⟩ =
      let a := cellFold (· == TAB) h pre.length (column_name, j, set)
      parseLoop t ⟨⟨(pre ++ h).map blank ++ List.replicate t.length 0, a.1, data, null_returned⟩,
        true, (pre ++ h).length, a.2.1, a.2.2⟩ := by
  induction h generalizing pre column_name j set with
  | nil => simp [cellFold]
  | cons c h ih =>
    obtain ⟨hc, hh⟩ := not_or.mp (mt List.mem_cons.mpr hh)
    rw [List.cons_append, parseLoop, parseByte]
    dsimp only
    rw [if_neg (by simp), if_pos rfl, if_neg (Ne.symm hc), List.length_cons, set_buf]
    have := ih hh (pre ++ [c])
      (cellStep (c == TAB) pre.length column_name j set).1
      (cellStep (c == TAB) pre.length column_name j set).2.1
      (cellStep (c == TAB) pre.length column_name j set).2.2
    simpa [cellFold] using this

/-- The loop in the other lines. -/
theorem parseLoop_data (l pre : List UInt8) (column_name : List (Option ℕ))
    (null_returned : Bool) (data : List (Option ℕ)) (j : ℕ) (set : Bool) :
    parseLoop l ⟨⟨pre.map blank ++ List.replicate l.length 0, column_name, data, null_returned⟩,
        false, pre.length, j, set⟩ =
      ⟨(pre ++ l).map blank, column_name, (cellFold isDelimiter l pre.length (data, j, set)).1,
        null_returned⟩ := by
  induction l generalizing pre data j set with
  | nil => simp [parseLoop, cellFold]
  | cons c l ih =>
    rw [parseLoop, parseByte]
    dsimp only
    rw [if_neg (by simp), if_neg (by decide), List.length_cons, set_buf]
    have := ih (pre ++ [c]) (cellStep (isDelimiter c) pre.length data j set).1
      (cellStep (isDelimiter c) pre.length data j set).2.1
      (cellStep (isDelimiter c) pre.length data j set).2.2
    simpa [cellFold] using this

/-- What `parse` makes of a file with a newline, in arrays of the lengths that were counted. -/
def parsed (stream : List UInt8) (null_returned : Bool) : TSVresult where
  buf := stream.map blank
  column_name := starts 0 (columns stream)
  data := starts ((headerLine stream).length + 1) (cells stream)
  null_returned := null_returned

theorem parse_eq {stream : List UInt8} (h : NL ∈ stream) (null_returned : Bool) :
    parse ⟨List.replicate stream.length 0, List.replicate (columns stream).length none,
      List.replicate (cells stream).length none, null_returned⟩ stream =
      parsed stream null_returned := by
  have hs := stream_eq h
  have hline := NL_not_mem_headerLine stream
  have hheader : (cellFold (· == TAB) (headerLine stream) 0
      (List.replicate (columns stream).length none, 0, true)).1 = starts 0 (columns stream) := by
    -- one more tab would end the last cell and store nothing
    have hstarts := cellFold_starts (· == TAB) (headerLine stream ++ [TAB]) 0 []
    rw [ended_snoc _ (by decide), cellFold_append, List.countP_append] at hstarts
    rw [length_columns]
    simpa [cellFold, cellStep, columns, List.splitOn_eq_splitOnP, List.count] using hstarts
  have hdata : (cellFold isDelimiter (tsvSkipLine stream) ((headerLine stream).length + 1)
      (List.replicate (cells stream).length none, 0, true)).1 =
        starts ((headerLine stream).length + 1) (cells stream) := by
    have hstarts := cellFold_starts isDelimiter (tsvSkipLine stream)
      ((headerLine stream).length + 1) []
    simpa [cells] using hstarts
  have hparse := parseLoop_header hline (NL :: tsvSkipLine stream) []
    (List.replicate (cells stream).length none) null_returned
    (List.replicate (columns stream).length none) 0 true
  rw [← hs] at hparse
  rw [parse, parsed]
  simp only [List.map_nil, List.nil_append, List.length_nil] at hparse
  -- the newline of the header: from here on the cells go to `data`, from index 0
  rw [hparse, hheader, parseLoop, parseByte]
  dsimp only
  rw [if_neg (by simp), if_pos rfl, if_pos rfl, List.length_cons, set_buf]
  have hrest := parseLoop_data (tsvSkipLine stream) (headerLine stream ++ [NL])
    (starts 0 (columns stream)) null_returned (List.replicate (cells stream).length none) 0 true
  rw [List.append_assoc, List.singleton_append, ← hs, List.length_append, List.length_singleton,
    hdata] at hrest
  exact hrest

/-! `TSVcheck` -/

/-- A value that the array has. -/
theorem TSVgetvalue_of_lt {r : TSVresult} {i j : ℕ}
    (h : r.column_name.length * i + j < r.data.length) (hlen : r.data.length ≤ INT_MAX) :
    ∃ v, r.data[r.column_name.length * i + j]? = some v ∧ TSVgetvalue r i j = some (v, r) := by
  refine ⟨_, List.getElem?_eq_getElem h, ?_⟩
  rw [TSVgetvalue, dataAt, if_neg (by omega), if_neg (by omega), List.getElem?_eq_getElem h,
    Option.map_some]

theorem checkColumns_eq {r : TSVresult} (hlen : r.data.length ≤ INT_MAX) {i n j : ℕ}
    (h : r.column_name.length * i + j + n ≤ r.data.length) :
    ∃ ok, checkColumns i n j r = some (ok, r) ∧
      (ok = true ↔ ∀ k < n, r.data[r.column_name.length * i + j + k]? ≠ some none) := by
  induction n generalizing j with
  | zero => exact ⟨true, rfl, by simp⟩
  | succ n ih =>
    obtain ⟨v, hv, hget⟩ := TSVgetvalue_of_lt (r := r) (i := i) (j := j) (by omega) hlen
    rw [checkColumns, hget, Option.bind_some]
    simp only [Nat.forall_lt_succ_left, Nat.add_zero, hv]
    cases v with
    | none => exact ⟨false, rfl, by simp⟩
    | some p =>
      obtain ⟨ok, hrun, hok⟩ := ih (j := j + 1) (by omega)
      have hnext (k : ℕ) : r.column_name.length * i + j + (k + 1) =
          r.column_name.length * i + (j + 1) + k := by omega
      simp only [hnext]
      exact ⟨ok, by simpa using hrun, by simpa using hok⟩

theorem forall_lt_add_iff {q : ℕ → Prop} {m n : ℕ} :
    (∀ k < m + n, q k) ↔ (∀ k < m, q k) ∧ ∀ k < n, q (m + k) := by
  constructor
  · exact fun h => ⟨fun k hk => h k (by omega), fun k hk => h (m + k) (by omega)⟩
  · rintro ⟨hm, hn⟩ k hk
    by_cases hlt : k < m
    · exact hm k hlt
    · have := hn (k - m) (by omega)
      rwa [Nat.add_sub_cancel' (by omega)] at this

theorem checkRows_eq {r : TSVresult} (hlen : r.data.length ≤ INT_MAX) {n i : ℕ}
    (h : r.column_name.length * (i + n) ≤ r.data.length) :
    ∃ ok, checkRows r.column_name.length n i r = some (ok, r) ∧
      (ok = true ↔ ∀ k < r.column_name.length * n,
        r.data[r.column_name.length * i + k]? ≠ some none) := by
  induction n generalizing i with
  | zero => exact ⟨true, rfl, by simp⟩
  | succ n ih =>
    have hstep : r.column_name.length * (i + (n + 1)) =
        r.column_name.length * i + r.column_name.length + r.column_name.length * n := by ring
    have hnext : r.column_name.length * (i + 1 + n) = r.column_name.length * (i + (n + 1)) := by
      ring
    obtain ⟨ok, hrow, hok⟩ := checkColumns_eq hlen (i := i) (j := 0) (n := r.column_name.length)
      (by omega)
    rw [checkRows, hrow, Option.bind_some]
    -- the first row, then the others
    simp only [Nat.mul_succ, Nat.add_comm (_ * n), forall_lt_add_iff, ← Nat.add_assoc]
    rw [Nat.add_zero] at hok
    rw [← hok]
    cases ok with
    | false => exact ⟨false, rfl, by simp⟩
    | true =>
      obtain ⟨ok', hrun, hok'⟩ := ih (i := i + 1) (by omega)
      rw [Nat.mul_succ] at hok'
      exact ⟨ok', by simpa using hrun, by simpa using hok'⟩

/-! `TSVinit` -/

/-- The number of the cells in whole rows. -/
def checked (stream : List UInt8) : ℕ :=
  (columns stream).length * ((cells stream).length / (columns stream).length)

/-- The file can be read, a line behind its header has a cell with an end, and no cell of the whole
rows is empty. -/
def Accepted (w : World) (stream : List UInt8) : Prop :=
  w = ⟨true, true, true, true⟩ ∧ cells stream ≠ [] ∧ [] ∉ (cells stream).take (checked stream)

theorem not_mem_take_iff {α : Type*} {l : List α} {n : ℕ} {a : α} :
    a ∉ l.take n ↔ ∀ k < n, l[k]? ≠ some a := by
  rw [List.mem_iff_getElem?, not_exists]
  refine forall_congr' fun k => ?_
  by_cases hk : k < n
  · simp [List.getElem?_take_of_lt hk, hk]
  · simp [hk]

theorem length_cells_lt {stream : List UInt8} (h : NL ∈ stream) :
    (cells stream).length < stream.length := by
  rw [cells, length_ended]
  calc (tsvSkipLine stream).countP isDelimiter ≤ (tsvSkipLine stream).length :=
        List.countP_le_length
    _ < stream.length := by
      conv_rhs => rw [stream_eq h]
      simp
      omega

@[simp] theorem length_column_name_parsed (stream : List UInt8) (null_returned : Bool) :
    (parsed stream null_returned).column_name.length = (columns stream).length :=
  length_starts _ _

@[simp] theorem length_data_parsed (stream : List UInt8) (null_returned : Bool) :
    (parsed stream null_returned).data.length = (cells stream).length :=
  length_starts _ _

theorem TSVcheck_parsed {stream : List UInt8} (hlen : (cells stream).length ≤ INT_MAX)
    (null_returned : Bool) :
    ∃ ok, TSVcheck (parsed stream null_returned) = some (ok, parsed stream null_returned) ∧
      (ok = true ↔ [] ∉ (cells stream).take (checked stream)) := by
  have hcols := length_column_name_parsed stream null_returned
  have hdata := length_data_parsed stream null_returned
  have hpos : (columns stream).length ≠ 0 := by simp [columns_ne_nil]
  have hrows : (parsed stream null_returned).column_name.length *
      (0 + (cells stream).length / (columns stream).length) ≤
        (parsed stream null_returned).data.length := by
    rw [hcols, hdata, Nat.zero_add]
    exact Nat.mul_div_le _ _
  obtain ⟨ok, hrun, hok⟩ := checkRows_eq (hdata ▸ hlen) hrows
  refine ⟨ok, ?_, hok.trans ?_⟩
  · rw [TSVcheck, TSVntuples, if_neg (hcols ▸ hpos), hdata]
    rwa [hcols] at hrun ⊢
  · rw [not_mem_take_iff, hcols, Nat.mul_zero]
    simp only [Nat.zero_add, parsed, ne_eq, starts_none]
    rfl

theorem getDataLength_eq {stream : List UInt8} (hlen : stream.length ≤ INT_MAX) :
    getDataLength stream = some (cells stream).length := by
  have hle : (tsvSkipLine stream).countP isDelimiter ≤ INT_MAX := by
    by_cases h : NL ∈ stream
    · have := length_cells_lt h
      rw [cells, length_ended] at this
      omega
    · rw [tsvSkipLine_eq_nil h]
      exact Nat.zero_le _
  rw [getDataLength, countLoop_eq (by omega), Nat.zero_add, cells, length_ended]

theorem getColumnNameLength_eq {stream : List UInt8} (hlen : stream.length ≤ INT_MAX) :
    ∃ l, getColumnNameLength stream = some l ∧ (NL ∈ stream → l = (columns stream).length) := by
  by_cases h : NL ∈ stream
  · refine ⟨(columns stream).length, ?_, fun _ => rfl⟩
    have hcount : (headerLine stream).count TAB + 1 ≤ stream.length := by
      conv_rhs => rw [stream_eq h]
      have := List.count_le_length (a := TAB) (l := headerLine stream)
      simp
      omega
    have hloop := getColumnNameLengthLoop_line (NL_not_mem_headerLine stream) (tsvSkipLine stream)
      (show 0 + (headerLine stream).count TAB + 1 ≤ INT_MAX by omega)
    rwa [← stream_eq h, Nat.zero_add, ← length_columns] at hloop
  · obtain ⟨l, hl⟩ := Option.isSome_iff_exists.mp
      (getColumnNameLengthLoop_isSome (show 0 + stream.length ≤ INT_MAX by omega))
    exact ⟨l, hl, fun hNL => absurd hNL h⟩

/-- Without a newline there are no cells behind the header. -/
theorem NL_mem_of_cells {stream : List UInt8} (h : cells stream ≠ []) : NL ∈ stream := by
  by_contra hNL
  rw [cells, tsvSkipLine_eq_nil hNL] at h
  exact h rfl

/-- Without the file, without memory or without a cell nothing is parsed. -/
theorem TSVinit_refused {stream : List UInt8} (hlen : stream.length ≤ INT_MAX) {w : World}
    (h : w ≠ ⟨true, true, true, true⟩ ∨ cells stream = []) (r : TSVresult) :
    ∃ r', TSVinit w stream r = some (false, r') := by
  obtain ⟨l, hl, -⟩ := getColumnNameLength_eq hlen
  obtain ⟨fopen, buf, column_name, data⟩ := w
  rw [TSVinit, getBufLength_eq hlen, hl, getDataLength_eq hlen]
  simp only [Option.bind_some]
  cases fopen with
  | false => exact ⟨_, rfl⟩
  | true =>
  rw [if_neg (by decide)]
  by_cases hbuf : stream.length = 0
  · exact ⟨_, if_pos hbuf⟩
  rw [if_neg hbuf]
  cases buf with
  | false => exact ⟨_, rfl⟩
  | true =>
  rw [if_neg (by decide)]
  by_cases hname : l = 0
  · exact ⟨_, if_pos hname⟩
  rw [if_neg hname]
  cases column_name with
  | false => exact ⟨_, rfl⟩
  | true =>
  rw [if_neg (by decide)]
  by_cases hdata : (cells stream).length = 0
  · exact ⟨_, if_pos hdata⟩
  rw [if_neg hdata]
  cases data with
  | false => exact ⟨_, rfl⟩
  | true =>
    have hcells := h.resolve_left (not_not.mpr rfl)
    exact absurd (List.length_eq_zero_iff.mpr hcells) hdata

/-- A file with a cell is parsed and then checked. -/
theorem TSVinit_checked {stream : List UInt8} (hlen : stream.length ≤ INT_MAX)
    (hcells : cells stream ≠ []) (r : TSVresult) :
    TSVinit ⟨true, true, true, true⟩ stream r = TSVcheck (parsed stream r.null_returned) := by
  have hNL := NL_mem_of_cells hcells
  obtain ⟨l, hl, hcols⟩ := getColumnNameLength_eq hlen
  rw [TSVinit, getBufLength_eq hlen, hl, getDataLength_eq hlen]
  simp only [Option.bind_some, Bool.not_true, Bool.false_eq_true, if_false]
  rw [hcols hNL, if_neg (List.length_pos_of_mem hNL).ne', if_neg (by simp [columns_ne_nil]),
    if_neg (by simpa using hcells), parse_eq hNL]

theorem TSVinit_eq {stream : List UInt8} (hlen : stream.length ≤ INT_MAX) (w : World)
    (r : TSVresult) : ∃ ok r', TSVinit w stream r = some (ok, r') ∧
      (ok = true ↔ Accepted w stream) ∧ (ok = true → r' = parsed stream r.null_returned) := by
  by_cases h : w ≠ ⟨true, true, true, true⟩ ∨ cells stream = []
  · obtain ⟨r', hr'⟩ := TSVinit_refused hlen h r
    refine ⟨false, r', hr', iff_of_false (by decide) fun hacc => ?_, nofun⟩
    exact h.elim (fun hw => hw hacc.1) hacc.2.1
  · obtain ⟨hw, hcells⟩ := not_or.mp h
    obtain rfl := not_not.mp hw
    have hlt := length_cells_lt (NL_mem_of_cells hcells)
    obtain ⟨ok, hrun, hok⟩ := TSVcheck_parsed (hlt.le.trans hlen) r.null_returned
    refine ⟨ok, _, (TSVinit_checked hlen hcells r).trans hrun, hok.trans ?_, fun _ => rfl⟩
    exact ⟨fun hempty => ⟨rfl, hcells, hempty⟩, fun hacc => hacc.2.2⟩

theorem TSVinit_none {w : World} {stream : List UInt8} (hw : w.fopen = true)
    (h : INT_MAX < stream.length) (r : TSVresult) : TSVinit w stream r = none := by
  rw [TSVinit, hw, getBufLength_none h]
  rfl

end Regonf.Tsv
