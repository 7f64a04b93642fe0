import Regonf.Configl
import Regonf.DbText
import Regonf.TsvTable

/-! The settings of the daemon: `readSettings` of `main.c` on `config.tsv`, with the readers of
values in `lib/tsv.c`. -/
namespace Regonf.Tsv

open Cells

section
variable {V : Type*}

/-- `TSVgetis` and its siblings: the text of a lookup by name, converted; NULL gives `zero`. -/
def TSVgets (convert : List UInt8 → V) (zero : V) (r : TSVresult) (row_number : ℕ)
    (column_name : List UInt8) : Option (V × TSVresult) :=
  (TSVgetvalues r row_number column_name).bind fun v =>
    match v.1 with
    | none => some (zero, v.2)
    | some a => (cString (v.2.buf.drop a)).map fun s => (convert s, v.2)

def TSVgetis : TSVresult → ℕ → List UInt8 → Option (ℤ × TSVresult) := TSVgets Configl.atoi 0

/-- `atof` stands for the function of the library and the conversion to `float`. -/
def TSVgetfs [Zero V] (atof : List UInt8 → V) :
    TSVresult → ℕ → List UInt8 → Option (V × TSVresult) :=
  TSVgets atof 0

end

/-- The globals that `readSettings` is called for. The path is a pointer into the buffer. -/
structure Settings where
  sock_port : ℤ
  cycle_duration : Timespec
  db_data_path : Option ℕ
deriving DecidableEq, Repr

def readSettings (w : World) (stream : List UInt8) (r : TSVresult) (s : Settings) :
    Option (Bool × TSVresult × Settings) := do
  let (ok, r) ← TSVinit w stream r
  if !ok then return (false, r, s)
  let (_port, r) ← TSVgetis r 0 (ascii "port")
  let (_cd_sec, r) ← TSVgetis r 0 (ascii "cd_sec")
  let (_cd_nsec, r) ← TSVgetis r 0 (ascii "cd_nsec")
  let (_db_data_path, r) ← TSVgetvalues r 0 (ascii "db_data_path")
  if r.null_returned then return (false, r, s)
  return (true, r, ⟨_port, ⟨_cd_sec, _cd_nsec⟩, _db_data_path⟩)

/-! What the lookups find in a file. -/

/-- What a lookup by name comes to: a comparison with NULL or an index that is no `int`, the end of
the header or of the array, or a cell. -/
inductive Found where
  | undefined
  | absent
  | cell (text : List UInt8)
deriving DecidableEq, Repr

def found (stream : List UInt8) (row_number : ℕ) (column_name : List UInt8) : Found :=
  match (columns stream).findIdx? (stopsAt column_name) with
  | none => .absent
  | some k =>
    if (columns stream)[k]? = some [] ∨ INT_MAX < (columns stream).length * row_number + k then
      .undefined
    else
      match (cells stream)[(columns stream).length * row_number + k]? with
      | none => .absent
      | some text => .cell text

/-- The value of a lookup, and whether the flag is set. -/
def Found.value {V : Type*} (convert : List UInt8 → V) (zero : V) : Found → Option (V × Bool)
  | .undefined => none
  | .absent => some (zero, true)
  | .cell text => some (if text = [] then zero else convert (text.takeWhile (· ≠ 0)), false)

/-- What a lookup by name gives; an empty cell has no pointer. -/
def Found.Shows (stream : List UInt8) (null_returned : Bool) :
    Found → Option (Option ℕ × TSVresult) → Prop
  | .undefined, v => v = none
  | .absent, v => v = some (none, parsed stream true)
  | .cell text, v => ∃ p, v = some (p, parsed stream null_returned) ∧
      Points (parsed stream null_returned) text p

theorem TSVgetvalues_shows {stream : List UInt8} (hNL : NL ∈ stream) (null_returned : Bool)
    (row_number : ℕ) (column_name : List UInt8) :
    (found stream row_number column_name).Shows stream null_returned
      (TSVgetvalues (parsed stream null_returned) row_number column_name) := by
  rw [TSVgetvalues, getvaluesLoop_eq (forall₂_points hNL null_returned), found]
  cases (columns stream).findIdx? (stopsAt column_name) with
  | none => rfl
  | some k =>
    dsimp only
    rw [Nat.zero_add]
    by_cases hnil : (columns stream)[k]? = some []
    · rw [if_pos hnil, if_pos (Or.inl hnil)]
      rfl
    rw [if_neg hnil, dataAt, length_column_name_parsed, length_data_parsed]
    -- the product of the index overflows an `int`
    by_cases hint : INT_MAX < (columns stream).length * row_number + k
    · rw [if_pos hint, if_pos (Or.inr hint)]
      rfl
    rw [if_neg hint, if_neg (not_or.mpr ⟨hnil, hint⟩)]
    cases hcell : (cells stream)[(columns stream).length * row_number + k]? with
    | none =>
      rw [if_pos (List.getElem?_eq_none_iff.mp hcell)]
      rfl
    | some text =>
      obtain ⟨hlt, -⟩ := List.getElem?_eq_some_iff.mp hcell
      obtain ⟨p, hp, hpoints⟩ := points_cells hcell null_returned
      rw [if_neg (not_le.mpr hlt), hp]
      exact ⟨p, rfl, hpoints⟩

/-- What the readers of values make of a file. -/
theorem TSVgets_found {V : Type*} {stream : List UInt8} (hNL : NL ∈ stream)
    (convert : List UInt8 → V) (zero : V) (null_returned : Bool) (row_number : ℕ)
    (column_name : List UInt8) :
    TSVgets convert zero (parsed stream null_returned) row_number column_name =
      ((found stream row_number column_name).value convert zero).map fun v =>
        (v.1, parsed stream (null_returned || v.2)) := by
  have hshows := TSVgetvalues_shows hNL null_returned row_number column_name
  rw [TSVgets]
  cases hf : found stream row_number column_name with
  | undefined =>
    rw [hf] at hshows
    rw [show TSVgetvalues _ _ _ = none from hshows]
    rfl
  | absent =>
    rw [hf] at hshows
    rw [show TSVgetvalues _ _ _ = some _ from hshows]
    simp [Found.value]
  | cell text =>
    rw [hf] at hshows
    obtain ⟨p, hget, hpoints⟩ := hshows
    rw [hget]
    rcases hpoints with ⟨rfl, rfl⟩ | ⟨hne, a, rfl, hs⟩
    · simp [Found.value]
    · simp [Found.value, hne, hs]

/-- A value that is defined: the flag tells that nothing was found. -/
theorem Found.value_of_ne {V : Type*} (convert : List UInt8 → V) (zero : V) {f : Found}
    (h : f ≠ .undefined) : ∃ v, f.value convert zero = some (v, decide (f = .absent)) := by
  cases f with
  | undefined => exact absurd rfl h
  | absent => exact ⟨zero, by simp [value]⟩
  | cell text => exact ⟨_, by simp [value]; rfl⟩

theorem Found.Shows.of_ne {stream : List UInt8} {null_returned : Bool} {f : Found}
    {v : Option (Option ℕ × TSVresult)} (h : f.Shows stream null_returned v)
    (hf : f ≠ .undefined) :
    ∃ p, v = some (p, parsed stream (null_returned || decide (f = .absent))) ∧
      ∀ text, f = .cell text → Points (parsed stream null_returned) text p := by
  cases f with
  | undefined => exact absurd rfl hf
  | absent => exact ⟨none, by simpa [Shows] using h, nofun⟩
  | cell text =>
    obtain ⟨p, hv, hpoints⟩ := h
    refine ⟨p, by simpa using hv, ?_⟩
    rintro _ ⟨⟩
    exact hpoints

/-! `readSettings` -/

def settingNames : List (List UInt8) :=
  [ascii "port", ascii "cd_sec", ascii "cd_nsec", ascii "db_data_path"]

/-- The integer that `TSVgetis` makes of a cell. -/
def Found.int (f : Found) : ℤ := ((f.value Configl.atoi 0).map (·.1)).getD 0

/-- The settings are those of the first cells under the four names. -/
structure ReadFrom (stream : List UInt8) (r : TSVresult) (s : Settings) : Prop where
  sock_port : s.sock_port = (found stream 0 (ascii "port")).int
  tv_sec : s.cycle_duration.tv_sec = (found stream 0 (ascii "cd_sec")).int
  tv_nsec : s.cycle_duration.tv_nsec = (found stream 0 (ascii "cd_nsec")).int
  db_data_path : ∃ text, found stream 0 (ascii "db_data_path") = .cell text ∧
    Points r text s.db_data_path

theorem TSVgetis_of_ne {stream : List UInt8} (hNL : NL ∈ stream) (null_returned : Bool)
    {row_number : ℕ} {column_name : List UInt8}
    (h : found stream row_number column_name ≠ .undefined) :
    TSVgetis (parsed stream null_returned) row_number column_name =
      some ((found stream row_number column_name).int, parsed stream
        (null_returned || decide (found stream row_number column_name = .absent))) := by
  obtain ⟨v, hv⟩ := Found.value_of_ne Configl.atoi 0 h
  rw [TSVgetis, TSVgets_found hNL, Found.int, hv]
  rfl

theorem TSVgetis_undefined {stream : List UInt8} (hNL : NL ∈ stream) (null_returned : Bool)
    {row_number : ℕ} {column_name : List UInt8}
    (h : found stream row_number column_name = .undefined) :
    TSVgetis (parsed stream null_returned) row_number column_name = none := by
  rw [TSVgetis, TSVgets_found hNL, h]
  rfl

variable {w : World} {stream : List UInt8}

/-- In an accepted file every lookup is made, also behind one that found nothing. -/
theorem readSettings_undefined (hlen : stream.length ≤ INT_MAX) (hacc : Accepted w stream)
    {name : List UInt8} (hname : name ∈ settingNames) (h : found stream 0 name = .undefined)
    (s : Settings) : readSettings w stream TSVRESULT_INITIALIZER s = none := by
  obtain ⟨ok, r', hinit, hok, hr⟩ := TSVinit_eq hlen w TSVRESULT_INITIALIZER
  obtain rfl := hok.mpr hacc
  obtain rfl := hr rfl
  have hNL := NL_mem_of_cells hacc.2.1
  rw [readSettings, hinit]
  simp only [Option.bind_eq_bind, Option.bind_some, Bool.not_true, Bool.false_eq_true, if_false]
  -- the first of the four lookups that is undefined ends the run
  by_cases hport : found stream 0 (ascii "port") = .undefined
  · rw [TSVgetis_undefined hNL _ hport]
    rfl
  rw [TSVgetis_of_ne hNL _ hport, Option.bind_some]
  by_cases hsec : found stream 0 (ascii "cd_sec") = .undefined
  · rw [TSVgetis_undefined hNL _ hsec]
    rfl
  rw [TSVgetis_of_ne hNL _ hsec, Option.bind_some]
  by_cases hnsec : found stream 0 (ascii "cd_nsec") = .undefined
  · rw [TSVgetis_undefined hNL _ hnsec]
    rfl
  rw [TSVgetis_of_ne hNL _ hnsec, Option.bind_some]
  have hpath : found stream 0 (ascii "db_data_path") = .undefined := by
    simp only [settingNames, List.mem_cons, List.not_mem_nil, or_false] at hname
    rcases hname with rfl | rfl | rfl | rfl
    · exact absurd h hport
    · exact absurd h hsec
    · exact absurd h hnsec
    · exact h
  have hshows := TSVgetvalues_shows hNL (TSVRESULT_INITIALIZER.null_returned ||
    decide (found stream 0 (ascii "port") = .absent) ||
    decide (found stream 0 (ascii "cd_sec") = .absent) ||
    decide (found stream 0 (ascii "cd_nsec") = .absent)) 0 (ascii "db_data_path")
  rw [hpath] at hshows
  rw [show TSVgetvalues _ _ _ = none from hshows]
  rfl

theorem readSettings_defined (hlen : stream.length ≤ INT_MAX) (hacc : Accepted w stream)
    (h : ∀ name ∈ settingNames, found stream 0 name ≠ .undefined) (s : Settings) :
    (∃ name ∈ settingNames, found stream 0 name = .absent) ∧
        readSettings w stream TSVRESULT_INITIALIZER s = some (false, parsed stream true, s) ∨
      (∀ name ∈ settingNames, ∃ text, found stream 0 name = .cell text) ∧ ∃ s',
        readSettings w stream TSVRESULT_INITIALIZER s = some (true, parsed stream false, s') ∧
          ReadFrom stream (parsed stream false) s' := by
  obtain ⟨ok, r', hinit, hok, hr⟩ := TSVinit_eq hlen w TSVRESULT_INITIALIZER
  obtain rfl := hok.mpr hacc
  obtain rfl := hr rfl
  have hNL := NL_mem_of_cells hacc.2.1
  have hdef := h
  simp only [settingNames, List.forall_mem_cons, List.not_mem_nil, false_imp_iff,
    implies_true, and_true] at hdef
  obtain ⟨hport, hsec, hnsec, hpath⟩ := hdef
  obtain ⟨p, hp, hpoints⟩ := (TSVgetvalues_shows hNL (TSVRESULT_INITIALIZER.null_returned ||
    decide (found stream 0 (ascii "port") = .absent) ||
    decide (found stream 0 (ascii "cd_sec") = .absent) ||
    decide (found stream 0 (ascii "cd_nsec") = .absent)) 0 (ascii "db_data_path")).of_ne hpath
  rw [readSettings, hinit]
  simp only [Option.bind_eq_bind, Option.bind_some, Bool.not_true, Bool.false_eq_true, if_false,
    TSVgetis_of_ne hNL _ hport, TSVgetis_of_ne hNL _ hsec, TSVgetis_of_ne hNL _ hnsec, hp]
  by_cases habs : ∃ name ∈ settingNames, found stream 0 name = .absent
  · refine Or.inl ⟨habs, ?_⟩
    -- one lookup that found nothing leaves the flag of the file set
    have hflag : (TSVRESULT_INITIALIZER.null_returned ||
        decide (found stream 0 (ascii "port") = .absent) ||
        decide (found stream 0 (ascii "cd_sec") = .absent) ||
        decide (found stream 0 (ascii "cd_nsec") = .absent) ||
        decide (found stream 0 (ascii "db_data_path") = .absent)) = true := by
      simpa [settingNames, or_assoc, TSVRESULT_INITIALIZER] using habs
    rw [hflag]
    rfl
  · have hcell : ∀ name ∈ settingNames, ∃ text, found stream 0 name = .cell text := by
      intro name hname
      cases hf : found stream 0 name with
      | undefined => exact absurd hf (h name hname)
      | absent => exact absurd ⟨name, hname, hf⟩ habs
      | cell text => exact ⟨text, rfl⟩
    have hflag (name : List UInt8) (hname : name ∈ settingNames) :
        decide (found stream 0 name = .absent) = false :=
      decide_eq_false fun hf => habs ⟨name, hname, hf⟩
    rw [hflag (ascii "port") (by decide), hflag (ascii "cd_sec") (by decide),
      hflag (ascii "cd_nsec") (by decide), hflag (ascii "db_data_path") (by decide)]
    refine Or.inr ⟨hcell, _, rfl, rfl, rfl, rfl, ?_⟩
    obtain ⟨text, htext⟩ := hcell (ascii "db_data_path") (by decide)
    refine ⟨text, htext, ?_⟩
    have := hpoints text htext
    rwa [hflag (ascii "port") (by decide), hflag (ascii "cd_sec") (by decide),
      hflag (ascii "cd_nsec") (by decide)] at this

/-- What `readSettings` makes of any file that an `int` can count. It is undefined if and only if
the file is accepted, and the lookup of one of the four names stops at an empty cell of the header
or at a cell whose number is no `int`. It succeeds if and only if each name leads to a cell of the
first row, and then these are the settings; where it fails the settings stay. -/
theorem readSettings_file (hlen : stream.length ≤ INT_MAX) (w : World) (s : Settings) :
    (readSettings w stream TSVRESULT_INITIALIZER s = none ↔
      Accepted w stream ∧ ∃ name ∈ settingNames, found stream 0 name = .undefined) ∧
    ((∃ r' s', readSettings w stream TSVRESULT_INITIALIZER s = some (true, r', s')) ↔
      Accepted w stream ∧ ∀ name ∈ settingNames, ∃ text, found stream 0 name = .cell text) ∧
    ∀ ok r' s', readSettings w stream TSVRESULT_INITIALIZER s = some (ok, r', s') →
      if ok then ReadFrom stream r' s' else s' = s := by
  by_cases hacc : Accepted w stream
  swap
  · -- the file is refused
    obtain ⟨ok, r', hinit, hok, -⟩ := TSVinit_eq hlen w TSVRESULT_INITIALIZER
    have hfalse : ok = false := Bool.eq_false_iff.mpr fun h => hacc (hok.mp h)
    have hrun : readSettings w stream TSVRESULT_INITIALIZER s = some (false, r', s) := by
      rw [readSettings, hinit, hfalse]
      rfl
    refine ⟨by simp [hrun, hacc], by simp [hrun, hacc], ?_⟩
    rintro _ _ _ h
    cases hrun.symm.trans h
    rfl
  -- the file is accepted: a lookup is undefined, finds nothing, or all find a cell
  by_cases hundef : ∃ name ∈ settingNames, found stream 0 name = .undefined
  · obtain ⟨name, hname, hf⟩ := hundef
    have hrun := readSettings_undefined hlen hacc hname hf s
    refine ⟨by simp only [hrun, hacc, true_and, true_iff]; exact ⟨name, hname, hf⟩, ?_, ?_⟩
    · refine iff_of_false (by simp [hrun]) fun h => ?_
      obtain ⟨text, htext⟩ := h.2 name hname
      cases hf.symm.trans htext
    · rintro _ _ _ h
      cases hrun.symm.trans h
  · have hdef : ∀ name ∈ settingNames, found stream 0 name ≠ .undefined :=
      fun name hname hf => hundef ⟨name, hname, hf⟩
    rcases readSettings_defined hlen hacc hdef s with ⟨⟨name, hname, hf⟩, hrun⟩ |
      ⟨hcell, s', hrun, hread⟩
    · refine ⟨iff_of_false (by simp [hrun]) fun h => hundef h.2, ?_, ?_⟩
      · refine iff_of_false (by simp [hrun]) fun h => ?_
        obtain ⟨text, htext⟩ := h.2 name hname
        cases hf.symm.trans htext
      · rintro _ _ _ h
        cases hrun.symm.trans h
        rfl
    · refine ⟨iff_of_false (by simp [hrun]) fun h => hundef h.2,
        iff_of_true ⟨_, s', hrun⟩ ⟨hacc, hcell⟩, ?_⟩
      rintro _ _ _ h
      cases hrun.symm.trans h
      exact hread

/-- The last theorem for the text `port<NL>1<NL>`, in which three names are missing. -/
theorem readSettings_file_example :
    let stream := ascii "port\n1\n"
    (readSettings ⟨true, true, true, true⟩ stream TSVRESULT_INITIALIZER ⟨-1, ⟨0, 0⟩, none⟩ = none ↔
      Accepted ⟨true, true, true, true⟩ stream ∧
        ∃ name ∈ settingNames, found stream 0 name = .undefined) ∧
    ((∃ r' s', readSettings ⟨true, true, true, true⟩ stream TSVRESULT_INITIALIZER
        ⟨-1, ⟨0, 0⟩, none⟩ = some (true, r', s')) ↔
      Accepted ⟨true, true, true, true⟩ stream ∧
        ∀ name ∈ settingNames, ∃ text, found stream 0 name = .cell text) ∧
    ∀ ok r' s', readSettings ⟨true, true, true, true⟩ stream TSVRESULT_INITIALIZER
        ⟨-1, ⟨0, 0⟩, none⟩ = some (ok, r', s') →
      if ok then ReadFrom stream r' s' else s' = ⟨-1, ⟨0, 0⟩, none⟩ :=
  readSettings_file (by decide) ⟨true, true, true, true⟩ ⟨-1, ⟨0, 0⟩, none⟩

/-! Settings written as a table. -/

theorem takeWhile_isCell {cell : List UInt8} (h : IsCell cell) : cell.takeWhile (· ≠ 0) = cell := by
  refine List.takeWhile_eq_self_iff.mpr fun x hx => ?_
  rw [decide_eq_true_eq]
  rintro rfl
  exact h.2.2.2 hx

namespace TSVTable

variable (t : TSVTable)

/-- The cell of a row under a name. -/
def cell? (i : ℕ) (name : List UInt8) : Option (List UInt8) :=
  (t.names.findIdx? (· = name)).bind fun j => (t.rows[i]?).bind (·[j]?)

/-- Where the lookup of a name stops in the header. -/
theorem findIdx?_stopsAt (name : List UInt8) :
    t.names.findIdx? (stopsAt name) = t.names.findIdx? (· = name) := by
  cases hj : t.names.findIdx? (· = name) with
  | some j =>
    obtain ⟨hlt, hname, -⟩ := List.findIdx?_eq_some_iff_getElem.mp hj
    exact t.findIdx?_name (List.getElem?_eq_some_iff.mpr ⟨hlt, of_decide_eq_true hname⟩)
  | none =>
    rw [List.findIdx?_eq_none_iff] at hj ⊢
    intro cell hcell
    have hname := t.isCell_name cell hcell
    rw [stopsAt, takeWhile_isCell hname, decide_eq_false hname.1, Bool.false_or]
    exact decide_eq_false fun h => of_decide_eq_false (hj cell hcell) h.symm

/-- A lookup in the text of a table finds the cell of its row. -/
theorem found_text (hlen : t.text.length ≤ INT_MAX) {i : ℕ} (hi : i < t.rows.length)
    (name : List UInt8) :
    found t.text i name = match t.cell? i name with
      | none => .absent
      | some text => .cell text := by
  rw [found, t.columns_text, t.findIdx?_stopsAt, cell?]
  cases hj : t.names.findIdx? (· = name) with
  | none => rfl
  | some j =>
    obtain ⟨hlt, hname, -⟩ := List.findIdx?_eq_some_iff_getElem.mp hj
    have hne : t.names[j]? ≠ some [] := by
      rw [List.getElem?_eq_getElem hlt, ne_eq, Option.some.injEq]
      exact (t.isCell_name _ (List.getElem_mem hlt)).1
    have hcell : (cells t.text)[t.names.length * i + j]? = t.rows[i]?.bind (·[j]?) := by
      rw [t.cells_text, getElem?_flatten t.width i hlt]
    have hrow : j < t.rows[i].length := by
      rw [t.width _ (List.getElem_mem hi)]
      exact hlt
    rw [List.getElem?_eq_getElem hi, Option.bind_some, List.getElem?_eq_getElem hrow] at hcell
    -- the index of the value is below the length of the file
    have hint : ¬INT_MAX < t.names.length * i + j := by
      have hlt' := (List.getElem?_eq_some_iff.mp hcell).1
      have := length_cells_lt (NL_mem_of_cells t.accepted.2.1)
      omega
    dsimp only
    rw [if_neg (not_or.mpr ⟨hne, hint⟩), hcell, Option.bind_some, List.getElem?_eq_getElem hi,
      Option.bind_some, List.getElem?_eq_getElem hrow]

theorem isCell_cell? {i : ℕ} {name text : List UInt8} (h : t.cell? i name = some text) :
    IsCell text := by
  obtain ⟨j, -, h⟩ := Option.bind_eq_some_iff.mp h
  obtain ⟨row, hrow, h⟩ := Option.bind_eq_some_iff.mp h
  exact t.isCell row (List.mem_of_getElem? hrow) text (List.mem_of_getElem? h)

theorem found_cell? (hlen : t.text.length ≤ INT_MAX) {i : ℕ} {name text : List UInt8}
    (h : t.cell? i name = some text) : found t.text i name = .cell text := by
  obtain ⟨j, -, hrow⟩ := Option.bind_eq_some_iff.mp h
  obtain ⟨row, hrow, -⟩ := Option.bind_eq_some_iff.mp hrow
  rw [t.found_text hlen (List.getElem?_eq_some_iff.mp hrow).1, h]

theorem int_fmtD (hlen : t.text.length ≤ INT_MAX) {i : ℕ} {name : List UInt8} {v : ℤ}
    (hv : IsInt v) (h : t.cell? i name = some (fmtD v)) : (found t.text i name).int = v := by
  have hcell := t.isCell_cell? h
  rw [t.found_cell? hlen h, Found.int, Found.value, if_neg hcell.1, takeWhile_isCell hcell,
    Configl.atoi, scanInt_fmtD hv]
  rfl

end TSVTable

/-- Settings that are written into the first row of a table, under the four names in any order and
beside any other columns and rows, are read back. -/
theorem readSettings_round_trip (t : TSVTable) (hlen : t.text.length ≤ INT_MAX)
    {sock_port tv_sec tv_nsec : ℤ} {path : List UInt8} (hport : IsInt sock_port)
    (hsec : IsInt tv_sec) (hnsec : IsInt tv_nsec)
    (port_cell : t.cell? 0 (ascii "port") = some (fmtD sock_port))
    (sec_cell : t.cell? 0 (ascii "cd_sec") = some (fmtD tv_sec))
    (nsec_cell : t.cell? 0 (ascii "cd_nsec") = some (fmtD tv_nsec))
    (path_cell : t.cell? 0 (ascii "db_data_path") = some path) (s : Settings) :
    ∃ r a, readSettings ⟨true, true, true, true⟩ t.text TSVRESULT_INITIALIZER s =
        some (true, r, ⟨sock_port, ⟨tv_sec, tv_nsec⟩, some a⟩) ∧
      cString (r.buf.drop a) = some path := by
  have hfound : ∀ name ∈ settingNames, ∃ text, found t.text 0 name = .cell text := by
    simp only [settingNames, List.forall_mem_cons, List.not_mem_nil, false_imp_iff,
      implies_true, and_true]
    exact ⟨⟨_, t.found_cell? hlen port_cell⟩, ⟨_, t.found_cell? hlen sec_cell⟩,
      ⟨_, t.found_cell? hlen nsec_cell⟩, ⟨_, t.found_cell? hlen path_cell⟩⟩
  have hdef : ∀ name ∈ settingNames, found t.text 0 name ≠ .undefined := by
    intro name hname
    obtain ⟨text, htext⟩ := hfound name hname
    simp [htext]
  rcases readSettings_defined hlen t.accepted hdef s with ⟨⟨name, hname, habs⟩, -⟩ |
    ⟨-, ⟨sock_port', ⟨tv_sec', tv_nsec'⟩, p⟩, hrun, hread⟩
  · obtain ⟨text, htext⟩ := hfound name hname
    cases habs.symm.trans htext
  obtain ⟨rfl, rfl, rfl, text, htext, hpoints⟩ := hread
  obtain rfl : path = text := by
    simpa [t.found_cell? hlen path_cell] using htext
  have hpath := t.isCell_cell? path_cell
  rcases hpoints with ⟨hnil, -⟩ | ⟨-, a, rfl, hs⟩
  · exact absurd hnil hpath.1
  refine ⟨_, a, ?_, hs.trans (by rw [takeWhile_isCell hpath])⟩
  rw [hrun, t.int_fmtD hlen hport port_cell, t.int_fmtD hlen hsec sec_cell,
    t.int_fmtD hlen hnsec nsec_cell]

/-- `config.tsv` -/
def configTable : TSVTable where
  names := settingNames
  rows := [[fmtD 49191, fmtD 5, fmtD 0, ascii "/etc/controller/regonf/data.db"]]
  names_ne := by simp [settingNames]
  rows_ne := by simp
  nodup := by decide
  width := by simp [settingNames]
  isCell_name := by decide
  isCell := by decide +kernel

/-- The file of the repository, read at the start of the daemon. -/
theorem readSettings_round_trip_example :
    ∃ r a, readSettings ⟨true, true, true, true⟩ configTable.text TSVRESULT_INITIALIZER
        ⟨-1, ⟨0, 0⟩, none⟩ = some (true, r, ⟨49191, ⟨5, 0⟩, some a⟩) ∧
      cString (r.buf.drop a) = some (ascii "/etc/controller/regonf/data.db") :=
  readSettings_round_trip configTable (by decide +kernel) ⟨by decide, by decide⟩
    ⟨by decide, by decide⟩ ⟨by decide, by decide⟩ (by decide +kernel) (by decide +kernel)
    (by decide +kernel) (by decide +kernel) _

end Regonf.Tsv
