import Regonf.ConfiglLists
import Regonf.FilterExp
import Regonf.FilterMa
import Regonf.TsvSettings

/-! The lists that are read from files: `lib/filter/ma.c`, `lib/filter/exp.c`, `lib/lcorrection.c`
and `lib/lreduction.c`. `R` stands for `float`. -/
namespace Regonf.Tsv

open Configl (atoi putItem roomList)

structure LCorrection (R : Type*) where
  id : ℤ
  factor : R
  delta : R
deriving DecidableEq, Repr

structure LReduction (R : Type*) where
  id : ℤ
  min_in : R
  max_in : R
  min_out : R
  max_out : R
deriving DecidableEq, Repr

section
variable {V : Type*} (zero : V)

/-- `RESIZE_M_LIST`: what is in new memory is not read before `NULL_LIST`. -/
def resizeMList (realloc : Bool) (new_length : ℕ) (list : ItemList V) : ItemList V :=
  if list.max_length < new_length then
    if realloc then
      ⟨(list.item ++ List.replicate new_length zero).take new_length, list.length, new_length⟩
    else ⟨[], 0, 0⟩
  else list

/-- `NULL_LIST` -/
def nullList (list : ItemList V) : ItemList V :=
  ⟨List.replicate list.max_length zero, 0, list.max_length⟩

variable (readRow : ℕ → V → TSVresult → Option (Bool × V × TSVresult))

/-- The loop over the rows from `i` on, of which there are `n`. `readRow` fills an item in and says
whether the loop goes on. -/
def rowsLoop : ℕ → ℕ → TSVresult → ItemList V → Option (ItemList V)
  | 0, _, _, list => some list
  | n + 1, i, r, list =>
    (list.item[i]?).bind fun item => (readRow i item r).bind fun v =>
      if v.1 then rowsLoop n (i + 1) v.2.2 (putItem list v.2.1 (list.length + 1))
      else some { list with item := list.item.set i v.2.1 }

/-- `initLCorrection` and its siblings: the result and the list. -/
def initList (realloc : Bool) (w : World) (stream : List UInt8) (list : ItemList V) :
    Option (Bool × ItemList V) :=
  (TSVinit w stream TSVRESULT_INITIALIZER).bind fun init =>
    if !init.1 then some (false, list)
    else
      let n := TSVntuples init.2
      if n = 0 then some (true, list)
      else
        let list := resizeMList zero realloc n list
        if list.max_length ≠ n then some (false, list)
        else (rowsLoop readRow n 0 init.2 (nullList zero list)).map fun list =>
          (decide (list.length = list.max_length), list)

end

section
variable {R : Type*} [Field R]

/-! The bodies of the loops. `atof` stands for the function of the library and the conversion to
`float`. -/

def lcorrectionRow (atof : List UInt8 → R) (i : ℕ) (item : LCorrection R) (r : TSVresult) :
    Option (Bool × LCorrection R × TSVresult) :=
  (TSVgetis r i (ascii "id")).bind fun id =>
  (TSVgetfs atof id.2 i (ascii "factor")).bind fun factor =>
  (TSVgetfs atof factor.2 i (ascii "delta")).map fun delta =>
    (!delta.2.null_returned, { item with id := id.1, factor := factor.1, delta := delta.1 },
      delta.2)

def initLCorrection (atof : List UInt8 → R) :
    Bool → World → List UInt8 → ItemList (LCorrection R) →
      Option (Bool × ItemList (LCorrection R)) :=
  initList ⟨0, 0, 0⟩ (lcorrectionRow atof)

def lreductionRow (atof : List UInt8 → R) (i : ℕ) (item : LReduction R) (r : TSVresult) :
    Option (Bool × LReduction R × TSVresult) :=
  (TSVgetis r i (ascii "id")).bind fun id =>
  (TSVgetfs atof id.2 i (ascii "min_in")).bind fun min_in =>
  (TSVgetfs atof min_in.2 i (ascii "max_in")).bind fun max_in =>
  (TSVgetfs atof max_in.2 i (ascii "min_out")).bind fun min_out =>
  (TSVgetfs atof min_out.2 i (ascii "max_out")).map fun max_out =>
    (!max_out.2.null_returned, { item with
      id := id.1, min_in := min_in.1, max_in := max_in.1, min_out := min_out.1,
      max_out := max_out.1 }, max_out.2)

def initLReduction (atof : List UInt8 → R) :
    Bool → World → List UInt8 → ItemList (LReduction R) →
      Option (Bool × ItemList (LReduction R)) :=
  initList ⟨0, 0, 0, 0, 0⟩ (lreductionRow atof)

/-- `malloc` says what is in the new memory of item `i`, if there is any. A negative length is a
`size_t` that no memory has. -/
def fmaRow (malloc : ℕ → (n : ℕ) → Option (List.Vector R n)) (i : ℕ) (item : FilterMA R)
    (r : TSVresult) : Option (Bool × FilterMA R × TSVresult) :=
  (TSVgetis r i (ascii "id")).bind fun id =>
  (TSVgetis id.2 i (ascii "length")).map fun length =>
    let item := { item with id := id.1, length := length.1, i := 0, c_length := 0 }
    if length.2.null_returned then (false, item, length.2)
    else if length.1 < 0 then (false, { item with buf := [] }, length.2)
    else
      match malloc i length.1.toNat with
      | none => (false, { item with buf := [] }, length.2)
      | some buf => (true, { item with buf := buf.toList }, length.2)

def fma_initList (malloc : ℕ → (n : ℕ) → Option (List.Vector R n)) :
    Bool → World → List UInt8 → ItemList (FilterMA R) → Option (Bool × ItemList (FilterMA R)) :=
  initList ⟨0, [], 0, 0, 0⟩ (fmaRow malloc)

/-- The value is checked before the flag: a value that is missing is 0, which passes. -/
def fexpRow [LinearOrder R] (atof : List UInt8 → R) (i : ℕ) (item : FilterEXP R)
    (r : TSVresult) : Option (Bool × FilterEXP R × TSVresult) :=
  (TSVgetis r i (ascii "id")).bind fun id =>
  (TSVgetfs atof id.2 i (ascii "a")).map fun a =>
    let item := { item with id := id.1, a := a.1 }
    if a.1 < 0 ∨ 1 < a.1 then (false, item, a.2)
    else (!a.2.null_returned, { item with f := false }, a.2)

def fexp_initList [LinearOrder R] (atof : List UInt8 → R) :
    Bool → World → List UInt8 → ItemList (FilterEXP R) → Option (Bool × ItemList (FilterEXP R)) :=
  initList ⟨0, 0, 0, false⟩ (fexpRow atof)

end

/-! What a table is read as. -/

section
variable {V : Type*} {zero : V} {readRow : ℕ → V → TSVresult → Option (Bool × V × TSVresult)}

/-- `readRow` makes of the rows of a table what `value` says, and ends the loop where it says
nothing. -/
def Reads (t : TSVTable) (zero : V)
    (readRow : ℕ → V → TSVresult → Option (Bool × V × TSVresult)) (value : ℕ → Option V) : Prop :=
  ∀ i < t.rows.length, match value i with
    | some v => readRow i zero (parsed t.text false) = some (true, v, parsed t.text false)
    | none => ∃ v r, readRow i zero (parsed t.text false) = some (false, v, r)

/-- The loop goes on behind the items that it has made. -/
theorem Reads.rowsLoop_spec {t : TSVTable} {value : ℕ → Option V}
    (h : Reads t zero readRow value) {n i : ℕ} (items : List V) (hi : items.length = i)
    (hn : i + n ≤ t.rows.length) (max_length : ℕ) :
    ∃ list, rowsLoop readRow n i (parsed t.text false) (roomList items zero n max_length) =
        some list ∧ list.max_length = max_length ∧
      (list.length = i + n ↔ ∀ k < n, (value (i + k)).isSome) ∧
      (list.length = i + n → list.item.map some =
        items.map some ++ (List.range n).map fun k => value (i + k)) := by
  induction n generalizing i items with
  | zero => exact ⟨_, rfl, rfl, by simp [roomList, hi], by simp [roomList]⟩
  | succ n ih =>
    have hroom : (roomList items zero (n + 1) max_length).item[
        (roomList items zero (n + 1) max_length).length]? = some zero :=
      Configl.getElem?_roomList_succ items n max_length
    have hrow := h i (by omega)
    have hlength : (roomList items zero (n + 1) max_length).length = i := hi
    rw [hlength] at hroom
    rw [rowsLoop, hroom, Option.bind_some]
    cases hv : value i with
    | none =>
      rw [hv] at hrow
      obtain ⟨v, r, hread⟩ := hrow
      rw [hread, Option.bind_some, if_neg Bool.false_ne_true]
      refine ⟨_, rfl, rfl, iff_of_false ?_ fun hall => ?_, fun hlen => ?_⟩
      · exact hlength.trans_ne (by omega)
      · simpa [hv] using hall 0 (by omega)
      · exact absurd (hlength.symm.trans hlen) (by omega)
    | some v =>
      rw [hv] at hrow
      rw [show readRow i zero _ = _ from hrow, Option.bind_some, if_pos rfl,
        Configl.putItem_roomList]
      obtain ⟨list, hrun, hmax, hiff, hitems⟩ :=
        ih (i := i + 1) (items ++ [v]) (by simp [hi]) (by omega)
      have hshift (k : ℕ) : i + 1 + k = i + (k + 1) := by omega
      simp only [hshift] at hiff hitems
      refine ⟨list, hrun, hmax, hiff.trans ?_, fun hlen => ?_⟩
      · rw [Nat.forall_lt_succ_left]
        simp [hv]
      · rw [hitems hlen, List.range_succ_eq_map]
        simp [hv, Function.comp_def]

/-- The list is one that can hold a number of items: it has this length or gets it. -/
def Fits (list : ItemList V) (realloc : Bool) (n : ℕ) : Prop :=
  list.max_length = n ∨ list.max_length < n ∧ realloc = true

variable (zero) in
theorem fits_iff (list : ItemList V) (realloc : Bool) (n : ℕ) :
    Fits list realloc n ↔ (resizeMList zero realloc n list).max_length = n := by
  unfold Fits resizeMList
  by_cases hlt : list.max_length < n
  · cases realloc with
    | true => simp [hlt]
    | false =>
      have : n ≠ 0 := by omega
      simp [hlt, hlt.ne, this.symm]
  · simp [hlt]

/-- `value` says what an item is made of, the number of its row and the cells under the names. Every
table is read in whole if and only if the list fits and there is an item for each row, and then
these are the items in order. -/
def Loads (read : Bool → World → List UInt8 → ItemList V → Option (Bool × ItemList V))
    (value : ℕ → (List UInt8 → Option (List UInt8)) → Option V) : Prop :=
  ∀ (t : TSVTable) (realloc : Bool) (list : ItemList V), t.text.length ≤ INT_MAX →
    ∃ ok list', read realloc ⟨true, true, true, true⟩ t.text list = some (ok, list') ∧
      (ok = true ↔ Fits list realloc t.rows.length ∧
        ∀ i < t.rows.length, (value i (t.cell? i)).isSome) ∧
      (ok = true → list'.max_length = t.rows.length ∧ list'.length = t.rows.length ∧
        list'.item.map some = (List.range t.rows.length).map fun i => value i (t.cell? i))

theorem TSVntuples_text (t : TSVTable) (hlen : t.text.length ≤ INT_MAX) (null_returned : Bool) :
    TSVntuples (parsed t.text null_returned) = t.rows.length := by
  rw [(t.rowsWhole.isGrid hlen t.accepted null_returned).1, t.bodyLines_text, List.length_map]

theorem initList_loads {value : ℕ → (List UInt8 → Option (List UInt8)) → Option V}
    (h : ∀ t : TSVTable, t.text.length ≤ INT_MAX →
      Reads t zero readRow fun i => value i (t.cell? i)) :
    Loads (initList zero readRow) value := by
  intro t realloc list hlen
  obtain ⟨ok, r, hinit, hok, hr⟩ := TSVinit_eq hlen ⟨true, true, true, true⟩ TSVRESULT_INITIALIZER
  obtain rfl := hok.mpr t.accepted
  obtain rfl := hr rfl
  have hrows : t.rows.length ≠ 0 := by simpa using t.rows_ne
  rw [initList, hinit, Option.bind_some]
  simp only [Bool.not_true, Bool.false_eq_true, if_false]
  rw [TSVntuples_text t hlen, if_neg hrows, fits_iff zero]
  set room := resizeMList zero realloc t.rows.length list
  by_cases hfits : room.max_length = t.rows.length
  · rw [if_neg (not_not.mpr hfits)]
    have hnull : nullList zero room = roomList [] zero t.rows.length room.max_length := by
      rw [nullList, roomList, hfits]
      rfl
    obtain ⟨list', hrun, hmax, hiff, hitems⟩ :=
      (h t hlen).rowsLoop_spec (i := 0) [] rfl (Nat.zero_add _).le room.max_length
    simp only [Nat.zero_add, List.map_nil, List.nil_append] at hiff hitems
    have hinit : parsed t.text TSVRESULT_INITIALIZER.null_returned = parsed t.text false := rfl
    rw [hnull, hinit, hrun, Option.map_some]
    refine ⟨_, _, rfl, ?_, fun hwhole => ?_⟩
    · rw [decide_eq_true_eq, hmax, hfits, hiff]
      simp
    · rw [decide_eq_true_eq, hmax, hfits] at hwhole
      exact ⟨hmax.trans hfits, hwhole, hitems hwhole⟩
  · rw [if_pos hfits]
    exact ⟨false, room, rfl, by simp [hfits], fun h => absurd h Bool.false_ne_true⟩

@[simp] theorem null_returned_parsed (stream : List UInt8) (null_returned : Bool) :
    (parsed stream null_returned).null_returned = null_returned := rfl

/-- The readers of values on a table. -/
theorem TSVgets_text {W : Type*} (t : TSVTable) (hlen : t.text.length ≤ INT_MAX) {i : ℕ}
    (hi : i < t.rows.length) (convert : List UInt8 → W) (zero : W) (null_returned : Bool)
    (name : List UInt8) :
    TSVgets convert zero (parsed t.text null_returned) i name =
      some (((t.cell? i name).map convert).getD zero,
        parsed t.text (null_returned || (t.cell? i name).isNone)) := by
  rw [TSVgets_found (NL_mem_of_cells t.accepted.2.1), t.found_text hlen hi]
  cases hc : t.cell? i name with
  | none => rfl
  | some text =>
    have hcell := t.isCell_cell? hc
    rw [Found.value, if_neg hcell.1, takeWhile_isCell hcell]
    simp

end

section
variable {R : Type*} [Field R] (atof : List UInt8 → R) (cell : List UInt8 → Option (List UInt8))

/-! The items that are to be made of the cells of a row. -/

def lcorrectionOf : Option (LCorrection R) :=
  (cell (ascii "id")).bind fun id => (cell (ascii "factor")).bind fun factor =>
  (cell (ascii "delta")).map fun delta => ⟨atoi id, atof factor, atof delta⟩

def lreductionOf : Option (LReduction R) :=
  (cell (ascii "id")).bind fun id => (cell (ascii "min_in")).bind fun min_in =>
  (cell (ascii "max_in")).bind fun max_in => (cell (ascii "min_out")).bind fun min_out =>
  (cell (ascii "max_out")).map fun max_out =>
    ⟨atoi id, atof min_in, atof max_in, atof min_out, atof max_out⟩

/-- The filter that `fexp_init` makes. -/
def fexpOf [LinearOrder R] : Option (FilterEXP R) :=
  (cell (ascii "id")).bind fun id => (cell (ascii "a")).bind fun a =>
    let v := FilterEXP.fexp_init (atoi id) (atof a) ⟨0, 0, 0, false⟩
    if v.1 then some v.2 else none

/-- The filter that `fma_init` makes, which takes no memory for the length 0. -/
def fmaOf (malloc : (n : ℕ) → Option (List.Vector R n)) : Option (FilterMA R) :=
  (cell (ascii "id")).bind fun id => (cell (ascii "length")).bind fun length =>
    let v := FilterMA.fma_init malloc (atoi id) (atoi length) ⟨0, [], 0, 0, 0⟩
    if v.1 && (malloc (atoi length).toNat).isSome then some v.2 else none

theorem initLCorrection_loads : Loads (initLCorrection atof) fun _ => lcorrectionOf atof := by
  refine initList_loads fun t hlen i hi => ?_
  simp only [lcorrectionRow, TSVgetis, TSVgetfs, TSVgets_text t hlen hi, Option.bind_some,
    Option.map_some, lcorrectionOf]
  cases t.cell? i (ascii "id") with
  | none => simp
  | some id =>
    cases t.cell? i (ascii "factor") with
    | none => simp
    | some factor => cases t.cell? i (ascii "delta") <;> simp

theorem initLReduction_loads : Loads (initLReduction atof) fun _ => lreductionOf atof := by
  refine initList_loads fun t hlen i hi => ?_
  simp only [lreductionRow, TSVgetis, TSVgetfs, TSVgets_text t hlen hi, Option.bind_some,
    Option.map_some, lreductionOf]
  cases t.cell? i (ascii "id") with
  | none => simp
  | some id =>
    cases t.cell? i (ascii "min_in") with
    | none => simp
    | some min_in =>
      cases t.cell? i (ascii "max_in") with
      | none => simp
      | some max_in =>
        cases t.cell? i (ascii "min_out") with
        | none => simp
        | some min_out => cases t.cell? i (ascii "max_out") <;> simp

theorem fexp_initList_loads [LinearOrder R] :
    Loads (fexp_initList atof) fun _ cell => fexpOf atof cell := by
  refine initList_loads fun t hlen i hi => ?_
  simp only [fexpRow, TSVgetis, TSVgetfs, TSVgets_text t hlen hi, Option.bind_some,
    Option.map_some, fexpOf, FilterEXP.fexp_init]
  cases t.cell? i (ascii "id") with
  | none => split_ifs <;> simp
  | some id =>
    cases t.cell? i (ascii "a") with
    | none => simp
    | some a => by_cases ha : atof a < 0 ∨ 1 < atof a <;> simp [ha]

omit [Field R] in
theorem fma_initList_loads (malloc : ℕ → (n : ℕ) → Option (List.Vector R n)) :
    Loads (fma_initList malloc) fun i cell => fmaOf cell (malloc i) := by
  refine initList_loads fun t hlen i hi => ?_
  simp only [fmaRow, TSVgetis, TSVgets_text t hlen hi, Option.bind_some, Option.map_some, fmaOf,
    FilterMA.fma_init]
  cases t.cell? i (ascii "id") with
  | none => simp
  | some id =>
    cases t.cell? i (ascii "length") with
    | none => simp
    | some length =>
      simp only [Option.map_some, Option.getD_some, Option.isNone_some, Bool.or_false,
        Option.bind_some, null_returned_parsed, Bool.false_eq_true, if_false]
      generalize atoi length = n
      by_cases hneg : n < 0
      · simp [hneg]
      by_cases hzero : n = 0
      · -- no memory is taken by `fma_init`, and none is written to here
        subst hzero
        cases malloc i (Int.toNat 0) with
        | none => simp
        | some buf => simp
      · cases malloc i n.toNat <;> simp [hneg, hzero]

/-- The four readers of lists. On the text of every table, its columns in any order and beside any
others, they succeed if and only if the list can have a place for each row, each row has a cell
under each of the names, and `fexp_init` or `fma_init` would take what the cells say; then the list
has the items of all rows in their order. -/
theorem lists_loaded [LinearOrder R] (malloc : ℕ → (n : ℕ) → Option (List.Vector R n)) :
    Loads (fma_initList malloc) (fun i cell => fmaOf cell (malloc i)) ∧
      Loads (fexp_initList atof) (fun _ cell => fexpOf atof cell) ∧
      Loads (initLCorrection atof) (fun _ cell => lcorrectionOf atof cell) ∧
      Loads (initLReduction atof) (fun _ cell => lreductionOf atof cell) :=
  ⟨fma_initList_loads malloc, fexp_initList_loads atof, initLCorrection_loads atof,
    initLReduction_loads atof⟩

end

/-- A table with the columns of all four lists, not in the order in which they are read. -/
def listTable : TSVTable where
  names := ["min_in", "id", "a", "length", "factor", "note", "delta", "max_in", "min_out",
    "max_out"].map ascii
  rows := [["0", "7", "1", "3", "2", "x", "-5", "100", "0", "1000"].map ascii,
    ["10", "9", "0", "0", "1", "y", "4", "20", "30", "40"].map ascii]
  names_ne := by simp
  rows_ne := by simp
  nodup := by decide
  width := by decide
  isCell_name := by decide
  isCell := by decide

/-- The four lists are read from this table: one has room for its two rows, the others grow. -/
theorem lists_loaded_example :
    let w : World := ⟨true, true, true, true⟩
    let atof (s : List UInt8) : ℚ := atoi s
    let malloc (_ n : ℕ) : Option (List.Vector ℚ n) := some (List.Vector.replicate n 0)
    (∃ l, fma_initList malloc false w listTable.text
        ⟨List.replicate 2 ⟨0, [], 0, 0, 0⟩, 0, 2⟩ = some (true, l) ∧ l.length = 2) ∧
      (∃ l, fexp_initList atof true w listTable.text ⟨[], 0, 0⟩ = some (true, l) ∧
        l.length = 2) ∧
      (∃ l, initLCorrection atof true w listTable.text ⟨[], 0, 0⟩ = some (true, l) ∧
        l.item = [⟨7, 2, -5⟩, ⟨9, 1, 4⟩]) ∧
      ∃ l, initLReduction atof true w listTable.text ⟨[], 0, 0⟩ = some (true, l) ∧
        l.item = [⟨7, 0, 100, 0, 1000⟩, ⟨9, 10, 20, 30, 40⟩] := by
  intro w atof malloc
  have hlen : listTable.text.length ≤ INT_MAX := by decide +kernel
  obtain ⟨hma, hexp, hcor, hred⟩ := lists_loaded atof malloc
  refine ⟨?_, ?_, ?_, ?_⟩
  · obtain ⟨ok, l, hrun, hok, hitems⟩ :=
      hma listTable false ⟨List.replicate 2 ⟨0, [], 0, 0, 0⟩, 0, 2⟩ hlen
    obtain rfl := hok.mpr ⟨Or.inl rfl, by decide +kernel⟩
    exact ⟨l, hrun, (hitems rfl).2.1⟩
  · obtain ⟨ok, l, hrun, hok, hitems⟩ := hexp listTable true ⟨[], 0, 0⟩ hlen
    obtain rfl := hok.mpr ⟨Or.inr ⟨by decide, rfl⟩, by decide +kernel⟩
    exact ⟨l, hrun, (hitems rfl).2.1⟩
  · obtain ⟨ok, l, hrun, hok, hitems⟩ := hcor listTable true ⟨[], 0, 0⟩ hlen
    obtain rfl := hok.mpr ⟨Or.inr ⟨by decide, rfl⟩, by decide +kernel⟩
    refine ⟨l, hrun, Option.some_injective _ |>.list_map ((hitems rfl).2.2.trans ?_)⟩
    decide +kernel
  · obtain ⟨ok, l, hrun, hok, hitems⟩ := hred listTable true ⟨[], 0, 0⟩ hlen
    obtain rfl := hok.mpr ⟨Or.inr ⟨by decide, rfl⟩, by decide +kernel⟩
    refine ⟨l, hrun, Option.some_injective _ |>.list_map ((hitems rfl).2.2.trans ?_)⟩
    decide +kernel

end Regonf.Tsv
