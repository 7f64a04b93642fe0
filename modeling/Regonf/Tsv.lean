import Regonf.AcpCodec

/-! `lib/tsv.c`. A file is the list of its bytes, and a pointer into the buffer is an index.
`none` is what C leaves undefined: an `int` that overflows, and `strcmp` with NULL. -/
namespace Regonf.Tsv

def TAB : UInt8 := 9
def NL : UInt8 := 10

/-- An array stands here with its length; NULL is the empty array. -/
structure TSVresult where
  buf : List UInt8
  column_name : List (Option ℕ)
  data : List (Option ℕ)
  null_returned : Bool
deriving DecidableEq, Repr

def TSVRESULT_INITIALIZER : TSVresult := ⟨[], [], [], false⟩

/-! The counting loops. -/

/-- `out++` -/
def incr (out : ℕ) : Option ℕ := if out < INT_MAX then some (out + 1) else none

/-- A loop to the end of the file that counts some of the bytes. -/
def countLoop (counts : UInt8 → Bool) : List UInt8 → ℕ → Option ℕ
  | [], out => some out
  | c :: stream, out =>
    if counts c then (incr out).bind (countLoop counts stream) else countLoop counts stream out

def getBufLength (stream : List UInt8) : Option ℕ := countLoop (fun _ => true) stream 0

def getColumnNameLengthLoop : List UInt8 → ℕ → Option ℕ
  | [], out => some out
  | c :: stream, out =>
    if c = NL then incr out
    else if c = TAB then (incr out).bind (getColumnNameLengthLoop stream)
    else getColumnNameLengthLoop stream out

def getColumnNameLength (stream : List UInt8) : Option ℕ := getColumnNameLengthLoop stream 0

/-- `TSV_SKIP_LINE` -/
def tsvSkipLine : List UInt8 → List UInt8
  | [] => []
  | x :: stream => if x = NL then stream else tsvSkipLine stream

/-- What ends a cell of a data row. -/
def isDelimiter (c : UInt8) : Bool := c == TAB || c == NL

def getDataLength (stream : List UInt8) : Option ℕ :=
  countLoop isDelimiter (tsvSkipLine stream) 0

/-! `parse` -/

/-- What both states of `parse` do to their array, `j` and `set` at byte `i`. -/
def cellStep (delimiter : Bool) (i : ℕ) (a : List (Option ℕ)) (j : ℕ) (set : Bool) :
    List (Option ℕ) × ℕ × Bool :=
  if delimiter then (a, if set && j < a.length then j + 1 else j, true)
  else if set then if j < a.length then (a.set j (some i), j + 1, false) else (a, j, false)
  else (a, j, set)

structure ParseState where
  r : TSVresult
  header : Bool
  i : ℕ
  j : ℕ
  set : Bool
deriving DecidableEq, Repr

/-- The body of the loop; `none` is its `return`. -/
def parseByte (c : UInt8) (s : ParseState) : Option ParseState :=
  if s.r.buf.length ≤ s.i then none
  else
    let r := { s.r with buf := s.r.buf.set s.i (if isDelimiter c then 0 else c) }
    if s.header then
      if c = NL then some ⟨r, false, s.i + 1, 0, true⟩
      else
        let t := cellStep (c == TAB) s.i r.column_name s.j s.set
        some ⟨{ r with column_name := t.1 }, true, s.i + 1, t.2.1, t.2.2⟩
    else
      let t := cellStep (isDelimiter c) s.i r.data s.j s.set
      some ⟨{ r with data := t.1 }, false, s.i + 1, t.2.1, t.2.2⟩

def parseLoop : List UInt8 → ParseState → TSVresult
  | [], s => s.r
  | c :: stream, s =>
    match parseByte c s with
    | none => s.r
    | some s => parseLoop stream s

def parse (r : TSVresult) (stream : List UInt8) : TSVresult :=
  parseLoop stream ⟨r, true, 0, 0, true⟩

/-! The lookups. -/

def TSVntuples (r : TSVresult) : ℕ :=
  if r.column_name.length = 0 then 0 else r.data.length / r.column_name.length

/-- The end of the lookups: the value and the result after it. -/
def dataAt (r : TSVresult) (row_number column_number : ℕ) : Option (Option ℕ × TSVresult) :=
  let ind := r.column_name.length * row_number + column_number
  if INT_MAX < ind then none
  else if r.data.length ≤ ind then some (none, { r with null_returned := true })
  else r.data[ind]?.map fun v => (v, r)

def TSVgetvalue (r : TSVresult) (row_number column_number : ℕ) :
    Option (Option ℕ × TSVresult) :=
  dataAt r row_number column_number

/-- The loop over the names that are left, the first of which has the number `i`. -/
def getvaluesLoop (r : TSVresult) (row_number : ℕ) (column_name : List UInt8) :
    List (Option ℕ) → ℕ → Option (Option ℕ × TSVresult)
  | [], _ => some (none, { r with null_returned := true })
  | none :: _, _ => none
  | some p :: names, i =>
    (cString (r.buf.drop p)).bind fun s =>
      if column_name = s then dataAt r row_number i
      else getvaluesLoop r row_number column_name names (i + 1)

def TSVgetvalues (r : TSVresult) (row_number : ℕ) (column_name : List UInt8) :
    Option (Option ℕ × TSVresult) :=
  getvaluesLoop r row_number column_name r.column_name 0

/-! `TSVcheck` -/

/-- The loop over the columns from `j` on, of which there are `n`. -/
def checkColumns (i : ℕ) : ℕ → ℕ → TSVresult → Option (Bool × TSVresult)
  | 0, _, r => some (true, r)
  | n + 1, j, r =>
    (TSVgetvalue r i j).bind fun v =>
      if v.1 = none then some (false, v.2) else checkColumns i n (j + 1) v.2

/-- The loop over the rows from `i` on, of which there are `n`. -/
def checkRows (columns : ℕ) : ℕ → ℕ → TSVresult → Option (Bool × TSVresult)
  | 0, _, r => some (true, r)
  | n + 1, i, r =>
    (checkColumns i columns 0 r).bind fun v =>
      if !v.1 then some (false, v.2) else checkRows columns n (i + 1) v.2

def TSVcheck (r : TSVresult) : Option (Bool × TSVresult) :=
  checkRows r.column_name.length (TSVntuples r) 0 r

/-- Whether the file can be opened, and which of the three arrays get memory. -/
structure World where
  fopen : Bool
  buf : Bool
  column_name : Bool
  data : Bool
deriving DecidableEq, Repr

def TSVinit (w : World) (stream : List UInt8) (r : TSVresult) : Option (Bool × TSVresult) :=
  if !w.fopen then some (false, r)
  else (getBufLength stream).bind fun l =>
    if l = 0 then some (false, r)
    else if !w.buf then some (false, { r with buf := [] })
    else
      let r := { r with buf := List.replicate l 0 }
      (getColumnNameLength stream).bind fun l =>
        if l = 0 then some (false, r)
        else if !w.column_name then some (false, { r with column_name := [] })
        else
          let r := { r with column_name := List.replicate l none }
          (getDataLength stream).bind fun l =>
            if l = 0 then some (false, r)
            else if !w.data then some (false, { r with data := [] })
            else TSVcheck (parse { r with data := List.replicate l none } stream)

end Regonf.Tsv
