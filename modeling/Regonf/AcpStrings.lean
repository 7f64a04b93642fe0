import Regonf.AcpSend

/-! The decoders of `lib/acp/main.c` for rows with strings. They work on arrays of `LINE_SIZE`
bytes: a string that does not end inside of its array makes the result `none`. -/
namespace Regonf

open Blocks Rows

/-- `strcpy` to place `i` of an array. -/
def strcpy (dst : List UInt8) (i : ℕ) (src : List UInt8) : Option (List UInt8) :=
  (cString src).bind fun s =>
    if i + s.length < dst.length then some (writeAt dst i (s ++ [0])) else none

/-- A list of the macro `DEC_LIST`. -/
structure ItemList (V : Type*) where
  item : List V
  length : ℕ
  max_length : ℕ
deriving DecidableEq, Repr

abbrev I1S1 := I1X (List UInt8)

/-- The fields of `LINE_SIZE` bytes stand behind each other in one array of `char`. -/
abbrev S1List := ItemList UInt8
abbrev I1S1List := ItemList I1S1
abbrev S2List := ItemList Sendto.S2

/-- `DEF_SERVER_S1LIST`, `DEF_SERVER_I1S1LIST` and `DEF_SERVER_S2LIST` on the array that they
define. -/
def defServerList {V : Type*} (arr : List V) : ItemList V := ⟨arr, 0, arr.length⟩

/-- A local array of a decoder, set to zero. -/
def lineBuf : List UInt8 := List.replicate LINE_SIZE 0

/-- The loop of the decoders. `read` fills the local variables from `buff` and moves it, or leaves
the loop; `store` copies them into the next item. -/
def acpDataToStrings {V L : Type*} (read : List UInt8 → Option (Option (L × List UInt8)))
    (store : L → ItemList V → Option (List V)) :
    ℕ → List UInt8 → ItemList V → Option (ItemList V)
  | 0, _, list => some list
  | n + 1, buff, list =>
    match read buff with
    | none => none
    | some none => some list
    | some (some (l, buff)) =>
      (store l list).bind fun item =>
        acpDataToStrings read store n (acpBufnrow buff)
          { list with item := item, length := list.length + 1 }

/-- The loop of `acp_dataToS1List` over `p0`; `none` is its `return` at the NUL. -/
def readS1Loop : ℕ → ℕ → List UInt8 → List UInt8 → Option (List UInt8 × List UInt8)
  | 0, _, p0, buff => some (p0, buff)
  | _ + 1, _, _, [] => none
  | n + 1, j, p0, b :: bs =>
    if b = ACP_DELIMITER_ROW then some (p0, b :: bs) else readS1Loop n (j + 1) (p0.set j b) bs

def readS1 (buff : List UInt8) : Option (Option (List UInt8 × List UInt8)) :=
  some (readS1Loop LINE_SIZE 0 lineBuf buff)

def storeS1 (p0 : List UInt8) (list : S1List) : Option (List UInt8) :=
  strcpy list.item (list.length * LINE_SIZE) p0

def acpDataToS1List (buf : List UInt8) (list : S1List) : Option S1List :=
  acpDataToStrings readS1 storeS1 list.max_length buf { list with length := 0 }

/-- `%s` of `sscanf` with a width: blanks are skipped, and a string has a byte at least. -/
def scanStr (width : ℕ) (s : List UInt8) : Option (List UInt8) :=
  let w := ((s.dropWhile isspace).takeWhile fun b => !isspace b).take width
  if w = [] then none else some w

/-- The `sscanf` of `acp_dataToI1S1List`; its width is `LINE_SIZE`, and the NUL comes behind. -/
def readI1S1 (buff : List UInt8) : Option (Option ((ℤ × List UInt8) × List UInt8)) :=
  match (scanInt buff).bind fun p0 => (scanStr LINE_SIZE p0.2).map fun p1 => (p0.1, p1) with
  | none => some none
  | some (p0, p1) =>
    if p1.length < lineBuf.length then some (some ((p0, writeAt lineBuf 0 (p1 ++ [0])), buff))
    else none

def storeI1S1 (l : ℤ × List UInt8) (list : I1S1List) : Option (List I1S1) :=
  list.item[list.length]?.bind fun i =>
    (strcpy i.p1 0 l.2).map fun p1 => list.item.set list.length ⟨l.1, p1⟩

def acpDataToI1S1List (buf : List UInt8) (list : I1S1List) : Option I1S1List :=
  acpDataToStrings readI1S1 storeI1S1 list.max_length buf { list with length := 0 }

/-- A loop of `acp_dataToS2List` over `p0` or `p1`: the array, where `buff` stands, and whether the
row has ended. -/
def readS2Loop : ℕ → ℕ → List UInt8 → List UInt8 → List UInt8 × List UInt8 × Bool
  | 0, _, p, buff => (p, buff, false)
  | _ + 1, _, p, [] => (p, [], true)
  | n + 1, j, p, b :: bs =>
    if b = ACP_DELIMITER_COLUMN then (p, bs, false)
    else if b = ACP_DELIMITER_ROW then (p, b :: bs, true)
    else readS2Loop n (j + 1) (p.set j b) bs

def readS2 (buff : List UInt8) : Option (Option ((List UInt8 × List UInt8) × List UInt8)) :=
  let p0 := readS2Loop LINE_SIZE 0 lineBuf buff
  if p0.2.2 then some none
  else
    -- the second loop does not care about the end of the row
    let p1 := readS2Loop LINE_SIZE 0 lineBuf p0.2.1
    some (some ((p0.1, p1.1), p1.2.1))

def storeS2 (l : List UInt8 × List UInt8) (list : S2List) : Option (List Sendto.S2) :=
  list.item[list.length]?.bind fun i =>
    (strcpy i.p0 0 l.1).bind fun p0 =>
      (strcpy i.p1 0 l.2).map fun p1 => list.item.set list.length ⟨p0, p1⟩

def acpDataToS2List (buf : List UInt8) (list : S2List) : Option S2List :=
  acpDataToStrings readS2 storeS2 list.max_length buf { list with length := 0 }

/-! The decoders on strings. -/

/-- The next row of an `S1List`; a row that its NUL ends is not taken. -/
def scanS1 (t : List UInt8) : Option (Option (List UInt8)) :=
  let p0 := block ACP_DELIMITER_ROW 0 t
  if LINE_SIZE ≤ p0.length then none
  else if ACP_DELIMITER_ROW ∈ t then some (some p0)
  else some none

/-- The word behind the number of a row. -/
def rowWord (t : List UInt8) : List UInt8 :=
  match scanInt t with
  | none => []
  | some p0 => (p0.2.dropWhile isspace).takeWhile fun b => !isspace b

def scanI1S1 (t : List UInt8) : Option (Option (ℤ × List UInt8)) :=
  if LINE_SIZE ≤ (rowWord t).length then none
  else if rowWord t = [] then some none
  else some ((scanInt t).map fun p0 => (p0.1, rowWord t))

def scanS2 (t : List UInt8) : Option (Option (List UInt8 × List UInt8)) :=
  let r := block ACP_DELIMITER_ROW 0 t
  let p0 := block ACP_DELIMITER_COLUMN 0 r
  let p1 := block ACP_DELIMITER_COLUMN 1 r
  if LINE_SIZE ≤ p0.length then none
  else if ACP_DELIMITER_COLUMN ∉ r then some none
  else if LINE_SIZE ≤ p1.length then none
  else some (some (p0, p1))

section
variable {V W L : Type*} {read : List UInt8 → Option (Option (L × List UInt8))}
  {store : L → ItemList V → Option (List V)} {scan : List UInt8 → Option (Option W)}

/-- `read` and `store` do with their arrays what `scan` does with strings. -/
structure Decodes (read : List UInt8 → Option (Option (L × List UInt8)))
    (store : L → ItemList V → Option (List V)) (scan : List UInt8 → Option (Option W))
    (Holds : List V → List W → Prop) (cap : ℕ) : Prop where
  undefined {t : List UInt8} (h₀ : 0 ∉ t) (h : scan t = none) :
    read t = none ∨ ∃ l buff, read t = some (some (l, buff)) ∧ ∀ list, store l list = none
  stop {t : List UInt8} (h₀ : 0 ∉ t) (h : scan t = some none) : read t = some none
  item {t : List UInt8} {w : W} (h₀ : 0 ∉ t) (h : scan t = some (some w)) :
    ∃ l buff, read t = some (some (l, buff)) ∧ acpBufnrow buff = acpBufnrow t ∧
      ∀ list ws, Holds list.item ws → list.length = ws.length → ws.length < cap →
        ∃ item', store l list = some item' ∧ Holds item' (ws ++ [w])

theorem not_mem_acpBufnrow {t : List UInt8} (h₀ : 0 ∉ t) : 0 ∉ acpBufnrow t := by
  intro hm
  unfold acpBufnrow at hm
  dsimp only at hm
  split_ifs at hm
  · cases hm
  · exact h₀ ((List.dropWhile_sublist _).mem (List.mem_of_mem_tail hm))

variable {Holds : List V → List W → Prop} {cap : ℕ}

/-- A string that does not fit makes the whole result undefined. -/
theorem Decodes.acpDataToStrings_none (h : Decodes read store scan Holds cap) {n : ℕ}
    {t : List UInt8} (h₀ : 0 ∉ t) (hr : readChecked scan acpBufnrow n t = none)
    (list : ItemList V) : acpDataToStrings read store n t list = none := by
  induction n generalizing t list with
  | zero => cases hr
  | succ n ih =>
    rw [readChecked] at hr
    rw [acpDataToStrings]
    rcases hs : scan t with _ | _ | w <;> rw [hs] at hr
    · rcases h.undefined h₀ hs with hread | ⟨l, buff, hread, hstore⟩
      · rw [hread]
      · rw [hread]
        dsimp only
        rw [hstore, Option.bind_none]
    · cases hr
    · obtain ⟨l, buff, hread, hnext, -⟩ := h.item h₀ hs
      rw [hread]
      dsimp only
      rw [hnext]
      cases store l list with
      | none => rfl
      | some item' => exact ih (not_mem_acpBufnrow h₀) (Option.map_eq_none_iff.mp hr) _

/-- The items of the list are the strings that the rows hold. -/
theorem Decodes.acpDataToStrings_some (h : Decodes read store scan Holds cap) {n : ℕ}
    {t : List UInt8} (h₀ : 0 ∉ t) {vs : List W} (hr : readChecked scan acpBufnrow n t = some vs)
    (list : ItemList V) (ws : List W) (hl : list.length = ws.length) (hws : Holds list.item ws)
    (hcap : ws.length + vs.length ≤ cap) :
    ∃ item', acpDataToStrings read store n t list =
      some ⟨item', (ws ++ vs).length, list.max_length⟩ ∧ Holds item' (ws ++ vs) := by
  induction n generalizing t list ws vs with
  | zero =>
    cases hr
    refine ⟨list.item, ?_, by rwa [List.append_nil]⟩
    rw [acpDataToStrings, List.append_nil, ← hl]
  | succ n ih =>
    rw [readChecked] at hr
    rw [acpDataToStrings]
    rcases hs : scan t with _ | _ | w <;> rw [hs] at hr
    · cases hr
    · cases hr
      refine ⟨list.item, ?_, by rwa [List.append_nil]⟩
      rw [h.stop h₀ hs, List.append_nil, ← hl]
    · obtain ⟨vs, hvs, rfl⟩ := Option.map_eq_some_iff.mp hr
      rw [List.length_cons] at hcap
      obtain ⟨l, buff, hread, hnext, hitem⟩ := h.item h₀ hs
      obtain ⟨item', hstore, hholds⟩ := hitem list ws hws hl (by omega)
      rw [hread]
      dsimp only
      rw [hnext, hstore, Option.bind_some]
      have hrest := ih (not_mem_acpBufnrow h₀) hvs ⟨item', list.length + 1, list.max_length⟩
        (ws ++ [w]) (by simp [hl]) hholds (by simp; omega)
      simpa using hrest

end

/-! The local arrays. -/

theorem cString_lineBuf {c : List UInt8} (h₀ : 0 ∉ c) :
    cString (writeAt lineBuf 0 c) = if c.length < LINE_SIZE then some c else none :=
  cString_zeros h₀ LINE_SIZE

/-- A local array that is filled to its end has no NUL. -/
theorem cString_lineBuf_full {c : List UInt8} (h₀ : 0 ∉ c) (h : LINE_SIZE ≤ c.length) :
    cString (writeAt lineBuf 0 (c.take LINE_SIZE)) = none := by
  rw [cString_lineBuf fun hm => h₀ (List.mem_of_mem_take hm), if_neg]
  rw [List.length_take, Nat.min_eq_left h]
  exact lt_irrefl _

theorem block_zero_cons {d b : UInt8} (h : b ≠ d) (t : List UInt8) :
    block d 0 (b :: t) = b :: block d 0 t :=
  List.takeWhile_cons_of_pos (by simpa using h)

theorem block_zero_delimiter (d : UInt8) (t : List UInt8) : block d 0 (d :: t) = [] :=
  List.takeWhile_cons_of_neg (by simp)

theorem mem_block_zero {d b : UInt8} {t : List UInt8} (h : b ∈ block d 0 t) : b ∈ t :=
  (List.takeWhile_sublist _).mem h

theorem readS1Loop_eq (n j : ℕ) {p0 : List UInt8} (buff : List UInt8) (hj : j + n ≤ p0.length) :
    readS1Loop n j p0 buff =
      if n ≤ (block ACP_DELIMITER_ROW 0 buff).length then
        some (writeAt p0 j ((block ACP_DELIMITER_ROW 0 buff).take n), buff.drop n)
      else if ACP_DELIMITER_ROW ∈ buff then
        some (writeAt p0 j (block ACP_DELIMITER_ROW 0 buff),
          buff.drop (block ACP_DELIMITER_ROW 0 buff).length)
      else none := by
  induction n generalizing j p0 buff with
  | zero => simp [readS1Loop]
  | succ n ih =>
    cases buff with
    | nil => simp [readS1Loop]
    | cons b bs =>
      rw [readS1Loop]
      by_cases hb : b = ACP_DELIMITER_ROW
      · rw [if_pos hb, hb, block_zero_delimiter]
        simp
      · rw [if_neg hb, ih _ _ (by rw [List.length_set]; omega), block_zero_cons hb,
          writeAt_set (by omega), writeAt_set (by omega)]
        simp [Ne.symm hb]

theorem readS2Loop_eq (n j : ℕ) {p : List UInt8} (buff : List UInt8) (hj : j + n ≤ p.length) :
    let r := block ACP_DELIMITER_ROW 0 buff
    let c := block ACP_DELIMITER_COLUMN 0 r
    readS2Loop n j p buff =
      if n ≤ c.length then (writeAt p j (c.take n), buff.drop n, false)
      else if ACP_DELIMITER_COLUMN ∈ r then (writeAt p j c, buff.drop (c.length + 1), false)
      else (writeAt p j c, buff.drop c.length, true) := by
  induction n generalizing j p buff with
  | zero => simp [readS2Loop]
  | succ n ih =>
    cases buff with
    | nil => simp [readS2Loop]
    | cons b bs =>
      dsimp only
      rw [readS2Loop]
      by_cases hc : b = ACP_DELIMITER_COLUMN
      · rw [if_pos hc, block_zero_cons (hc ▸ by decide), hc, block_zero_delimiter]
        simp
      by_cases hb : b = ACP_DELIMITER_ROW
      · rw [if_neg hc, if_pos hb, hb, block_zero_delimiter]
        simp
      · have h := ih (j + 1) (p := p.set j b) bs (by rw [List.length_set]; omega)
        dsimp only at h
        rw [if_neg hc, if_neg hb, h, block_zero_cons hb, block_zero_cons hc,
          writeAt_set (by omega), writeAt_set (by omega)]
        simp [Ne.symm hc]

/-- Inside of a row `acp_bufnrow` finds the same next row. -/
theorem acpBufnrow_drop {k : ℕ} {t : List UInt8}
    (h : k ≤ (block ACP_DELIMITER_ROW 0 t).length) : acpBufnrow (t.drop k) = acpBufnrow t := by
  induction k generalizing t with
  | zero => rw [List.drop_zero]
  | succ k ih =>
    cases t with
    | nil => rfl
    | cons b t =>
      by_cases hb : b = ACP_DELIMITER_ROW
      · rw [hb, block_zero_delimiter] at h
        cases h
      · rw [block_zero_cons hb] at h
        rw [List.drop_succ_cons, ih (Nat.le_of_succ_le_succ h)]
        simp [acpBufnrow, hb]

end Regonf
