import Regonf.AcpStringsFit
import Regonf.Lib.Quoted

/-! The statement of `lib/dbl.c` that saves a text, with a text that a client has sent. -/
namespace Regonf

open Blocks Rows

/-- The bytes of a text in the source. -/
def ascii (s : String) : List UInt8 := s.toList.map fun c => UInt8.ofNat c.toNat

/-- `'`. -/
def QUOTE : UInt8 := 39

/-- The arguments of the `snprintf` in `db_saveTableFieldText`, printed. -/
def fmtSaveText (table field value : List UInt8) (id : ℤ) : List UInt8 :=
  ascii "update '" ++ table ++ ascii "' set '" ++ field ++ ascii "'='" ++ value ++
    ascii "' where id=" ++ fmtD id

/-- `db_saveTableFieldText`: its result, and the statement that `db_exec` gets. `dbl` and `db_path`
say whether the pointer is given, `opens` whether the file can be opened, and `exec` which
statements SQLite executes. -/
def dbSaveTableFieldText (dbl db_path opens : Bool) (exec : List UInt8 → Bool)
    (table field : List UInt8) (id : ℤ) (value : List UInt8) :
    Option (Bool × Option (List UInt8)) :=
  if dbl && db_path then some (false, none)
  else if db_path && !opens then some (false, none)
  else (cString value).map fun value =>
    let q := (fmtSaveText table field value id).take (LINE_SIZE - 1)
    (exec q, some q)

/-- The call in the branch of `ACP_CMD_REG_PROG_SET_EM_MODE`. -/
def saveEMMode (opens : Bool) (exec : List UInt8 → Bool) (id : ℤ) (p1 : List UInt8) :
    Option (Bool × Option (List UInt8)) :=
  dbSaveTableFieldText false true opens exec (ascii "prog") (ascii "em_mode") id p1

/-- A statement that sets `em_mode` of the row `id` to the text `s` and says nothing else. A quote
inside of a literal of SQL is written twice. -/
def SetsEMMode (s : List UInt8) (id : ℤ) (q : List UInt8) : Prop :=
  ∃ t, q = ascii "update 'prog' set 'em_mode'=" ++ QUOTE :: t ∧
    Quoted.read QUOTE t = some (s, ascii " where id=" ++ fmtD id)

/-- The part of the statement behind the quote that opens the literal. -/
def emModeTail (s : List UInt8) (id : ℤ) : List UInt8 :=
  s ++ QUOTE :: (ascii " where id=" ++ fmtD id)

theorem fmtSaveText_emMode (s : List UInt8) (id : ℤ) :
    fmtSaveText (ascii "prog") (ascii "em_mode") s id =
      ascii "update 'prog' set 'em_mode'=" ++ QUOTE :: emModeTail s id := by
  have h₁ : ascii "update '" ++ ascii "prog" ++ ascii "' set '" ++ ascii "em_mode" ++ ascii "'='" =
      ascii "update 'prog' set 'em_mode'=" ++ [QUOTE] := by decide
  have h₂ : ascii "' where id=" = QUOTE :: ascii " where id=" := by decide
  rw [fmtSaveText, h₁, h₂, emModeTail]
  simp

/-- A text without a quote in a statement that is not cut is the only one that is set. -/
theorem setsEMMode_iff (s : List UInt8) (id : ℤ) :
    SetsEMMode s id
        ((fmtSaveText (ascii "prog") (ascii "em_mode") s id).take (LINE_SIZE - 1)) ↔
      QUOTE ∉ s ∧ s.length + (fmtD id).length + 40 < LINE_SIZE := by
  rw [fmtSaveText_emMode]
  have hhead : (ascii "update 'prog' set 'em_mode'=").length = 28 := by decide
  have hwhere : (ascii " where id=").length = 10 := by decide
  have htail : (emModeTail s id).length = s.length + (fmtD id).length + 11 := by
    simp only [emModeTail, List.length_append, List.length_cons, hwhere]
    omega
  rw [List.take_append, hhead, List.take_of_length_le (by decide),
    show LINE_SIZE - 1 - 28 = 226 + 1 from rfl, List.take_succ_cons]
  constructor
  · -- the literal has a byte for each byte of `s`, two for each quote, and nothing is cut
    rintro ⟨t, ht, hr⟩
    have ht : (emModeTail s id).take 226 = t :=
      (List.cons.inj (List.append_cancel_left ht)).2
    have hlen := Quoted.length_of_read hr
    rw [← ht, List.length_take, htail, List.length_append, hwhere] at hlen
    have hcount : s.count QUOTE = 0 := by omega
    exact ⟨List.count_eq_zero.mp hcount, by simp only [LINE_SIZE]; omega⟩
  · rintro ⟨hq, hl⟩
    simp only [LINE_SIZE] at hl
    rw [List.take_of_length_le (by omega)]
    have hhead' : (ascii " where id=" ++ fmtD id).head? ≠ some QUOTE := by
      rw [List.head?_append_of_ne_nil _ (by decide)]
      decide
    exact ⟨emModeTail s id, rfl, Quoted.read_append hq hhead'⟩

/-- Each item that `acp_dataToI1S1List` delivers has a string. -/
theorem cString_of_acpDataToI1S1List {buf : List UInt8} (h₀ : 0 ∉ buf) {arr : List I1S1}
    (hsize : ∀ i ∈ arr, i.p1.length = LINE_SIZE) {list : I1S1List}
    (hlist : acpDataToI1S1List buf (defServerList arr) = some list) {i : I1S1}
    (hi : i ∈ list.item.take list.length) : ∃ s, cString i.p1 = some s := by
  have hd := decodes_I1S1 arr.length
  cases hr : readChecked scanI1S1 acpBufnrow arr.length buf with
  | none =>
    have hnone := hd.acpDataToStrings_none h₀ hr (defServerList arr)
    cases hnone.symm.trans hlist
  | some vs =>
    obtain ⟨item, hrun, hh⟩ := hd.acpDataToStrings_some h₀ hr (defServerList arr) [] rfl
      ⟨rfl, hsize, by simp⟩ (by simpa using length_readChecked_le hr)
    cases hrun.symm.trans hlist
    obtain ⟨k, hk, hki⟩ := getElem?_take hi
    obtain ⟨-, i', hi', -, hs⟩ := hh.2.2 k _ (List.getElem?_eq_getElem (by simpa using hk))
    cases hki.symm.trans hi'
    exact ⟨_, hs⟩

/-- For each text of a block that the decoder delivers, and for each program: the statement that
SQLite gets sets exactly this text in the row of this program if and only if the text has no quote
and the statement is shorter than the array that it is printed to. -/
theorem saveEMMode_iff {buf : List UInt8} (h₀ : 0 ∉ buf) {arr : List I1S1}
    (hsize : ∀ i ∈ arr, i.p1.length = LINE_SIZE) {list : I1S1List}
    (hlist : acpDataToI1S1List buf (defServerList arr) = some list) {i : I1S1}
    (hi : i ∈ list.item.take list.length) :
    ∃ s, cString i.p1 = some s ∧ ∀ (id : ℤ) (exec : List UInt8 → Bool),
      ((∃ q, saveEMMode true exec id i.p1 = some (exec q, some q) ∧ SetsEMMode s id q) ↔
        QUOTE ∉ s ∧ s.length + (fmtD id).length + 40 < LINE_SIZE) := by
  obtain ⟨s, hs⟩ := cString_of_acpDataToI1S1List h₀ hsize hlist hi
  refine ⟨s, hs, fun id exec => ?_⟩
  rw [← setsEMMode_iff]
  have hrun : saveEMMode true exec id i.p1 =
      some (exec ((fmtSaveText (ascii "prog") (ascii "em_mode") s id).take (LINE_SIZE - 1)),
        some ((fmtSaveText (ascii "prog") (ascii "em_mode") s id).take (LINE_SIZE - 1))) := by
    rw [saveEMMode, dbSaveTableFieldText, hs]
    rfl
  rw [hrun]
  constructor
  · rintro ⟨q, hq, h⟩
    rwa [Option.some.inj (congrArg Prod.snd (Option.some.inj hq))]
  · exact fun h => ⟨_, rfl, h⟩

/-- The last theorem for the row `1<TAB>heater`. -/
theorem saveEMMode_iff_example :
    ∃ s, cString (writeAt lineBuf 0 (ascii "heater" ++ [0])) = some s ∧
      ∀ (id : ℤ) (exec : List UInt8 → Bool),
        ((∃ q, saveEMMode true exec id (writeAt lineBuf 0 (ascii "heater" ++ [0])) =
            some (exec q, some q) ∧ SetsEMMode s id q) ↔
          QUOTE ∉ s ∧ s.length + (fmtD id).length + 40 < LINE_SIZE) :=
  @saveEMMode_iff (49 :: 9 :: (ascii "heater" ++ [10])) (by decide) [⟨0, lineBuf⟩]
    (by simp [lineBuf]) ⟨[⟨1, writeAt lineBuf 0 (ascii "heater" ++ [0])⟩], 1, 1⟩
    (by decide +kernel) _ (List.mem_singleton_self _)

/-- The row `1<TAB>x'--`: the literal ends at the quote of the client, and the rest of the statement
with its condition is a comment, so the mode of every program is set. -/
theorem em_mode_leaves_literal :
    ∃ list, acpDataToI1S1List (49 :: 9 :: (ascii "x'--" ++ [10])) (defServerList [⟨0, lineBuf⟩]) =
        some list ∧
      ∃ i ∈ list.item.take list.length, cString i.p1 = some (ascii "x'--") ∧
        saveEMMode true (fun _ => true) 1 i.p1 =
          some (true, some (ascii "update 'prog' set 'em_mode'='x'--' where id=1")) ∧
        ¬SetsEMMode (ascii "x'--") 1 (ascii "update 'prog' set 'em_mode'='x'--' where id=1") := by
  refine ⟨⟨[⟨1, writeAt lineBuf 0 (ascii "x'--" ++ [0])⟩], 1, 1⟩, by decide +kernel, _,
    List.mem_singleton_self _, by decide +kernel, by decide +kernel, fun h => ?_⟩
  have hq := (setsEMMode_iff (ascii "x'--") 1).mp (by
    rwa [show (fmtSaveText (ascii "prog") (ascii "em_mode") (ascii "x'--") 1).take (LINE_SIZE - 1) =
      ascii "update 'prog' set 'em_mode'='x'--' where id=1" by decide +kernel])
  exact absurd hq.1 (by decide)

end Regonf
