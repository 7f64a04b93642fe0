import Mathlib.Data.List.Nodup
import Regonf.Regonfhc

/-! The tables of `db/sql/data.sql` that a program is loaded from, and the statements of
`lib/dbl.c` that change them. An integer column is in the range of `int`; outside of it the
`atoi` of the callbacks is undefined. -/
namespace Regonf

/-- A row of table `prog`. -/
structure ProgRow (R : Type) where
  id : ℤ
  sensor_id : ℤ
  goal : R
  change_gap : ℤ
  em_mode : String
  heater_em_id : ℤ
  heater_delta : R
  cooler_em_id : ℤ
  cooler_delta : R
  secure_id : ℤ
  green_light_sensor_id : ℤ
  green_value : R
  save : ℤ
  enable : ℤ
  load : ℤ
deriving DecidableEq, Repr

/-- A row of table `secure`. -/
structure SecureRow (R : Type) where
  id : ℤ
  timeout_sec : ℤ
  heater_duty_cycle : R
  cooler_duty_cycle : R
deriving DecidableEq, Repr

/-- Table `prog`, with its `INTEGER PRIMARY KEY`. -/
structure ProgTable (R : Type) where
  rows : List (ProgRow R)
  nodup : (rows.map ProgRow.id).Nodup

/-- The columns of `prog` that the program writes, with the value written. -/
inductive Column (R : Type) where
  | goal (value : R)
  | heater_delta (value : R)
  | cooler_delta (value : R)
  | change_gap (value : ℤ)
  | em_mode (value : String)
  | save (value : ℤ)
  | enable (value : ℤ)
  | load (value : ℤ)
deriving DecidableEq, Repr

/-- What SQLite makes of the text that the program puts into a statement. -/
class Sqlite (R : Type) where
  /-- The value that a column has after `%f` has written `value` into the statement. -/
  stored : R → R
  /-- The table after a statement whose text value has a quote in it. -/
  quoted : String → ℤ → ProgTable R → ProgTable R

variable {R : Type}

def ProgRow.set [Sqlite R] (row : ProgRow R) : Column R → ProgRow R
  | .goal v => { row with goal := Sqlite.stored v }
  | .heater_delta v => { row with heater_delta := Sqlite.stored v }
  | .cooler_delta v => { row with cooler_delta := Sqlite.stored v }
  | .change_gap v => { row with change_gap := v }
  | .em_mode v => { row with em_mode := v }
  | .save v => { row with save := v }
  | .enable v => { row with enable := v }
  | .load v => { row with load := v }

@[simp] theorem ProgRow.set_id [Sqlite R] (row : ProgRow R) (c : Column R) :
    (row.set c).id = row.id := by
  cases c <;> rfl

/-- `update 'prog' set ... where id=...`. -/
def ProgTable.set [Sqlite R] (t : ProgTable R) (id : ℤ) (c : Column R) : ProgTable R where
  rows := t.rows.map fun row => if row.id = id then row.set c else row
  nodup := by
    have hid : (fun row : ProgRow R => (if row.id = id then row.set c else row).id) =
        ProgRow.id := by
      funext row
      split_ifs
      · exact row.set_id c
      · rfl
    rw [List.map_map]
    change (t.rows.map fun row => (if row.id = id then row.set c else row).id).Nodup
    rw [hid]
    exact t.nodup

/-- `db_saveTableFieldInt`, `db_saveTableFieldFloat` and `db_saveTableFieldText` on table
`prog`. -/
def dbSaveTableField [Sqlite R] (t : ProgTable R) (id : ℤ) (c : Column R) : ProgTable R :=
  match c with
  | .em_mode v => if Char.ofNat 39 ∈ v.toList then Sqlite.quoted v id t else t.set id c
  | _ => t.set id c

theorem ProgTable.mem_set [Sqlite R] {t : ProgTable R} {id : ℤ} {c : Column R}
    {row : ProgRow R} (h : row ∈ (t.set id c).rows) :
    (∃ r ∈ t.rows, r.id = id ∧ row = r.set c) ∨ (row ∈ t.rows ∧ row.id ≠ id) := by
  obtain ⟨r, hr, he⟩ := List.mem_map.mp h
  split_ifs at he with hid
  · exact Or.inl ⟨r, hr, hid, he.symm⟩
  · subst he
    exact Or.inr ⟨hr, hid⟩

theorem ProgTable.set_mem [Sqlite R] {t : ProgTable R} {r : ProgRow R} (id : ℤ)
    (c : Column R) (h : r ∈ t.rows) :
    (if r.id = id then r.set c else r) ∈ (t.set id c).rows :=
  List.mem_map_of_mem h

/-- The ids of a table do not change. -/
theorem ProgTable.exists_id_set [Sqlite R] {t : ProgTable R} (id i : ℤ) (c : Column R) :
    (∃ r ∈ (t.set id c).rows, r.id = i) ↔ ∃ r ∈ t.rows, r.id = i := by
  constructor
  · rintro ⟨row, hrow, rfl⟩
    rcases mem_set hrow with ⟨r, hr, -, rfl⟩ | ⟨hr, -⟩
    · exact ⟨r, hr, (r.set_id c).symm⟩
    · exact ⟨row, hr, rfl⟩
  · rintro ⟨r, hr, rfl⟩
    refine ⟨_, set_mem id c hr, ?_⟩
    split_ifs
    · exact r.set_id c
    · rfl

/-- The primary key. -/
theorem ProgTable.row_unique (t : ProgTable R) {r r' : ProgRow R} (h : r ∈ t.rows)
    (h' : r' ∈ t.rows) (he : r.id = r'.id) : r = r' :=
  List.inj_on_of_nodup_map t.nodup h h' he

/-- The database as the daemon sees it: table `prog`, table `secure`, and the lists that
`config_getSensorFTSList` and `config_getEMList` make of their tables and of `peer`. -/
structure Db (R : Type) where
  prog : ProgTable R
  secure : List (SecureRow R)
  sensors : List (SensorFTS R)
  ems : List (EM R)

end Regonf
