import Regonf.AcpCodec
import Regonf.Configl

/-! When the lists of `lib/configl.c` are complete or refused. -/
namespace Regonf.Configl

section
variable {Row V L : Type*} (callback : Row → L → Option (Bool × L))

@[simp] theorem dbExec_zero (rows : List Row) (data : L) :
    dbExec callback (some 0) rows data = some (false, data) := by
  cases rows <;> rfl

@[simp] theorem dbExec_nil {error : Option ℕ} (data : L) :
    dbExec callback error [] data = some (error.isNone, data) := by
  rcases error with _ | _ | k <;> rfl

theorem dbExec_cons {error : Option ℕ} (h : error ≠ some 0) (row : Row) (rows : List Row)
    (data : L) : dbExec callback error (row :: rows) data = (callback row data).bind fun r =>
      if r.1 then dbExec callback (error.map (· - 1)) rows r.2 else some (false, r.2) := by
  rcases error with _ | _ | k
  · rfl
  · exact absurd rfl h
  · rfl

end

/-- What `n` is in front of the allocation. -/
def rowCount (error : Option ℕ) (rows : ℕ) : ℤ := if error = some 0 then 0 else atoi (fmtD rows)

theorem dbGetInt_zero (error : Option ℕ) (rows : ℕ) :
    ∃ ok, dbGetInt error rows 0 = some (ok, rowCount error rows) := by
  unfold dbGetInt rowCount
  split_ifs with h
  · exact ⟨false, by rw [h, dbExec_zero]⟩
  · exact ⟨_, by rw [dbExec_cons _ h, getInt_callback, Option.bind_some, if_pos rfl, dbExec_nil]⟩

section
variable {V I : Type*} [DecidableEq I]

theorem checkList_iff (id : V → I) (items : List V) :
    checkList id items = true ↔ (items.map id).Nodup := by
  induction items with
  | nil => simp [checkList]
  | cons item items ih => simp [checkList, ih, @eq_comm _ (id item)]

end

section
variable {Row V I : Type*}

/-- SQLite or the callback refuses to go on before row `n`; the first row has the number `i`. -/
def Stops (refuses : ℕ → Row → Prop) (error : Option ℕ) (i n : ℕ) (rows : List Row) : Prop :=
  (∃ k ≤ n, error = some k) ∨ ∃ k < n, ∃ row, rows[k]? = some row ∧ refuses (i + k) row

/-- A callback that stores one item for each row that it does not refuse. -/
structure Fills (callback : Row → ItemList V → Option (Bool × ItemList V)) (zero : V)
    (refuses : ℕ → Row → Prop) (entry : Row → V → Prop) : Prop where
  full {row : Row} {list : ItemList V} (h : list.item[list.length]? = none) :
    callback row list = none
  refuse {row : Row} {list : ItemList V} (h : list.item[list.length]? = some zero)
    (hr : refuses list.length row) : ∃ list', callback row list = some (false, list')
  fill {row : Row} {list : ItemList V} (h : list.item[list.length]? = some zero)
    (hr : ¬refuses list.length row) : ∃ item,
      callback row list = some (true, putItem list item (list.length + 1)) ∧ entry row item

variable {callback : Row → ItemList V → Option (Bool × ItemList V)} {zero : V}
  {refuses : ℕ → Row → Prop} {entry : Row → V → Prop}

/-- A list with room for `m` more items. -/
def roomList (items : List V) (zero : V) (m max_length : ℕ) : ItemList V :=
  ⟨items ++ List.replicate m zero, items.length, max_length⟩

theorem getElem?_roomList_zero (items : List V) (max_length : ℕ) :
    (roomList items zero 0 max_length).item[(roomList items zero 0 max_length).length]? = none :=
  List.getElem?_eq_none (by simp [roomList])

theorem getElem?_roomList_succ (items : List V) (m max_length : ℕ) :
    (roomList items zero (m + 1) max_length).item[
      (roomList items zero (m + 1) max_length).length]? = some zero := by
  simp [roomList]

theorem putItem_roomList (items : List V) (item : V) (m max_length : ℕ) :
    putItem (roomList items zero (m + 1) max_length) item
      ((roomList items zero (m + 1) max_length).length + 1) =
      roomList (items ++ [item]) zero m max_length := by
  simp [putItem, roomList, List.replicate_succ]

/-- The next row is not refused, and what comes behind it is judged with the next number. -/
theorem stops_cons {error : Option ℕ} {i n : ℕ} {row : Row} {rows : List Row}
    (he : error ≠ some 0) : Stops refuses error i (n + 1) (row :: rows) ↔
      refuses i row ∨ Stops refuses (error.map (· - 1)) (i + 1) n rows := by
  unfold Stops
  constructor
  · rintro (⟨k, hk, rfl⟩ | ⟨k, hk, row', hrow, hr⟩)
    · exact Or.inr (Or.inl ⟨k - 1, by omega, rfl⟩)
    · cases k with
      | zero =>
        cases hrow
        exact Or.inl hr
      | succ k =>
        refine Or.inr (Or.inr ⟨k, by omega, row', by simpa using hrow, ?_⟩)
        rwa [Nat.add_assoc, Nat.add_comm 1]
  · rintro (hr | ⟨k, hk, hk'⟩ | ⟨k, hk, row', hrow, hr⟩)
    · exact Or.inr ⟨0, by omega, row, rfl, hr⟩
    · obtain ⟨k', rfl, hkk⟩ := Option.map_eq_some_iff.mp hk'
      exact Or.inl ⟨k', by omega, rfl⟩
    · refine Or.inr ⟨k + 1, by omega, row', by simpa using hrow, ?_⟩
      rwa [Nat.add_assoc, Nat.add_comm 1] at hr

namespace Fills

variable (h : Fills callback zero refuses entry)
include h

/-- A query that stops within the room of the list fails. -/
theorem dbExec_of_stops {rows : List Row} {error : Option ℕ} (items : List V) {m : ℕ}
    (max_length : ℕ) (hs : Stops refuses error items.length m rows) :
    ∃ list, dbExec callback error rows (roomList items zero m max_length) = some (false, list) := by
  induction rows generalizing error m items with
  | nil =>
    obtain ⟨k, -, rfl⟩ := hs.resolve_right (by simp)
    exact ⟨_, by rw [dbExec_nil]; rfl⟩
  | cons row rows ih =>
    by_cases he : error = some 0
    · exact ⟨_, by rw [he, dbExec_zero]⟩
    cases m with
    | zero =>
      -- without room for a row, only SQLite itself can have stopped
      obtain ⟨k, hk, rfl⟩ := hs.resolve_right (by simp)
      exact absurd (congrArg some (Nat.le_zero.mp hk)) he
    | succ m =>
      rw [dbExec_cons _ he]
      by_cases hr : refuses items.length row
      · obtain ⟨list, hcb⟩ := h.refuse (getElem?_roomList_succ items m max_length) hr
        exact ⟨list, by rw [hcb]; rfl⟩
      · obtain ⟨item, hcb, -⟩ := h.fill (getElem?_roomList_succ items m max_length) hr
        rw [hcb, Option.bind_some, if_pos rfl, putItem_roomList]
        refine ih _ ?_
        simpa using ((stops_cons he).mp hs).resolve_left hr

/-- A query that does not stop goes on behind the room of the list. -/
theorem dbExec_of_lt {rows : List Row} {error : Option ℕ} (items : List V) {m : ℕ}
    (max_length : ℕ) (hs : ¬Stops refuses error items.length m rows) (hm : m < rows.length) :
    dbExec callback error rows (roomList items zero m max_length) = none := by
  induction rows generalizing error m items with
  | nil => cases hm
  | cons row rows ih =>
    have he : error ≠ some 0 := fun he => hs (Or.inl ⟨0, Nat.zero_le _, he⟩)
    rw [dbExec_cons _ he]
    cases m with
    -- the callback writes behind the last item
    | zero => rw [h.full (getElem?_roomList_zero items max_length), Option.bind_none]
    | succ m =>
      obtain ⟨hr, hs⟩ := not_or.mp (mt (stops_cons he).mpr hs)
      obtain ⟨item, hcb, -⟩ := h.fill (getElem?_roomList_succ items m max_length) hr
      rw [hcb, Option.bind_some, if_pos rfl, putItem_roomList]
      exact ih _ (by simpa using hs) (Nat.lt_of_succ_lt_succ hm)

/-- With room for every row, a query that succeeds has stored one item for each. -/
theorem dbExec_of_le {rows : List Row} (error : Option ℕ) (items : List V) {m : ℕ}
    (max_length : ℕ) (hm : rows.length ≤ m) :
    ∃ ok list, dbExec callback error rows (roomList items zero m max_length) = some (ok, list) ∧
      (ok = true → ∃ items', List.Forall₂ entry rows items' ∧
        list = roomList (items ++ items') zero (m - rows.length) max_length) := by
  induction rows generalizing error m items with
  | nil => exact ⟨_, _, dbExec_nil _ _, fun _ => ⟨[], .nil, by simp⟩⟩
  | cons row rows ih =>
    by_cases he : error = some 0
    · exact ⟨false, _, by rw [he, dbExec_zero], nofun⟩
    obtain ⟨m, rfl⟩ := Nat.exists_eq_succ_of_ne_zero (Nat.ne_of_gt (Nat.zero_lt_of_lt hm))
    rw [dbExec_cons _ he]
    by_cases hr : refuses items.length row
    · obtain ⟨list, hcb⟩ := h.refuse (getElem?_roomList_succ items m max_length) hr
      exact ⟨false, list, by rw [hcb]; rfl, nofun⟩
    · obtain ⟨item, hcb, hentry⟩ := h.fill (getElem?_roomList_succ items m max_length) hr
      rw [hcb, Option.bind_some, if_pos rfl, putItem_roomList]
      -- one item more is in the list, and one row less is to come
      obtain ⟨ok, list, hrun, hok⟩ := ih _ (items ++ [item]) (Nat.le_of_succ_le_succ hm)
      refine ⟨ok, list, hrun, fun ht => ?_⟩
      obtain ⟨items', hall, rfl⟩ := hok ht
      exact ⟨item :: items', .cons hentry hall, by simp⟩

end Fills

/-- If the result is 1, the list has one entry for each row, in this order and with distinct ids.
If it is 0, the list is empty. -/
def CompleteOrRefused (entry : Row → V → Prop) (id : V → I) (rows : List Row)
    (r : Option (Bool × ItemList V)) : Prop :=
  ∃ ok list, r = some (ok, list) ∧
    (ok = true → List.Forall₂ entry rows (list.item.take list.length) ∧
      ((list.item.take list.length).map id).Nodup) ∧
    (ok = false → list.length = 0)

/-- The file cannot be opened, the table is empty, or the query for the number of rows gives its row
and the number is positive as an `int`: and then there is no memory for this many items, or they are
enough, or the other query stops before their end. -/
def Counted (refuses : ℕ → Row → Prop) (w : World) (rows : List Row) : Prop :=
  w.opens = false ∨ rows = [] ∨ w.count ≠ some 0 ∧ 0 < atoi (fmtD rows.length) ∧
    (w.calloc = false ∨ rows.length ≤ atoi (fmtD rows.length) ∨
      Stops refuses w.select 0 (atoi (fmtD rows.length)).toNat rows)

/-- The two ways out that leave the list empty. -/
theorem completeOrRefused_reset [DecidableEq I] {id : V → I} {rows : List Row} {ok : Bool} :
    CompleteOrRefused entry id rows (some (ok, resetList)) ↔ ok = false ∨ rows = [] := by
  constructor
  · rintro ⟨ok', list, h, hok, -⟩
    cases h
    cases ok with
    | false => exact Or.inl rfl
    | true => exact Or.inr (List.forall₂_nil_right_iff.mp (hok rfl).1)
  · intro h
    refine ⟨ok, _, rfl, fun hok => ?_, fun _ => rfl⟩
    obtain rfl := h.resolve_left (by simp [hok])
    exact ⟨.nil, List.nodup_nil⟩

/-- The query for the items and the check, in a list of `n` items. -/
theorem Fills.select_iff [DecidableEq I] (h : Fills callback zero refuses entry) (id : V → I)
    (error : Option ℕ) (rows : List Row) (n : ℕ) :
    CompleteOrRefused entry id rows
        ((dbExec callback error rows (initList zero n)).map (checkedList id)) ↔
      rows.length ≤ n ∨ Stops refuses error 0 n rows := by
  have hlist : initList zero n = roomList [] zero n n := rfl
  rw [hlist]
  by_cases hle : rows.length ≤ n
  · refine iff_of_true ?_ (Or.inl hle)
    obtain ⟨ok, list, hrun, hok⟩ := h.dbExec_of_le error [] n hle
    rw [hrun, Option.map_some, checkedList]
    cases ok with
    | false => exact completeOrRefused_reset.mpr (Or.inl rfl)
    | true =>
      obtain ⟨items, hall, rfl⟩ := hok rfl
      have htake : (roomList ([] ++ items) zero (n - rows.length) n).item.take
          (roomList ([] ++ items) zero (n - rows.length) n).length = items := by
        simp [roomList]
      dsimp only
      rw [htake]
      cases hcheck : checkList id items with
      -- two items with one id: the list is freed
      | false => exact completeOrRefused_reset.mpr (Or.inl rfl)
      | true =>
        refine ⟨true, _, rfl, fun _ => ?_, nofun⟩
        rw [htake]
        exact ⟨hall, (checkList_iff id items).mp hcheck⟩
  · rw [or_iff_right hle]
    by_cases hs : Stops refuses error 0 n rows
    · obtain ⟨list, hrun⟩ := h.dbExec_of_stops [] n hs
      rw [hrun]
      exact iff_of_true (completeOrRefused_reset.mpr (Or.inl rfl)) hs
    · -- nothing stops the query at the end of the list
      rw [h.dbExec_of_lt [] n hs (by omega)]
      refine iff_of_false ?_ hs
      rintro ⟨_, _, h, -⟩
      cases h

theorem Fills.complete_iff [DecidableEq I] (h : Fills callback zero refuses entry) (id : V → I)
    (w : World) (rows : List Row) :
    CompleteOrRefused entry id rows (config_getList callback id zero w rows) ↔
      Counted refuses w rows := by
  unfold config_getList Counted
  cases hopen : w.opens with
  | false => simp [completeOrRefused_reset]
  | true =>
    obtain ⟨ok, hn⟩ := dbGetInt_zero w.count rows.length
    rw [hn]
    simp only [Bool.not_true, Bool.false_eq_true, if_false, Option.bind_some, reduceCtorEq,
      false_or]
    by_cases hrows : rows = []
    · -- an empty table counts no rows, whatever the query does
      subst hrows
      have h0 : rowCount w.count 0 = 0 := by
        unfold rowCount
        split_ifs <;> rfl
      rw [List.length_nil, h0, if_pos (le_refl 0)]
      simp [completeOrRefused_reset]
    unfold rowCount
    by_cases hcount : w.count = some 0
    · -- the query has failed and `n` is still 0
      rw [if_pos hcount, if_pos (le_refl 0)]
      simp [completeOrRefused_reset, hrows, hcount]
    rw [if_neg hcount]
    by_cases hpos : 0 < atoi (fmtD rows.length)
    · rw [if_neg (not_le.mpr hpos)]
      cases hcalloc : w.calloc with
      | false => simp [completeOrRefused_reset, hcount, hpos]
      | true =>
        simp only [Bool.not_true, Bool.false_eq_true, if_false, h.select_iff]
        rw [Int.le_toNat hpos.le]
        simp [hrows, hcount, hpos]
    · -- a number that does not fit into an `int`
      rw [if_pos (not_lt.mp hpos)]
      simp [completeOrRefused_reset, hrows, hpos]

end

/-! The three callbacks. -/

section
variable (alloc : ℕ → Bool × Bool) (inet_aton : List UInt8 → Option UInt32) (fd : Option ℕ)

/-- An item for a row of table `peer`. -/
def PeerEntry (row : PeerRow) (item : Peer) : Prop :=
  ∃ a, inet_aton row.ip_addr = some a ∧ item = {
    id := row.id, addr_str := row.ip_addr, port := atoi row.port, fd := fd
    addr := ⟨a, UInt16.ofNat (atoi row.port % 2 ^ 16).toNat⟩
    addr_size := sizeofSockAddr, active := false }

/-- No memory for the strings of the row, or no address. -/
def PeerRefused (k : ℕ) (row : PeerRow) : Prop :=
  (alloc k).1 = false ∨ (alloc k).2 = false ∨ inet_aton row.ip_addr = none

theorem fills_peer : Fills (fun row => getPeerList_callback alloc inet_aton fd (PeerRow.argv row))
    zeroPeer (PeerRefused alloc inet_aton) (PeerEntry inet_aton fd) where
  full h := by rw [getPeerList_callback, h, Option.map_none]
  refuse {row list} h hr := by
    rw [getPeerList_callback, h, Option.map_some]
    unfold PeerRefused at hr
    rcases hr with hr | hr | hr
    · simp [PeerRow.argv, columnLoop, peerColumn, hr]
    · cases h₁ : (alloc list.length).1 <;>
        simp [PeerRow.argv, columnLoop, peerColumn, hr, h₁]
    · cases h₁ : (alloc list.length).1 <;> cases h₂ : (alloc list.length).2 <;>
        simp [PeerRow.argv, columnLoop, peerColumn, makeClientAddr, hr, h₁, h₂]
  fill {row list} h hr := by
    unfold PeerRefused at hr
    simp only [not_or, Bool.not_eq_false, Option.ne_none_iff_exists'] at hr
    obtain ⟨h₁, h₂, a, ha⟩ := hr
    rw [getPeerList_callback, h, Option.map_some]
    refine ⟨_, ?_, a, ha, rfl⟩
    simp [PeerRow.argv, columnLoop, peerColumn, makeClientAddr, h₁, h₂, ha]

end

section
variable {R : Type*} [Zero R] (atof : List UInt8 → R) (peer_list : List Peer)

/-- No peer of the list has the id that a row names. -/
def Unlisted {Row : Type*} (peer_id : Row → List UInt8) (_ : ℕ) (row : Row) : Prop :=
  ∀ p ∈ peer_list, p.id ≠ peer_id row

/-- An item for a row of table `sensor_mapping`, with a copy of its peer. -/
def SensorEntry (row : SensorRow) (item : SensorFTS R) : Prop :=
  ∃ p ∈ peer_list, p.id = row.peer_id ∧ item = { (zeroSensorFTS : SensorFTS R) with
    id := atoi row.sensor_id, remote_id := atoi row.remote_id, peer := p }

/-- An item for a row of table `em_mapping`, with a copy of its peer. -/
def EMEntry (row : EMRow) (item : EM R) : Prop :=
  ∃ p ∈ peer_list, p.id = row.peer_id ∧ item = { (zeroEM : EM R) with
    id := atoi row.em_id, remote_id := atoi row.remote_id, peer := p, pwm_rsl := atof row.pwm_rsl }

theorem getPeerById_none {peer_list : List Peer} {id : List UInt8} :
    getPeerById id peer_list = none ↔ ∀ p ∈ peer_list, p.id ≠ id := by
  simp [getPeerById]

theorem getPeerById_some {peer_list : List Peer} {id : List UInt8}
    (h : ¬∀ p ∈ peer_list, p.id ≠ id) :
    ∃ p ∈ peer_list, p.id = id ∧ getPeerById id peer_list = some p := by
  obtain ⟨p, hp⟩ := Option.ne_none_iff_exists'.mp (mt getPeerById_none.mp h)
  exact ⟨p, List.mem_of_find?_eq_some hp, by simpa using List.find?_some hp, hp⟩

theorem fills_sensor : Fills
    (fun row => getSensorFTSList_callback (R := R) peer_list (SensorRow.argv row)) zeroSensorFTS
    (Unlisted peer_list SensorRow.peer_id) (SensorEntry peer_list) where
  full h := by rw [getSensorFTSList_callback, mapping_callback, h, Option.map_none]
  refuse h hr := by
    rw [getSensorFTSList_callback, mapping_callback, h, Option.map_some]
    simp [SensorRow.argv, columnLoop, sensorColumn, getPeerById_none.mpr hr]
  fill h hr := by
    obtain ⟨p, hp, hid, hget⟩ := getPeerById_some hr
    rw [getSensorFTSList_callback, mapping_callback, h, Option.map_some]
    refine ⟨_, ?_, p, hp, hid, rfl⟩
    simp [SensorRow.argv, columnLoop, sensorColumn, hget]

theorem fills_em : Fills (fun row => getEMList_callback atof peer_list (EMRow.argv row)) zeroEM
    (Unlisted peer_list EMRow.peer_id) (EMEntry atof peer_list) where
  full h := by rw [getEMList_callback, mapping_callback, h, Option.map_none]
  refuse h hr := by
    rw [getEMList_callback, mapping_callback, h, Option.map_some]
    simp [EMRow.argv, columnLoop, emColumn, getPeerById_none.mpr hr]
  fill h hr := by
    obtain ⟨p, hp, hid, hget⟩ := getPeerById_some hr
    rw [getEMList_callback, mapping_callback, h, Option.map_some]
    refine ⟨_, ?_, p, hp, hid, rfl⟩
    simp [EMRow.argv, columnLoop, emColumn, hget]

/-- Each of the three lists is complete or refused if and only if its rows were counted. -/
theorem config_getLists_iff (alloc : ℕ → Bool × Bool) (inet_aton : List UInt8 → Option UInt32)
    (fd : Option ℕ) (w : World) :
    (∀ rows : List PeerRow, CompleteOrRefused (PeerEntry inet_aton fd) Peer.id rows
        (config_getPeerList alloc inet_aton fd w rows) ↔
      Counted (PeerRefused alloc inet_aton) w rows) ∧
    (∀ rows : List SensorRow, CompleteOrRefused (SensorEntry peer_list) SensorFTS.id rows
        (config_getSensorFTSList (R := R) peer_list w rows) ↔
      Counted (Unlisted peer_list SensorRow.peer_id) w rows) ∧
    (∀ rows : List EMRow, CompleteOrRefused (EMEntry atof peer_list) EM.id rows
        (config_getEMList atof peer_list w rows) ↔
      Counted (Unlisted peer_list EMRow.peer_id) w rows) :=
  ⟨fun rows => (fills_peer alloc inet_aton fd).complete_iff Peer.id w rows,
    fun rows => (fills_sensor peer_list).complete_iff SensorFTS.id w rows,
    fun rows => (fills_em atof peer_list).complete_iff EM.id w rows⟩

end

/-- A table with a row, and a query for the number of rows that fails: the result is 1, and the list
is empty. -/
theorem uncounted_rows_dropped :
    config_getPeerList (fun _ => (true, true)) (fun _ => some 0) none ⟨true, some 0, true, none⟩
        [⟨[49], [50], [51]⟩] = some (true, resetList) ∧
      ¬CompleteOrRefused (PeerEntry (fun _ => some 0) none) Peer.id [⟨[49], [50], [51]⟩]
        (config_getPeerList (fun _ => (true, true)) (fun _ => some 0) none
          ⟨true, some 0, true, none⟩ [⟨[49], [50], [51]⟩]) := by
  have h : config_getPeerList (fun _ => (true, true)) (fun _ => some 0) none
      ⟨true, some 0, true, none⟩ [⟨[49], [50], [51]⟩] = some (true, resetList) := by decide +kernel
  refine ⟨h, ?_⟩
  rw [h, completeOrRefused_reset]
  decide

end Regonf.Configl
