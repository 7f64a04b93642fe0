import Mathlib.Data.List.Basic
import Mathlib.Logic.Function.Iterate
import Regonf.Lib.Blocks

/-! Rows behind each other, each with a delimiter at its end, and a reader that scans a row at the
front of the text and goes on to the next: when it reads the rows up to the first one that is not
well formed. -/
namespace Regonf.Rows

variable {α β : Type*}

/-- The values of the rows in front of the first one that is not well formed. -/
def leading (row : List α → Option β) : List (List α) → List β
  | [] => []
  | r :: rs =>
    match row r with
    | none => []
    | some v => v :: leading row rs

/-- Reads at most `n` rows: `scan` reads the front of the text, `next` drops a row. -/
def readRows (scan : List α → Option β) (next : List α → List α) : ℕ → List α → List β
  | 0, _ => []
  | n + 1, text =>
    match scan text with
    | none => []
    | some v => v :: readRows scan next n (next text)

variable {row scan : List α → Option β} {next : List α → List α}

theorem leading_cons {r : List α} {rs : List (List α)} {v : β} (h : row r = some v) :
    leading row (r :: rs) = v :: leading row rs := by
  rw [leading, h]

theorem leading_stop {r : List α} {rs : List (List α)} (h : row r = none) :
    leading row (r :: rs) = [] := by
  rw [leading, h]

theorem leading_append {rs : List (List α)} {vs : List β} (h : rs.map row = vs.map some)
    (ts : List (List α)) : leading row (rs ++ ts) = vs ++ leading row ts := by
  induction rs generalizing vs with
  | nil =>
    cases vs with
    | nil => rfl
    | cons v vs => cases h
  | cons r rs ih =>
    cases vs with
    | nil => cases h
    | cons v vs =>
      obtain ⟨hv, h⟩ := List.cons.inj h
      rw [List.cons_append, leading_cons hv, ih h, List.cons_append]

theorem readRows_nil {n : ℕ} {text : List α} (h : scan text = none) :
    readRows scan next n text = [] := by
  cases n with
  | zero => rfl
  | succ n => rw [readRows, h]

theorem length_readRows_le (n : ℕ) (text : List α) : (readRows scan next n text).length ≤ n := by
  induction n generalizing text with
  | zero => exact Nat.zero_le 0
  | succ n ih =>
    rw [readRows]
    cases scan text with
    | none => exact Nat.zero_le _
    | some v => exact Nat.succ_le_succ (ih _)

variable [DecidableEq α] {d : α}

/-- The rows of a text that is written row by row. -/
theorem splitOn_rows {rs : List (List α)} (h : ∀ r ∈ rs, d ∉ r) (t : List α) :
    ((rs.map (· ++ [d])).flatten ++ t).splitOn d = rs ++ t.splitOn d := by
  induction rs with
  | nil => rfl
  | cons r rs ih =>
    obtain ⟨hr, h⟩ := List.forall_mem_cons.mp h
    rw [List.map_cons, List.flatten_cons, List.append_assoc, List.append_assoc,
      List.singleton_append, List.splitOn_append_cons_self_of_not_mem hr, ih h, List.cons_append]

/-- What the reader has to know of a row: `scan` reads a well-formed row at the front of the text,
and `next` leaves the rows behind the first, up to the first that is not well formed. -/
structure ReadsRows (row scan : List α → Option β) (next : List α → List α) (d : α) : Prop where
  row_nil : row [] = none
  scan_nil : scan [] = none
  scan_last : ∀ {r v}, d ∉ r → row r = some v → scan r = some v
  scan_row : ∀ {r v}, d ∉ r → row r = some v → ∀ t, scan (r ++ d :: t) = some v
  next_last : ∀ {r}, d ∉ r → next r = []
  next_row : ∀ {r}, d ∉ r → ∀ t,
    next (r ++ d :: t) = t ∨ next (r ++ d :: t) = [] ∧ leading row (t.splitOn d) = []

theorem ReadsRows.leading_nil (h : ReadsRows row scan next d) :
    leading row (([] : List α).splitOn d) = [] := by
  rw [List.splitOn_nil]
  exact leading_stop h.row_nil

/-- The first row, if it is well formed, and the rows behind it. -/
theorem ReadsRows.step (h : ReadsRows row scan next d) (text : List α) :
    leading row (text.splitOn d) = [] ∨
      ∃ v, scan text = some v ∧
        leading row (text.splitOn d) = v :: leading row ((next text).splitOn d) := by
  -- the first row is the whole text, or ends at a delimiter
  rcases Blocks.block_cases d text with hd | ⟨r, t, hr, rfl⟩
  · rw [List.splitOn_eq_singleton hd]
    cases hv : row text with
    | none => exact Or.inl (leading_stop hv)
    | some v =>
      refine Or.inr ⟨v, h.scan_last hd hv, ?_⟩
      rw [leading_cons hv, h.next_last hd, h.leading_nil, leading]
  · rw [List.splitOn_append_cons_self_of_not_mem hr]
    cases hv : row r with
    | none => exact Or.inl (leading_stop hv)
    | some v =>
      refine Or.inr ⟨v, h.scan_row hr hv t, ?_⟩
      rw [leading_cons hv]
      rcases h.next_row hr t with hn | ⟨hn, hl⟩
      · rw [hn]
      · rw [hn, hl, h.leading_nil]

/-- The reader stops at the first row that is not well formed exactly when it is full before, or
its scan fails on the text from that row on. -/
theorem ReadsRows.readRows_iff (h : ReadsRows row scan next d) (n : ℕ) (text : List α) :
    readRows scan next n text = (leading row (text.splitOn d)).take n ↔
      n ≤ (leading row (text.splitOn d)).length ∨
        scan (next^[(leading row (text.splitOn d)).length] text) = none := by
  induction n generalizing text with
  | zero => simp [readRows]
  | succ n ih =>
    rcases h.step text with hl | ⟨v, hv, hl⟩
    -- the first row is not well formed, so the scan of the text decides
    · rw [hl, List.take_nil, readRows]
      cases hv : scan text <;> simp [hv]
    · rw [hl, readRows, hv]
      simp only [List.take_succ_cons, List.cons.injEq, true_and, List.length_cons,
        Nat.add_le_add_iff_right, Function.iterate_succ_apply]
      exact ih (next text)

/-- A reader that is full after the rows that were written does not look at what follows them. -/
theorem ReadsRows.readRows_full (h : ReadsRows row scan next d) {rs : List (List α)}
    {vs : List β} (hrs : ∀ r ∈ rs, d ∉ r) (hvs : rs.map row = vs.map some) (t : List α) :
    readRows scan next vs.length ((rs.map (· ++ [d])).flatten ++ t) = vs := by
  have hl : leading row (((rs.map (· ++ [d])).flatten ++ t).splitOn d) =
      vs ++ leading row (t.splitOn d) := by
    rw [splitOn_rows hrs, leading_append hvs]
  have hfull := (h.readRows_iff vs.length ((rs.map (· ++ [d])).flatten ++ t)).mpr
    (Or.inl (by simp [hl]))
  rw [hfull, hl, List.take_left]

/-- A text that is written row by row is read back, when the reader has room for all rows. -/
theorem ReadsRows.readRows_rows (h : ReadsRows row scan next d) {rs : List (List α)}
    {vs : List β} (hrs : ∀ r ∈ rs, d ∉ r) (hvs : rs.map row = vs.map some) {n : ℕ}
    (hn : vs.length ≤ n) :
    readRows scan next n (rs.map (· ++ [d])).flatten = vs := by
  induction rs generalizing vs n with
  | nil =>
    cases vs with
    | nil => exact readRows_nil h.scan_nil
    | cons v vs => cases hvs
  | cons r rs ih =>
    obtain ⟨hr, hrs⟩ := List.forall_mem_cons.mp hrs
    cases vs with
    | nil => cases hvs
    | cons v vs =>
      obtain ⟨hv, hvs⟩ := List.cons.inj hvs
      obtain ⟨n, rfl⟩ := Nat.exists_eq_add_of_le' hn
      have htext : ((r :: rs).map (· ++ [d])).flatten = r ++ d :: (rs.map (· ++ [d])).flatten := by
        simp
      rw [htext, List.length_cons, ← Nat.add_assoc, readRows, h.scan_row hr hv]
      rcases h.next_row hr (rs.map (· ++ [d])).flatten with ht | ⟨ht, hl⟩
      · rw [ht, ih hrs hvs (Nat.le_add_left _ _)]
      · -- `next` ends the text, so there is no row behind this one
        have hrest := splitOn_rows hrs []
        rw [List.append_nil] at hrest
        rw [hrest, leading_append hvs, List.append_eq_nil_iff] at hl
        rw [ht, readRows_nil h.scan_nil, hl.1]

/-! A reader whose scan may fail. -/

/-- Reads at most `n` rows: `none` is a failure of `scan`, `some none` the end of the rows. -/
def readChecked (scan : List α → Option (Option β)) (next : List α → List α) :
    ℕ → List α → Option (List β)
  | 0, _ => some []
  | n + 1, text =>
    match scan text with
    | none => none
    | some none => some []
    | some (some v) => (readChecked scan next n (next text)).map (v :: ·)

omit [DecidableEq α] in
/-- A reader that does not fail has read each row that it came to without a failure. -/
theorem readChecked_isSome_iff {scan : List α → Option (Option β)} {stored fits : List α → Prop}
    (hfail : ∀ t, scan t = none ↔ ¬fits t)
    (hitem : ∀ t v, scan t = some v → (v.isSome ↔ stored t)) (n : ℕ) (text : List α) :
    (readChecked scan next n text).isSome ↔
      ∀ i < n, (∀ j < i, stored (next^[j] text)) → fits (next^[i] text) := by
  induction n generalizing text with
  | zero => simp [readChecked]
  | succ n ih =>
    have hfit (h : scan text ≠ none) : fits text := by
      by_contra hbad
      exact h ((hfail text).mpr hbad)
    rw [readChecked]
    rcases hs : scan text with _ | _ | v
    · have hbad := (hfail text).mp hs
      exact iff_of_false (by simp) fun h => hbad (h 0 (Nat.succ_pos n) fun j hj => by omega)
    -- the reader stops here, so no row behind this one is read
    · have hstop : ¬stored text := by simpa using hitem text none hs
      refine iff_of_true rfl fun i _ hi => ?_
      cases i with
      | zero => exact hfit (by simp [hs])
      | succ i => exact absurd (hi 0 (Nat.succ_pos i)) hstop
    · have hgo : stored text := by simpa using hitem text (some v) hs
      rw [Option.isSome_map, ih]
      constructor
      · intro h i hi hst
        cases i with
        | zero => exact hfit (by simp [hs])
        | succ i => exact h i (by omega) fun j hj => hst (j + 1) (by omega)
      · intro h i hi hst
        refine h (i + 1) (by omega) fun j hj => ?_
        cases j with
        | zero => exact hgo
        | succ j => exact hst j (by omega)

omit [DecidableEq α] in
theorem length_readChecked_le {scan : List α → Option (Option β)} {n : ℕ} {text : List α}
    {vs : List β} (h : readChecked scan next n text = some vs) : vs.length ≤ n := by
  induction n generalizing text vs with
  | zero =>
    cases h
    exact Nat.le_refl 0
  | succ n ih =>
    rw [readChecked] at h
    rcases hs : scan text with _ | _ | v <;> rw [hs] at h
    · cases h
    · cases h
      exact Nat.zero_le _
    · obtain ⟨ws, hw, rfl⟩ := Option.map_eq_some_iff.mp h
      exact Nat.succ_le_succ (ih hw)

omit [DecidableEq α] in
/-- Where each row takes something from the text, there are not more rows than that. -/
theorem length_readChecked_le_of_lt {scan : List α → Option (Option β)} (size : List α → ℕ)
    (hlt : ∀ t v, scan t = some (some v) → size (next t) < size t) {n : ℕ} {text : List α}
    {vs : List β} (h : readChecked scan next n text = some vs) : vs.length ≤ size text := by
  induction n generalizing text vs with
  | zero =>
    cases h
    exact Nat.zero_le _
  | succ n ih =>
    rw [readChecked] at h
    rcases hs : scan text with _ | _ | v <;> rw [hs] at h
    · cases h
    · cases h
      exact Nat.zero_le _
    · obtain ⟨ws, hw, rfl⟩ := Option.map_eq_some_iff.mp h
      exact Nat.lt_of_le_of_lt (ih hw) (hlt text v hs)

end Regonf.Rows
