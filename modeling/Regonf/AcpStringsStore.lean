import Regonf.AcpStrings

/-! What the decoders of strings leave in the items of their lists. -/
namespace Regonf

open Blocks Rows

/-! `strcpy` into the items. -/

theorem strcpy_none {src : List UInt8} (h : cString src = none) (dst : List UInt8) (i : ℕ) :
    strcpy dst i src = none := by
  rw [strcpy, h, Option.bind_none]

theorem strcpy_some {src s dst : List UInt8} {i : ℕ} (h : cString src = some s)
    (hi : i + s.length < dst.length) : strcpy dst i src = some (writeAt dst i (s ++ [0])) := by
  rw [strcpy, h, Option.bind_some, if_pos hi]

theorem length_writeAt {a x : List UInt8} {i : ℕ} (h : i + x.length ≤ a.length) :
    (writeAt a i x).length = a.length := by
  simp only [writeAt, List.length_append, List.length_take, List.length_drop]
  omega

theorem cString_eq_some_iff {a s : List UInt8} :
    cString a = some s ↔ 0 ∉ s ∧ ∃ t, a = s ++ 0 :: t := by
  constructor
  · intro h
    refine ⟨Sendto.not_mem_cString h, ?_⟩
    unfold cString at h
    split_ifs at h with hm
    cases h
    obtain ⟨x, t, hx, rfl⟩ := (block_cases 0 a).resolve_left (not_not_intro hm)
    exact ⟨t, by rw [takeWhile_ne_append hx]⟩
  · rintro ⟨h₀, t, rfl⟩
    exact cString_append h₀ t

/-- The string that was written. -/
theorem cString_drop_writeAt {a s : List UInt8} {i : ℕ} (h₀ : 0 ∉ s) (hi : i ≤ a.length) :
    cString ((writeAt a i (s ++ [0])).drop i) = some s := by
  rw [writeAt, List.append_assoc, List.drop_append_of_le_length (by simp [hi]),
    List.drop_eq_nil_of_le (by simp), List.nil_append, List.append_assoc, List.singleton_append,
    cString_append h₀]

/-- A string in front of what is written stays. -/
theorem cString_drop_writeAt_front {a s x : List UInt8} {k i : ℕ}
    (hs : cString (a.drop k) = some s) (hk : k + s.length < i) (hi : i ≤ a.length) :
    cString ((writeAt a i x).drop k) = some s := by
  obtain ⟨h₀, t, ht⟩ := cString_eq_some_iff.mp hs
  refine cString_eq_some_iff.mpr ⟨h₀, t.take (i - k - s.length - 1) ++ (x ++ a.drop (i + x.length)),
    ?_⟩
  have htake : (a.take i).drop k = s ++ 0 :: t.take (i - k - s.length - 1) := by
    rw [List.drop_take, ht, List.take_append, List.take_of_length_le (by omega),
      show i - k - s.length = i - k - s.length - 1 + 1 by omega, List.take_succ_cons]
    simp
  rw [writeAt, List.append_assoc, List.drop_append_of_le_length (by simp; omega), htake]
  simp

/-! What the items of a list hold. -/

/-- An `S1List` in an array for `cap` strings. -/
def HoldsS1 (cap : ℕ) (item : List UInt8) (ws : List (List UInt8)) : Prop :=
  item.length = cap * LINE_SIZE ∧ ∀ (k : ℕ) (w : List UInt8), ws[k]? = some w →
    w.length < LINE_SIZE ∧ cString (item.drop (k * LINE_SIZE)) = some w

/-- An array of `cap` items whose strings have `LINE_SIZE` bytes each. -/
def HoldsI1S1 (cap : ℕ) (item : List I1S1) (ws : List (ℤ × List UInt8)) : Prop :=
  item.length = cap ∧ (∀ i ∈ item, i.p1.length = LINE_SIZE) ∧
    ∀ (k : ℕ) (w : ℤ × List UInt8), ws[k]? = some w →
      w.2.length < LINE_SIZE ∧ ∃ i, item[k]? = some i ∧ i.p0 = w.1 ∧ cString i.p1 = some w.2

def HoldsS2 (cap : ℕ) (item : List Sendto.S2) (ws : List (List UInt8 × List UInt8)) : Prop :=
  item.length = cap ∧ (∀ i ∈ item, i.p0.length = LINE_SIZE ∧ i.p1.length = LINE_SIZE) ∧
    ∀ (k : ℕ) (w : List UInt8 × List UInt8), ws[k]? = some w →
      w.1.length < LINE_SIZE ∧ w.2.length < LINE_SIZE ∧
        ∃ i, item[k]? = some i ∧ cString i.p0 = some w.1 ∧ cString i.p1 = some w.2

theorem getElem?_snoc {α : Type*} {ws : List α} {w v : α} {k : ℕ}
    (h : (ws ++ [w])[k]? = some v) : ws[k]? = some v ∧ k < ws.length ∨ k = ws.length ∧ v = w := by
  rcases lt_trichotomy k ws.length with hk | hk | hk
  · rw [List.getElem?_append_left hk] at h
    exact Or.inl ⟨h, hk⟩
  · subst hk
    simp at h
    exact Or.inr ⟨rfl, h.symm⟩
  · rw [List.getElem?_eq_none (by simp; omega)] at h
    cases h

theorem storeS1_holds {cap : ℕ} {p0 w : List UInt8} (hp : cString p0 = some w)
    (hw : w.length < LINE_SIZE) {list : S1List} {ws : List (List UInt8)}
    (hh : HoldsS1 cap list.item ws) (hl : list.length = ws.length) (hc : ws.length < cap) :
    ∃ item', storeS1 p0 list = some item' ∧ HoldsS1 cap item' (ws ++ [w]) := by
  obtain ⟨hlen, hh⟩ := hh
  -- field `ws.length` is inside of the array
  have hroom : ws.length * LINE_SIZE + LINE_SIZE ≤ list.item.length := by
    rw [hlen, ← Nat.succ_mul]
    exact Nat.mul_le_mul_right _ hc
  refine ⟨_, strcpy_some hp (by rw [hl]; omega), ?_, fun k v hk => ?_⟩
  · rw [hl, length_writeAt (by simp; omega), hlen]
  rw [hl]
  rcases getElem?_snoc hk with ⟨hv, hlt⟩ | ⟨rfl, rfl⟩
  · obtain ⟨hvl, hvs⟩ := hh k v hv
    refine ⟨hvl, cString_drop_writeAt_front hvs ?_ (by omega)⟩
    have hle : (k + 1) * LINE_SIZE ≤ ws.length * LINE_SIZE := Nat.mul_le_mul_right _ hlt
    rw [Nat.succ_mul] at hle
    omega
  · exact ⟨hw, cString_drop_writeAt (Sendto.not_mem_cString hp) (by omega)⟩

/-- The string in a field of its own. -/
theorem strcpy_field {dst p w : List UInt8} (hd : dst.length = LINE_SIZE)
    (hp : cString p = some w) (hw : w.length < LINE_SIZE) :
    ∃ p', strcpy dst 0 p = some p' ∧ p'.length = LINE_SIZE ∧ cString p' = some w := by
  refine ⟨_, strcpy_some hp (by omega), ?_, ?_⟩
  · rw [length_writeAt (by simp; omega), hd]
  · simpa using cString_drop_writeAt (a := dst) (Sendto.not_mem_cString hp) (Nat.zero_le _)

theorem storeI1S1_holds {cap : ℕ} {p0 : ℤ} {p1 w : List UInt8} (hp : cString p1 = some w)
    (hw : w.length < LINE_SIZE) {list : I1S1List} {ws : List (ℤ × List UInt8)}
    (hh : HoldsI1S1 cap list.item ws) (hl : list.length = ws.length) (hc : ws.length < cap) :
    ∃ item', storeI1S1 (p0, p1) list = some item' ∧ HoldsI1S1 cap item' (ws ++ [(p0, w)]) := by
  obtain ⟨hlen, hsize, hh⟩ := hh
  have hlt : list.length < list.item.length := by omega
  obtain ⟨p', hcpy, hpl, hps⟩ := strcpy_field (hsize _ (List.getElem_mem hlt)) hp hw
  refine ⟨list.item.set list.length ⟨p0, p'⟩, ?_, ?_, ?_, fun k v hk => ?_⟩
  · simp only [storeI1S1, List.getElem?_eq_getElem hlt, Option.bind_some, hcpy, Option.map_some]
  · rw [List.length_set, hlen]
  · intro i hi
    rcases List.mem_or_eq_of_mem_set hi with hi | rfl
    · exact hsize i hi
    · exact hpl
  rcases getElem?_snoc hk with ⟨hv, hlt'⟩ | ⟨rfl, rfl⟩
  · obtain ⟨hvl, i, hi, hv⟩ := hh k v hv
    exact ⟨hvl, i, by rw [List.getElem?_set_ne (by omega), hi], hv⟩
  · exact ⟨hw, _, by rw [← hl, List.getElem?_set_self hlt], rfl, hps⟩

theorem storeS2_holds {cap : ℕ} {p0 p1 w₀ w₁ : List UInt8} (hp₀ : cString p0 = some w₀)
    (hp₁ : cString p1 = some w₁) (hw₀ : w₀.length < LINE_SIZE) (hw₁ : w₁.length < LINE_SIZE)
    {list : S2List} {ws : List (List UInt8 × List UInt8)} (hh : HoldsS2 cap list.item ws)
    (hl : list.length = ws.length) (hc : ws.length < cap) :
    ∃ item', storeS2 (p0, p1) list = some item' ∧ HoldsS2 cap item' (ws ++ [(w₀, w₁)]) := by
  obtain ⟨hlen, hsize, hh⟩ := hh
  have hlt : list.length < list.item.length := by omega
  have hs := hsize _ (List.getElem_mem hlt)
  obtain ⟨q₀, hcpy₀, hpl₀, hps₀⟩ := strcpy_field hs.1 hp₀ hw₀
  obtain ⟨q₁, hcpy₁, hpl₁, hps₁⟩ := strcpy_field hs.2 hp₁ hw₁
  refine ⟨list.item.set list.length ⟨q₀, q₁⟩, ?_, ?_, ?_, fun k v hk => ?_⟩
  · simp only [storeS2, List.getElem?_eq_getElem hlt, Option.bind_some, hcpy₀, hcpy₁,
      Option.map_some]
  · rw [List.length_set, hlen]
  · intro i hi
    rcases List.mem_or_eq_of_mem_set hi with hi | rfl
    · exact hsize i hi
    · exact ⟨hpl₀, hpl₁⟩
  rcases getElem?_snoc hk with ⟨hv, hlt'⟩ | ⟨rfl, rfl⟩
  · obtain ⟨hv₀, hv₁, i, hi, hv⟩ := hh k v hv
    exact ⟨hv₀, hv₁, i, by rw [List.getElem?_set_ne (by omega), hi], hv⟩
  · exact ⟨hw₀, hw₁, _, by rw [← hl, List.getElem?_set_self hlt], hps₀, hps₁⟩

/-! Each decoder does with its arrays what its scan does with strings. -/

theorem decodes_S1 (cap : ℕ) : Decodes readS1 storeS1 scanS1 (HoldsS1 cap) cap where
  undefined {t} h₀ h := by
    unfold scanS1 at h
    dsimp only at h
    split_ifs at h with hl hr
    have hfull := cString_lineBuf_full (fun hm => h₀ (mem_block_zero hm)) hl
    refine Or.inr ⟨_, t.drop LINE_SIZE, ?_, fun list => strcpy_none hfull _ _⟩
    rw [readS1, readS1Loop_eq _ _ _ (by simp [lineBuf]), if_pos hl]
  stop {t} h₀ h := by
    unfold scanS1 at h
    dsimp only at h
    split_ifs at h with hl hr
    · cases h
    · rw [readS1, readS1Loop_eq _ _ _ (by simp [lineBuf]), if_neg hl, if_neg hr]
  item {t w} h₀ h := by
    unfold scanS1 at h
    dsimp only at h
    split_ifs at h with hl hr
    · cases h
      have hp := cString_lineBuf (c := block ACP_DELIMITER_ROW 0 t) fun hm => h₀ (mem_block_zero hm)
      rw [if_pos (not_le.mp hl)] at hp
      refine ⟨_, _, ?_, acpBufnrow_drop le_rfl, fun list ws hh hlen hc =>
        storeS1_holds hp (not_le.mp hl) hh hlen hc⟩
      rw [readS1, readS1Loop_eq _ _ _ (by simp [lineBuf]), if_neg hl, if_pos hr]
    · cases h

/-- The conversions of `acp_dataToI1S1List` find the number and the word. -/
theorem scanStr_rowWord (t : List UInt8) :
    ((scanInt t).bind fun p0 => (scanStr LINE_SIZE p0.2).map fun p1 => (p0.1, p1)) =
      if rowWord t = [] then none
      else (scanInt t).map fun p0 => (p0.1, (rowWord t).take LINE_SIZE) := by
  cases hs : scanInt t with
  | none => simp [rowWord, hs]
  | some p0 =>
    have hword : rowWord t = (p0.2.dropWhile isspace).takeWhile fun b => !isspace b := by
      rw [rowWord, hs]
    rw [Option.bind_some, scanStr, ← hword]
    by_cases hw : rowWord t = []
    · simp [hw]
    · rw [if_neg hw, if_neg fun ht => hw ((List.take_eq_nil_iff.mp ht).resolve_left (by decide))]
      rfl

theorem scanInt_isSome {t : List UInt8} (h : rowWord t ≠ []) : ∃ p0, scanInt t = some p0 := by
  unfold rowWord at h
  cases hs : scanInt t with
  | none =>
    rw [hs] at h
    exact absurd rfl h
  | some p0 => exact ⟨p0, rfl⟩

theorem not_mem_rowWord {t : List UInt8} (h₀ : 0 ∉ t) : 0 ∉ rowWord t := by
  unfold rowWord
  cases hs : scanInt t with
  | none => exact List.not_mem_nil
  | some p0 =>
    intro hm
    have hr := (List.dropWhile_sublist _).mem ((List.takeWhile_sublist _).mem hm)
    obtain ⟨⟨v, r⟩, hl, rfl⟩ := Option.map_eq_some_iff.mp hs
    obtain ⟨g, ds, ⟨b, -, -, -, -, -, rfl⟩, -⟩ := scanLong_iff.mp hl
    exact h₀ (by simp [show 0 ∈ r from hr])

theorem decodes_I1S1 (cap : ℕ) : Decodes readI1S1 storeI1S1 scanI1S1 (HoldsI1S1 cap) cap where
  undefined {t} h₀ h := by
    unfold scanI1S1 at h
    split_ifs at h with hl hw
    · have hne : rowWord t ≠ [] := by
        intro hw
        rw [hw] at hl
        exact absurd hl (by decide)
      obtain ⟨p0, hs⟩ := scanInt_isSome hne
      left
      rw [readI1S1, scanStr_rowWord, if_neg hne, hs, Option.map_some]
      dsimp only
      rw [if_neg]
      rw [List.length_take, Nat.min_eq_left hl, lineBuf, List.length_replicate]
      exact lt_irrefl _
  stop {t} h₀ h := by
    unfold scanI1S1 at h
    split_ifs at h with hl hw
    · rw [readI1S1, scanStr_rowWord, if_pos hw]
    · obtain ⟨p0, hs⟩ := scanInt_isSome hw
      rw [hs] at h
      cases h
  item {t w} h₀ h := by
    unfold scanI1S1 at h
    split_ifs at h with hl hw
    · cases h
    · obtain ⟨p0, hs⟩ := scanInt_isSome hw
      rw [hs] at h
      cases h
      have hshort := not_le.mp hl
      have hp := cString_append (not_mem_rowWord h₀)
        (List.replicate (LINE_SIZE - (rowWord t).length - 1) 0)
      refine ⟨(p0.1, writeAt lineBuf 0 (rowWord t ++ [0])), t, ?_, rfl,
        fun list ws hh hlen hc => storeI1S1_holds ?_ hshort hh hlen hc⟩
      · rw [readI1S1, scanStr_rowWord, if_neg hw, hs, Option.map_some,
          List.take_of_length_le hshort.le]
        dsimp only
        rw [if_pos (by simpa [lineBuf] using hshort)]
      · simpa using cString_drop_writeAt (a := lineBuf) (not_mem_rowWord h₀) (Nat.zero_le _)

/-- A loop of `acp_dataToS2List` on a local array. -/
theorem readS2Loop_lineBuf {t : List UInt8} (h₀ : 0 ∉ t) :
    let r := block ACP_DELIMITER_ROW 0 t
    let c := block ACP_DELIMITER_COLUMN 0 r
    cString (readS2Loop LINE_SIZE 0 lineBuf t).1 =
      if c.length < LINE_SIZE then some c else none := by
  dsimp only
  have h₁ : 0 ∉ block ACP_DELIMITER_COLUMN 0 (block ACP_DELIMITER_ROW 0 t) :=
    fun hm => h₀ (mem_block_zero (mem_block_zero hm))
  rw [readS2Loop_eq _ _ _ (by simp [lineBuf])]
  by_cases hl : LINE_SIZE ≤ (block ACP_DELIMITER_COLUMN 0 (block ACP_DELIMITER_ROW 0 t)).length
  · rw [if_pos hl, if_neg (not_lt.mpr hl)]
    exact cString_lineBuf_full h₁ hl
  · rw [if_neg hl, ← cString_lineBuf h₁]
    split_ifs <;> rfl

theorem block_zero_drop {d : UInt8} {k : ℕ} {t : List UInt8} (h : k ≤ (block d 0 t).length) :
    block d 0 (t.drop k) = (block d 0 t).drop k := by
  induction k generalizing t with
  | zero => rw [List.drop_zero, List.drop_zero]
  | succ k ih =>
    cases t with
    | nil => rfl
    | cons b t =>
      by_cases hb : b = d
      · rw [hb, block_zero_delimiter] at h
        cases h
      · rw [block_zero_cons hb] at h ⊢
        exact ih (Nat.le_of_succ_le_succ h)

/-- What is left of the text and of its row behind the first column. -/
theorem readS2Loop_column {t : List UInt8}
    (hl : (block ACP_DELIMITER_COLUMN 0 (block ACP_DELIMITER_ROW 0 t)).length < LINE_SIZE)
    (hc : ACP_DELIMITER_COLUMN ∈ block ACP_DELIMITER_ROW 0 t) :
    (readS2Loop LINE_SIZE 0 lineBuf t).2.2 = false ∧
      acpBufnrow (readS2Loop LINE_SIZE 0 lineBuf t).2.1 = acpBufnrow t ∧
      block ACP_DELIMITER_COLUMN 0
          (block ACP_DELIMITER_ROW 0 (readS2Loop LINE_SIZE 0 lineBuf t).2.1) =
        block ACP_DELIMITER_COLUMN 1 (block ACP_DELIMITER_ROW 0 t) := by
  have hloop := readS2Loop_eq LINE_SIZE 0 (p := lineBuf) t (by simp [lineBuf])
  dsimp only at hloop
  rw [if_neg (not_le.mpr hl), if_pos hc] at hloop
  rw [hloop]
  obtain ⟨c, r, hcr, hr⟩ := (block_cases ACP_DELIMITER_COLUMN _).resolve_left (not_not_intro hc)
  have hle : c.length + 1 ≤ (block ACP_DELIMITER_ROW 0 t).length := by
    rw [hr]
    simp
  rw [hr, block_zero_append hcr, block_succ_append hcr]
  refine ⟨rfl, acpBufnrow_drop hle, ?_⟩
  rw [block_zero_drop hle, hr]
  simp

/-- The last loop stays in its row. -/
theorem acpBufnrow_readS2Loop (t : List UInt8) :
    acpBufnrow (readS2Loop LINE_SIZE 0 lineBuf t).2.1 = acpBufnrow t := by
  have hloop := readS2Loop_eq LINE_SIZE 0 (p := lineBuf) t (by simp [lineBuf])
  dsimp only at hloop
  have hle : (block ACP_DELIMITER_COLUMN 0 (block ACP_DELIMITER_ROW 0 t)).length ≤
      (block ACP_DELIMITER_ROW 0 t).length := (List.takeWhile_sublist _).length_le
  rw [hloop]
  split_ifs with hl hc
  · exact acpBufnrow_drop (hl.trans hle)
  · obtain ⟨c, r, hcr, hr⟩ := (block_cases ACP_DELIMITER_COLUMN _).resolve_left (not_not_intro hc)
    refine acpBufnrow_drop ?_
    rw [hr, block_zero_append hcr]
    simp
  · exact acpBufnrow_drop hle

theorem mem_readS2Loop {b : UInt8} {t : List UInt8}
    (h : b ∈ (readS2Loop LINE_SIZE 0 lineBuf t).2.1) : b ∈ t := by
  have hloop := readS2Loop_eq LINE_SIZE 0 (p := lineBuf) t (by simp [lineBuf])
  dsimp only at hloop
  rw [hloop] at h
  split_ifs at h <;> exact List.mem_of_mem_drop h

theorem storeS2_none {l : List UInt8 × List UInt8} (h : cString l.1 = none ∨ cString l.2 = none)
    (list : S2List) : storeS2 l list = none := by
  unfold storeS2
  cases list.item[list.length]? with
  | none => rfl
  | some i =>
    rw [Option.bind_some]
    rcases h with h | h
    · rw [strcpy_none h, Option.bind_none]
    · cases strcpy i.p0 0 l.1 with
      | none => rfl
      | some p0 => rw [Option.bind_some, strcpy_none h, Option.map_none]

theorem readS2_go {t : List UInt8} (h : (readS2Loop LINE_SIZE 0 lineBuf t).2.2 = false) :
    readS2 t = some (some (((readS2Loop LINE_SIZE 0 lineBuf t).1,
        (readS2Loop LINE_SIZE 0 lineBuf (readS2Loop LINE_SIZE 0 lineBuf t).2.1).1),
      (readS2Loop LINE_SIZE 0 lineBuf (readS2Loop LINE_SIZE 0 lineBuf t).2.1).2.1)) := by
  rw [readS2]
  dsimp only
  rw [h]
  rfl

theorem decodes_S2 (cap : ℕ) : Decodes readS2 storeS2 scanS2 (HoldsS2 cap) cap where
  undefined {t} h₀ h := by
    unfold scanS2 at h
    dsimp only at h
    have hp₀ := readS2Loop_lineBuf h₀
    dsimp only at hp₀
    right
    split_ifs at h with hl₀ hc hl₁
    -- `p0` is full, and the loop does not say that the row has ended
    · rw [if_neg (not_lt.mpr hl₀)] at hp₀
      have hgo : (readS2Loop LINE_SIZE 0 lineBuf t).2.2 = false := by
        have hloop := readS2Loop_eq LINE_SIZE 0 (p := lineBuf) t (by simp [lineBuf])
        dsimp only at hloop
        rw [hloop, if_pos hl₀]
      exact ⟨_, _, readS2_go hgo, storeS2_none (Or.inl hp₀)⟩
    -- `p0` is a string, and `p1` is full
    · obtain ⟨hgo, -, hnext⟩ := readS2Loop_column (not_le.mp hl₀) hc
      have hp₁ := readS2Loop_lineBuf fun hm => h₀ (mem_readS2Loop hm)
      dsimp only at hp₁
      rw [hnext, if_neg (not_lt.mpr hl₁)] at hp₁
      exact ⟨_, _, readS2_go hgo, storeS2_none (Or.inr hp₁)⟩
  stop {t} h₀ h := by
    unfold scanS2 at h
    dsimp only at h
    split_ifs at h with hl₀ hc hl₁
    · cases h
    · have hloop := readS2Loop_eq LINE_SIZE 0 (p := lineBuf) t (by simp [lineBuf])
      dsimp only at hloop
      rw [if_neg hl₀, if_neg hc] at hloop
      rw [readS2, hloop]
      rfl
  item {t w} h₀ h := by
    unfold scanS2 at h
    dsimp only at h
    split_ifs at h with hl₀ hc hl₁
    swap
    · cases h
    cases h
    have hp₀ := readS2Loop_lineBuf h₀
    dsimp only at hp₀
    rw [if_pos (not_le.mp hl₀)] at hp₀
    obtain ⟨hgo, hrow, hnext⟩ := readS2Loop_column (not_le.mp hl₀) hc
    have hp₁ := readS2Loop_lineBuf fun hm => h₀ (mem_readS2Loop hm)
    dsimp only at hp₁
    rw [hnext, if_pos (not_le.mp hl₁)] at hp₁
    exact ⟨_, _, readS2_go hgo, (acpBufnrow_readS2Loop _).trans hrow, fun list ws hh hlen hcap =>
      storeS2_holds hp₀ hp₁ (not_le.mp hl₀) (not_le.mp hl₁) hh hlen hcap⟩

end Regonf
