import Regonf.Util

/-! `estostr` against the escaping that it should undo. A backslash is noted behind a backslash, so
that the second one does not stand for itself. -/
namespace Regonf.Util

open Tsv

def escapeByte (c : UInt8) : List UInt8 :=
  if c = NL then [BACKSLASH, 110]
  else if c = CR then [BACKSLASH, 114]
  else if c = TAB then [BACKSLASH, 116]
  else if c = BACKSLASH then [BACKSLASH, BACKSLASH]
  else [c]

def escape (s : List UInt8) : List UInt8 := s.flatMap escapeByte

/-- What is misread behind a backslash: a backslash, `n`, `r`, `t`, `0`, and what is escaped. -/
def misread : List UInt8 := [BACKSLASH, 110, 114, 116, 48, NL, CR, TAB]

/-- No backslash is directly followed by a byte that is misread. -/
def Clear (s : List UInt8) : Prop := s.IsChain fun a b => a = BACKSLASH → b ∉ misread

instance (s : List UInt8) : Decidable (Clear s) := inferInstanceAs (Decidable (List.IsChain _ s))

/-- A backslash that has been read and not yet written. -/
def pending (f : Bool) : List UInt8 := if f then [BACKSLASH] else []

/-- What the string is that is decoded from an escaped one. -/
def undone (f : Bool) (s : List UInt8) : List UInt8 :=
  (decode f (escape s ++ [0])).takeWhile (· ≠ 0)

theorem undone_nil (f : Bool) : undone f [] = pending f := by cases f <;> decide

theorem undone_backslash (f : Bool) (s : List UInt8) :
    undone f (BACKSLASH :: s) = undone true s := by
  have hescape : escape (BACKSLASH :: s) = BACKSLASH :: BACKSLASH :: escape s := rfl
  rw [undone, hescape, List.cons_append, List.cons_append, decode_backslash, decode_backslash]
  rfl

/-- A byte that is not escaped. -/
theorem decode_escape_cons {c : UInt8} (hc : c ∉ [NL, CR, TAB, BACKSLASH]) (f : Bool)
    (s : List UInt8) : decode f (escape (c :: s) ++ [0]) =
      (if f then expand c else [c]) ++ decode false (escape s ++ [0]) := by
  simp only [List.mem_cons, List.not_mem_nil, or_false, not_or] at hc
  obtain ⟨hnl, hcr, htab, hback⟩ := hc
  have hbyte : escapeByte c = [c] := by
    rw [escapeByte, if_neg hnl, if_neg hcr, if_neg htab, if_neg hback]
  have hescape : escape (c :: s) = c :: escape s := by
    rw [escape, List.flatMap_cons, hbyte]
    rfl
  rw [hescape, List.cons_append, decode_cons hback]

theorem undone_false_cons {c : UInt8} (hc : c ≠ BACKSLASH) (h0 : c ≠ 0) (s : List UInt8) :
    undone false (c :: s) = c :: undone false s := by
  by_cases hesc : c ∈ [NL, CR, TAB, BACKSLASH]
  · simp only [List.mem_cons, List.not_mem_nil, or_false] at hesc
    rcases hesc with rfl | rfl | rfl | rfl
    · rfl
    · rfl
    · rfl
    · exact absurd rfl hc
  · rw [undone, decode_escape_cons hesc, if_neg Bool.false_ne_true, List.singleton_append,
      List.takeWhile_cons_of_pos (by simpa using h0)]
    rfl

/-- Behind a backslash a byte that is misread takes it with it. -/
theorem length_undone_misread {c : UInt8} (hc : c ∈ misread) (s : List UInt8) :
    (undone true (c :: s)).length ≤ max (undone true s).length ((undone false s).length + 1) := by
  simp only [misread, List.mem_cons, List.not_mem_nil, or_false] at hc
  -- a backslash stays pending, `0` ends the string, and the others become one byte
  rcases hc with rfl | rfl | rfl | rfl | rfl | rfl | rfl | rfl
  · rw [undone_backslash]
    exact le_max_left _ _
  · exact le_max_right _ _
  · exact le_max_right _ _
  · exact le_max_right _ _
  · exact Nat.zero_le _
  · exact le_max_right _ _
  · exact le_max_right _ _
  · exact le_max_right _ _

theorem undone_true_cons {c : UInt8} (hc : c ∉ misread) (h0 : c ≠ 0) (s : List UInt8) :
    undone true (c :: s) = BACKSLASH :: c :: undone false s := by
  simp only [misread, List.mem_cons, List.not_mem_nil, or_false, not_or] at hc
  obtain ⟨hback, hn, hr, ht, hzero, hnl, hcr, htab⟩ := hc
  have hexpand : expand c = [BACKSLASH, c] := by
    rw [expand, if_neg hn, if_neg hr, if_neg ht, if_neg hzero, if_neg hback]
  rw [undone, decode_escape_cons (by simp [hback, hnl, hcr, htab]), if_pos rfl, hexpand,
    List.cons_append, List.takeWhile_cons_of_pos (by decide), List.singleton_append,
    List.takeWhile_cons_of_pos (by simpa using h0)]
  rfl

theorem clear_cons {c : UInt8} (hc : c ≠ BACKSLASH) (s : List UInt8) :
    Clear (c :: s) ↔ Clear s := by
  cases s with
  | nil => exact ⟨fun _ => List.IsChain.nil, fun _ => List.isChain_singleton c⟩
  | cons b s => exact List.isChain_cons_cons.trans (and_iff_right fun h => absurd h hc)

theorem clear_backslash_cons (c : UInt8) (s : List UInt8) :
    Clear (BACKSLASH :: c :: s) ↔ c ∉ misread ∧ Clear (c :: s) :=
  List.isChain_cons_cons.trans (and_congr_left' ⟨fun h => h rfl, fun h _ => h⟩)

/-- What is decoded is the string itself, or is shorter. -/
theorem undone_cases {s : List UInt8} (h0 : 0 ∉ s) (f : Bool) :
    Clear (pending f ++ s) ∧ undone f s = pending f ++ s ∨
      ¬Clear (pending f ++ s) ∧ (undone f s).length < (pending f ++ s).length := by
  induction s generalizing f with
  | nil =>
    refine .inl ⟨?_, by rw [undone_nil, List.append_nil]⟩
    cases f <;> decide
  | cons c s ih =>
    rw [List.mem_cons, not_or] at h0
    obtain ⟨hc0, hs0⟩ := h0
    -- neither case is longer
    have hlength (f : Bool) : (undone f s).length ≤ (pending f ++ s).length := by
      rcases ih hs0 f with ⟨-, heq⟩ | ⟨-, hlt⟩
      · rw [heq]
      · exact hlt.le
    cases f with
    | false =>
      have hpending : pending false ++ c :: s = c :: s := rfl
      rw [hpending]
      by_cases hback : c = BACKSLASH
      · -- it is pending from here on
        rw [hback, undone_backslash]
        exact ih hs0 true
      · rw [undone_false_cons hback (Ne.symm hc0), clear_cons hback]
        rcases ih hs0 false with ⟨hclear, heq⟩ | ⟨hclear, hlt⟩
        · exact .inl ⟨hclear, congrArg (c :: ·) heq⟩
        · exact .inr ⟨hclear, Nat.succ_lt_succ hlt⟩
    | true =>
      have hpending : pending true ++ c :: s = BACKSLASH :: c :: s := rfl
      rw [hpending, clear_backslash_cons]
      -- a byte that is misread makes the string shorter
      by_cases hmis : c ∈ misread
      · refine .inr ⟨fun h => h.1 hmis, ?_⟩
        have htrue : (undone true s).length ≤ s.length + 1 := hlength true
        have hfalse : (undone false s).length ≤ s.length := hlength false
        have hle := length_undone_misread hmis s
        rw [List.length_cons, List.length_cons]
        omega
      · have hback : c ≠ BACKSLASH := by
          rintro rfl
          exact hmis (by decide)
        rw [undone_true_cons hmis (Ne.symm hc0), clear_cons hback, and_iff_right hmis]
        rcases ih hs0 false with ⟨hclear, heq⟩ | ⟨hclear, hlt⟩
        · exact .inl ⟨hclear, congrArg (BACKSLASH :: c :: ·) heq⟩
        · exact .inr ⟨hclear, Nat.succ_lt_succ (Nat.succ_lt_succ hlt)⟩

theorem estostr_escape {s : List UInt8} (h : (escape s).length < INT_MAX) :
    estostr (escape s) = some (undone false s) := estostr_eq h

/-- `estostr` undoes the escaping, exactly if no backslash is directly followed by a byte that is
misread; and all its writes are in its buffer, as far as `int` goes. -/
theorem estostr_escape_iff {s : List UInt8} (h0 : 0 ∉ s) :
    (estostr (escape s) = some s ↔ (escape s).length < INT_MAX ∧ Clear s) ∧
      ((∃ t, estostr s = some t) ↔ s.length < INT_MAX) := by
  constructor
  · by_cases hlen : (escape s).length < INT_MAX
    · rw [estostr_escape hlen, and_iff_right hlen, Option.some.injEq]
      rcases undone_cases h0 false with ⟨hclear, heq⟩ | ⟨hclear, hlt⟩
      · exact iff_of_true heq hclear
      · refine iff_of_false (fun heq => ?_) hclear
        rw [heq] at hlt
        exact absurd hlt (lt_irrefl _)
    · rw [estostr_none (not_lt.mp hlen)]
      exact iff_of_false (by simp) fun h => hlen h.1
  · by_cases hlen : s.length < INT_MAX
    · exact iff_of_true ⟨_, estostr_eq hlen⟩ hlen
    · rw [estostr_none (not_lt.mp hlen)]
      exact iff_of_false (by simp) hlen

/-- A backslash and an `n` come back as a new line. -/
theorem not_estostr_escape : escape [BACKSLASH, 110] = [BACKSLASH, BACKSLASH, 110] ∧
    estostr (escape [BACKSLASH, 110]) = some [NL] := by decide

/-- The theorem before the last for a tab, a backslash and an `a`. -/
theorem estostr_escape_iff_tab :
    (estostr (escape [TAB, BACKSLASH, 97]) = some [TAB, BACKSLASH, 97] ↔
      (escape [TAB, BACKSLASH, 97]).length < INT_MAX ∧ Clear [TAB, BACKSLASH, 97]) ∧
      ((∃ t, estostr [TAB, BACKSLASH, 97] = some t) ↔ [TAB, BACKSLASH, 97].length < INT_MAX) :=
  estostr_escape_iff (by decide)

end Regonf.Util
