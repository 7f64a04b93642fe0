import Mathlib.Data.List.TakeWhile
import Mathlib.Tactic.Set
import Regonf.AcpFTS
import Regonf.Lib.Blocks

/-! The number conversions of `sscanf` as a grammar: blanks, a sign or none, digits. -/
namespace Regonf

open Blocks

/-- `sscanf` finds the sign `g` and the digits `ds` behind the blanks at the front of `s`, and `t`
is the rest. -/
def BeginsInt (g ds t s : List UInt8) : Prop :=
  ∃ b, (∀ x ∈ b, isspace x = true) ∧ (g = [] ∨ g = [43] ∨ g = [45]) ∧ ds ≠ [] ∧
    (∀ x ∈ ds, isdigit x = true) ∧ (∀ x ∈ t.head?, isdigit x = false) ∧ s = b ++ (g ++ (ds ++ t))

/-- The value of the digits with their sign. -/
def signed (g ds : List UInt8) : ℤ := if g = [45] then -digitsVal ds else digitsVal ds

theorem isspace_of_isdigit {x : UInt8} (h : isdigit x = true) : isspace x = false := by
  simp only [isdigit, isspace, Bool.and_eq_true, decide_eq_true_eq, Bool.or_eq_false_iff,
    Bool.and_eq_false_iff, decide_eq_false_iff_not, beq_eq_false_iff_ne, UInt8.le_iff_toNat_le,
    ne_eq, ← UInt8.toNat_inj] at h ⊢
  change 48 ≤ x.toNat ∧ x.toNat ≤ 57 at h
  change ¬x.toNat = 32 ∧ (¬9 ≤ x.toNat ∨ ¬x.toNat ≤ 13)
  omega

/-- The sign that the conversions look for in front of the digits. -/
theorem sign_spec {g r : List UInt8} (hg : g = [] ∨ g = [43] ∨ g = [45])
    (hr : ∀ x ∈ r.head?, x ≠ 43 ∧ x ≠ 45) :
    ((g ++ r).head? == some 45) = decide (g = [45]) ∧
      (if ((g ++ r).head? == some 45) || ((g ++ r).head? == some 43) then (g ++ r).tail
        else g ++ r) = r := by
  rcases hg with rfl | rfl | rfl
  -- without a sign, what comes first must not look like one
  · cases r with
    | nil => simp
    | cons x r =>
      obtain ⟨h₁, h₂⟩ := hr x rfl
      simp [h₁, h₂]
  · simp
  · simp

theorem BeginsInt.sign {g ds t s : List UInt8} (h : BeginsInt g ds t s) :
    s.dropWhile isspace = g ++ (ds ++ t) ∧ ∀ x ∈ (ds ++ t).head?, x ≠ 43 ∧ x ≠ 45 := by
  obtain ⟨b, hb, hg, hne, hds, -, rfl⟩ := h
  obtain ⟨d, ds, rfl⟩ := List.exists_cons_of_ne_nil hne
  have hd := hds d List.mem_cons_self
  constructor
  · refine dropWhile_span hb fun x hx => ?_
    rcases hg with rfl | rfl | rfl
    · cases hx
      exact isspace_of_isdigit hd
    · cases hx
      rfl
    · cases hx
      rfl
  · intro x hx
    cases hx
    constructor <;> rintro rfl <;> exact absurd hd (by decide)

/-- The sign at the front of a text. -/
theorem exists_sign (r : List UInt8) :
    ∃ g, (g = [] ∨ g = [43] ∨ g = [45]) ∧ (r.head? == some 45) = decide (g = [45]) ∧
      r = g ++ (if (r.head? == some 45) || (r.head? == some 43) then r.tail else r) := by
  cases r with
  | nil => exact ⟨[], by simp⟩
  | cons x r =>
    by_cases h₁ : x = 45
    · exact ⟨[45], by simp [h₁]⟩
    · by_cases h₂ : x = 43
      · exact ⟨[43], by simp [h₂]⟩
      · exact ⟨[], by simp [h₁, h₂]⟩

theorem head_dropWhile (p : UInt8 → Bool) (l : List UInt8) :
    ∀ x ∈ (l.dropWhile p).head?, p x = false := by
  intro x hx
  have h := List.head?_dropWhile_not p l
  rw [hx] at h
  simpa using h

/-- The sign and the digits of `%d`, `%ld` and `%u`. -/
def scanDigits (s : List UInt8) : Option (Bool × List UInt8 × List UInt8) :=
  let s := s.dropWhile isspace
  let neg := s.head? == some 45
  let s := if neg || s.head? == some 43 then s.tail else s
  if s.takeWhile isdigit = [] then none
  else some (neg, s.takeWhile isdigit, s.dropWhile isdigit)

/-- `%u` of `sscanf`: `strtoul` negates modulo 2^64 and ends at the largest `unsigned long`; the
low 32 bits are stored. -/
def scanUInt (s : List UInt8) : Option (UInt32 × List UInt8) :=
  (scanDigits s).map fun r =>
    let v := digitsVal r.2.1
    (UInt32.ofNat (if 2 ^ 64 ≤ v then 2 ^ 64 - 1 else if r.1 then 2 ^ 64 - v else v), r.2.2)

theorem scanDigits_iff {s ds t : List UInt8} {neg : Bool} :
    scanDigits s = some (neg, ds, t) ↔ ∃ g, BeginsInt g ds t s ∧ neg = decide (g = [45]) := by
  constructor
  · intro h
    obtain ⟨g, hg, hneg, hr⟩ := exists_sign (s.dropWhile isspace)
    unfold scanDigits at h
    dsimp only at h
    set r := if ((s.dropWhile isspace).head? == some 45) || ((s.dropWhile isspace).head? == some 43)
      then (s.dropWhile isspace).tail else s.dropWhile isspace with hrd
    -- the conversion fails without a digit
    by_cases hne : r.takeWhile isdigit = []
    · rw [if_pos hne] at h
      cases h
    rw [if_neg hne, hneg] at h
    cases h
    refine ⟨g, ⟨s.takeWhile isspace, fun x hx => List.mem_takeWhile_imp hx, hg, hne,
      fun x hx => List.mem_takeWhile_imp hx, head_dropWhile isdigit r, ?_⟩, rfl⟩
    rw [List.takeWhile_append_dropWhile, ← hr, List.takeWhile_append_dropWhile]
  · rintro ⟨g, h, rfl⟩
    obtain ⟨hs, hr⟩ := h.sign
    obtain ⟨b, -, hg, hne, hds, ht, -⟩ := h
    obtain ⟨hneg, htail⟩ := sign_spec hg hr
    unfold scanDigits
    rw [hs]
    dsimp only
    rw [htail, hneg, takeWhile_span hds ht, dropWhile_span hds ht, if_neg hne]

theorem scanLong_eq (s : List UInt8) :
    scanLong s = (scanDigits s).map fun r =>
      (max (-2 ^ 63) (min (if r.1 then -(digitsVal r.2.1 : ℤ) else digitsVal r.2.1) (2 ^ 63 - 1)),
        r.2.2) := by
  unfold scanLong scanDigits
  dsimp only
  rw [apply_ite (Option.map _)]
  rfl

theorem scanLong_iff {s t : List UInt8} {v : ℤ} :
    scanLong s = some (v, t) ↔
      ∃ g ds, BeginsInt g ds t s ∧ v = max (-2 ^ 63) (min (signed g ds) (2 ^ 63 - 1)) := by
  rw [scanLong_eq, Option.map_eq_some_iff]
  constructor
  · rintro ⟨⟨neg, ds, t⟩, h, he⟩
    obtain ⟨g, hg, rfl⟩ := scanDigits_iff.mp h
    cases he
    exact ⟨g, ds, hg, by simp [signed]⟩
  · rintro ⟨g, ds, hg, rfl⟩
    exact ⟨(decide (g = [45]), ds, t), scanDigits_iff.mpr ⟨g, hg, rfl⟩, by simp [signed]⟩

/-- What follows a column: nothing, or a tab or the end of the row. -/
def ColumnEnd (e : List UInt8) : Prop :=
  ∀ b ∈ e.head?, b = ACP_DELIMITER_COLUMN ∨ b = ACP_DELIMITER_ROW

theorem columnEnd_nil : ColumnEnd [] := fun _ h => nomatch h

theorem columnEnd_column (t : List UInt8) : ColumnEnd (ACP_DELIMITER_COLUMN :: t) :=
  fun _ h => Or.inl (Option.some.inj h).symm

theorem columnEnd_row (t : List UInt8) : ColumnEnd (ACP_DELIMITER_ROW :: t) :=
  fun _ h => Or.inr (Option.some.inj h).symm

/-- Neither of the two belongs to a number. -/
theorem ColumnEnd.not_number {e : List UInt8} (h : ColumnEnd e) :
    ∀ b ∈ e.head?, isdigit b = false ∧ b ≠ 46 := by
  intro b hb
  rcases h b hb with rfl | rfl <;> decide

/-- What a conversion does at the blanks in front of its number, and at the tab or the end of the
row behind it. -/
structure Conversion {V : Type*} (conv : List UInt8 → Option (V × List UInt8)) : Prop where
  nil : conv [] = none
  space : ∀ {b}, isspace b = true → ∀ s, conv (b :: s) = conv s
  stop : ∀ {c v e}, conv c = some (v, []) → ColumnEnd e → conv (c ++ e) = some (v, e)

theorem conversion_digits :
    Conversion fun s => (scanDigits s).map fun r => ((r.1, r.2.1), r.2.2) where
  nil := rfl
  space hb s := by simp only [scanDigits, List.dropWhile_cons_of_pos hb]
  stop {c v e} h he := by
    obtain ⟨neg, ds⟩ := v
    rw [Option.map_eq_some_iff] at h ⊢
    obtain ⟨⟨neg, ds, u⟩, h, hc⟩ := h
    cases hc
    obtain ⟨g, ⟨x, hx, hg, hne, hds, -, rfl⟩, rfl⟩ := scanDigits_iff.mp h
    exact ⟨(_, ds, e), scanDigits_iff.mpr ⟨g, ⟨x, hx, hg, hne, hds,
      fun b hb => (he.not_number b hb).1, by simp⟩, rfl⟩, rfl⟩

theorem Conversion.map {V W : Type*} {conv : List UInt8 → Option (V × List UInt8)}
    (h : Conversion conv) (f : V → W) : Conversion fun s => (conv s).map fun r => (f r.1, r.2) where
  nil := by rw [h.nil]; rfl
  space hb s := by rw [h.space hb]
  stop {c v e} hc he := by
    rw [Option.map_eq_some_iff] at hc
    obtain ⟨⟨w, u⟩, hw, hv⟩ := hc
    cases hv
    rw [h.stop hw he]
    rfl

theorem conversion_scanLong : Conversion scanLong := by
  have h := conversion_digits.map fun r : Bool × List UInt8 =>
    max (-2 ^ 63) (min (if r.1 then -(digitsVal r.2 : ℤ) else digitsVal r.2) (2 ^ 63 - 1))
  simpa only [Option.map_map, Function.comp_def, ← scanLong_eq] using h

theorem conversion_scanInt : Conversion scanInt := conversion_scanLong.map (Int.bmod · (2 ^ 32))

theorem conversion_scanUInt : Conversion scanUInt := by
  have h := conversion_digits.map fun r : Bool × List UInt8 =>
    UInt32.ofNat (if 2 ^ 64 ≤ digitsVal r.2 then 2 ^ 64 - 1
      else if r.1 then 2 ^ 64 - digitsVal r.2 else digitsVal r.2)
  simp only [Option.map_map, Function.comp_def] at h
  exact h

/-- The same for a decimal number: `fp` are the digits behind the point, if there is one. -/
def BeginsDecimal (g ip : List UInt8) (fp : Option (List UInt8)) (t s : List UInt8) : Prop :=
  ∃ b, (∀ x ∈ b, isspace x = true) ∧ (g = [] ∨ g = [43] ∨ g = [45]) ∧ ip ++ fp.getD [] ≠ [] ∧
    (∀ x ∈ ip ++ fp.getD [], isdigit x = true) ∧
    (∀ x ∈ t.head?, isdigit x = false ∧ (fp = none → x ≠ 46)) ∧
    s = b ++ (g ++ (ip ++ (fp.elim [] (46 :: ·) ++ t)))

/-- A decimal number begins with a digit or with the point. -/
theorem decimal_head {ip t : List UInt8} {fp : Option (List UInt8)} (hne : ip ++ fp.getD [] ≠ [])
    (hds : ∀ x ∈ ip ++ fp.getD [], isdigit x = true) :
    ∀ x ∈ (ip ++ (fp.elim [] (46 :: ·) ++ t)).head?, isspace x = false ∧ x ≠ 43 ∧ x ≠ 45 := by
  intro x hx
  cases ip with
  | nil =>
    cases fp with
    | none => exact absurd rfl hne
    | some fp =>
      cases hx
      decide
  | cons d ip =>
    cases hx
    have hd := hds x List.mem_cons_self
    refine ⟨isspace_of_isdigit hd, ?_, ?_⟩ <;> rintro rfl <;> exact absurd hd (by decide)

theorem BeginsDecimal.sign {g ip t s : List UInt8} {fp : Option (List UInt8)}
    (h : BeginsDecimal g ip fp t s) :
    s.dropWhile isspace = g ++ (ip ++ (fp.elim [] (46 :: ·) ++ t)) ∧
      ∀ x ∈ (ip ++ (fp.elim [] (46 :: ·) ++ t)).head?, x ≠ 43 ∧ x ≠ 45 := by
  obtain ⟨b, hb, hg, hne, hds, -, rfl⟩ := h
  have hhead := decimal_head (t := t) hne hds
  refine ⟨dropWhile_span hb fun x hx => ?_, fun x hx => (hhead x hx).2⟩
  rcases hg with rfl | rfl | rfl
  · exact (hhead x hx).1
  · cases hx
    rfl
  · cases hx
    rfl

/-- The point and the digits behind it, at the front of what follows the first digits. -/
theorem exists_fraction {q : List UInt8} (hq : ∀ x ∈ q.head?, isdigit x = false) :
    ∃ (fp : Option (List UInt8)) (t : List UInt8),
      (if q.head? == some 46 then q.tail.takeWhile isdigit else []) = fp.getD [] ∧
      (if q.head? == some 46 then q.tail.dropWhile isdigit else q) = t ∧
      (∀ x ∈ fp.getD [], isdigit x = true) ∧
      (∀ x ∈ t.head?, isdigit x = false ∧ (fp = none → x ≠ 46)) ∧
      q = fp.elim [] (46 :: ·) ++ t := by
  by_cases hp : q.head? = some 46
  · obtain ⟨q, rfl⟩ : ∃ q', q = 46 :: q' := by
      cases q with
      | nil => cases hp
      | cons x q => exact ⟨q, by rw [Option.some.inj hp]⟩
    refine ⟨some (q.takeWhile isdigit), q.dropWhile isdigit, by simp, by simp,
      fun x hx => List.mem_takeWhile_imp hx, fun x hx => ?_, by simp⟩
    exact ⟨head_dropWhile isdigit q x hx, by simp⟩
  · refine ⟨none, q, by simp [hp], by simp [hp], List.forall_mem_nil _, fun x hx => ⟨hq x hx, ?_⟩,
      rfl⟩
    rintro - rfl
    exact hp hx

theorem fraction_spec {fp : Option (List UInt8)} {t : List UInt8}
    (hfp : ∀ x ∈ fp.getD [], isdigit x = true)
    (ht : ∀ x ∈ t.head?, isdigit x = false ∧ (fp = none → x ≠ 46)) :
    (∀ x ∈ (fp.elim [] (46 :: ·) ++ t).head?, isdigit x = false) ∧
      (if (fp.elim [] (46 :: ·) ++ t).head? == some 46 then
        (fp.elim [] (46 :: ·) ++ t).tail.takeWhile isdigit else []) = fp.getD [] ∧
      (if (fp.elim [] (46 :: ·) ++ t).head? == some 46 then
        (fp.elim [] (46 :: ·) ++ t).tail.dropWhile isdigit
        else fp.elim [] (46 :: ·) ++ t) = t := by
  have hstop : ∀ x ∈ t.head?, isdigit x = false := fun x hx => (ht x hx).1
  cases fp with
  | none =>
    have hp : t.head? ≠ some 46 := fun h => (ht 46 h).2 rfl rfl
    exact ⟨hstop, by simp [hp], by simp [hp]⟩
  | some fp =>
    rw [Option.getD_some] at hfp
    refine ⟨fun x hx => ?_, ?_, ?_⟩
    -- the point ends the digits in front of it
    · cases hx
      rfl
    · simp [takeWhile_span hfp hstop]
    · simp [dropWhile_span hfp hstop]

theorem scanDecimal_iff {s t : List UInt8} {v : ℚ} :
    scanDecimal s = some (v, t) ↔ ∃ g ip fp, BeginsDecimal g ip fp t s ∧
      v = if g = [45] then -mkRat (digitsVal (ip ++ fp.getD [])) (10 ^ (fp.getD []).length)
        else mkRat (digitsVal (ip ++ fp.getD [])) (10 ^ (fp.getD []).length) := by
  constructor
  · intro h
    obtain ⟨g, hg, hneg, hr⟩ := exists_sign (s.dropWhile isspace)
    unfold scanDecimal at h
    dsimp only at h
    set r := if ((s.dropWhile isspace).head? == some 45) || ((s.dropWhile isspace).head? == some 43)
      then (s.dropWhile isspace).tail else s.dropWhile isspace with hrd
    obtain ⟨fp, u, htake, hdrop, hfp, hu, hq⟩ := exists_fraction (head_dropWhile isdigit r)
    rw [htake, hdrop, hneg] at h
    -- the conversion fails without a digit
    by_cases hne : r.takeWhile isdigit ++ fp.getD [] = []
    · rw [if_pos hne] at h
      cases h
    rw [if_neg hne] at h
    cases h
    have hip : ∀ x ∈ r.takeWhile isdigit, isdigit x = true := fun x hx => List.mem_takeWhile_imp hx
    refine ⟨g, r.takeWhile isdigit, fp, ⟨s.takeWhile isspace, fun x hx => List.mem_takeWhile_imp hx,
      hg, hne, List.forall_mem_append.mpr ⟨hip, hfp⟩, hu, ?_⟩, by simp⟩
    rw [← hq, List.takeWhile_append_dropWhile, ← hr, List.takeWhile_append_dropWhile]
  · rintro ⟨g, ip, fp, h, rfl⟩
    obtain ⟨hs, hr⟩ := h.sign
    obtain ⟨b, -, hg, hne, hds, ht, -⟩ := h
    obtain ⟨hneg, htail⟩ := sign_spec hg hr
    obtain ⟨hip, hfp⟩ := List.forall_mem_append.mp hds
    obtain ⟨hpoint, htake, hdrop⟩ := fraction_spec hfp ht
    unfold scanDecimal
    rw [hs]
    dsimp only
    rw [htail, hneg, takeWhile_span hip hpoint, dropWhile_span hip hpoint, htake, hdrop, if_neg hne]
    simp

theorem conversion_scanDecimal : Conversion scanDecimal where
  nil := rfl
  space hb s := by simp only [scanDecimal, List.dropWhile_cons_of_pos hb]
  stop {c v e} h he := by
    obtain ⟨g, ip, fp, ⟨b, hb, hg, hne, hds, -, rfl⟩, rfl⟩ := scanDecimal_iff.mp h
    refine scanDecimal_iff.mpr ⟨g, ip, fp, ⟨b, hb, hg, hne, hds, fun x hx => ?_, by simp⟩, rfl⟩
    exact ⟨(he.not_number x hx).1, fun _ => (he.not_number x hx).2⟩

end Regonf
