import Regonf.S1BList

/-! The runs of `s1blist_push` that keep the string list. -/
namespace Regonf.S1B

open Blocks Controller

section
variable {α : Type*} (junk : ℕ → α) (a : List α)

@[simp] theorem length_realloc (n : ℕ) : (realloc junk a n).length = n := by simp [realloc]

/-- The cells that were there stay. -/
theorem take_realloc {n k : ℕ} (hk : k ≤ a.length) (hn : k ≤ n) :
    (realloc junk a n).take k = a.take k := by
  refine List.ext_getElem (by simp [hk, hn]) fun i hi hi' => ?_
  have hlt : i < a.length := by
    rw [List.length_take] at hi'
    omega
  simp [realloc, List.getElem?_eq_getElem hlt]

end

/-- The recorded lengths are those of the arrays, and the arrays hold the strings. -/
structure Holds (list : S1BList) (strs : List (List UInt8)) : Prop where
  text_eq : list.buf.take list.buf_length = text strs
  offsets_eq : list.s1_offset.take list.length = offsets 0 strs
  buf_length : list.buf_length ≤ list.buf.length
  buf_max_length : list.buf_max_length = list.buf.length
  length : list.length ≤ list.s1_offset.length
  max_length : list.max_length = list.s1_offset.length
  buf_size : list.buf.length < SIZE
  offset_size : list.s1_offset.length * OFFSETI_SZ < SIZE
  owned : list.freed = false
  nul : ∀ s ∈ strs, 0 ∉ s

theorem holds_initializer : Holds S1BLIST_INITIALIZER [] where
  text_eq := rfl
  offsets_eq := rfl
  buf_length := le_refl _
  buf_max_length := rfl
  length := le_refl _
  max_length := rfl
  buf_size := by decide
  offset_size := by decide
  owned := rfl
  nul := by simp

namespace Holds

variable {list : S1BList} {strs : List (List UInt8)} (h : Holds list strs)
include h

theorem length_text : (text strs).length = list.buf_length := by
  rw [← h.text_eq, List.length_take, Nat.min_eq_left h.buf_length]

theorem length_strs : strs.length = list.length := by
  rw [← length_offsets 0, ← h.offsets_eq, List.length_take, Nat.min_eq_left h.length]

theorem appended : Appended list strs := by
  refine ⟨h.buf_max_length ▸ h.buf_length, h.buf_max_length.le, h.length_strs.symm, h.length,
    fun k s hk => ?_⟩
  obtain ⟨o, t, ho, hle, hdrop⟩ := offsets_spec hk []
  simp only [List.length_nil, List.nil_append] at ho hle hdrop
  have hlt : k < list.length := h.length_strs ▸ (List.getElem?_eq_some_iff.mp hk).1
  rw [← h.offsets_eq, List.getElem?_take_of_lt hlt] at ho
  rw [blistItem, ho, Option.bind_some]
  -- the string ends in the part of the buffer that is in use
  have hbuf : list.buf = text strs ++ list.buf.drop list.buf_length := by
    rw [← h.text_eq, List.take_append_drop]
  rw [hbuf, List.drop_append_of_le_length hle, hdrop, List.append_assoc]
  exact cString_append (h.nul s (List.mem_of_getElem? hk)) _

/-- A longer buffer holds what was there. -/
theorem of_realloc_buf (junk : ℕ → UInt8) {n : ℕ} (hn : list.buf_length ≤ n) (hsize : n < SIZE) :
    Holds { list with buf := realloc junk list.buf n, buf_max_length := n } strs where
  text_eq := by
    dsimp only
    rw [take_realloc junk list.buf h.buf_length hn, h.text_eq]
  offsets_eq := h.offsets_eq
  buf_length := by simpa using hn
  buf_max_length := by simp
  length := h.length
  max_length := h.max_length
  buf_size := by simpa using hsize
  offset_size := h.offset_size
  owned := h.owned
  nul := h.nul

theorem of_realloc_offset (junk : ℕ → ℕ) {n : ℕ} (hn : list.length ≤ n)
    (hsize : n * OFFSETI_SZ < SIZE) :
    Holds { list with s1_offset := realloc junk list.s1_offset n, max_length := n } strs where
  text_eq := h.text_eq
  offsets_eq := by
    dsimp only
    rw [take_realloc junk list.s1_offset h.length hn, h.offsets_eq]
  buf_length := h.buf_length
  buf_max_length := h.buf_max_length
  length := by simpa using hn
  max_length := by simp
  buf_size := h.buf_size
  offset_size := by simpa using hsize
  owned := h.owned
  nul := h.nul

/-- After `growBuf` the string fits. -/
theorem growBuf (junk : ℕ → UInt8) {p : Push} (hp : GrowsFull list p) :
    ∃ list', S1B.growBuf junk true p list = .ok list' ∧ Holds list' strs ∧
      list'.buf_length = list.buf_length ∧ list'.length = list.length ∧
      list'.max_length = list.max_length ∧
      list'.buf_length + p.str.length < list'.buf.length := by
  obtain ⟨⟨hreq, -, -⟩, hfull⟩ := hp
  have hbuf := h.buf_length
  have hmax := h.buf_max_length
  have hsize := h.buf_size
  have hreq' : bufReqSz list p = list.buf_length + p.str.length + 1 := Nat.mod_eq_of_lt hreq
  unfold S1B.growBuf
  split_ifs with hlt hmem hmin
  -- the call gets its memory
  · cases hmem
  · -- the step of the caller: its size has not wrapped, since it is above the old one
    have hstep : bufMinAllocSz list p =
        list.buf_max_length + p.min_buf_alloc_length.toNat := by
      have := p.min_buf_alloc_length.toNat_lt
      unfold bufMinAllocSz SIZE at *
      omega
    refine ⟨_, rfl, h.of_realloc_buf junk ?_ (Nat.mod_lt _ (by decide)), rfl, rfl, rfl, ?_⟩
    · exact (show list.buf_length ≤ bufMinAllocSz list p by omega)
    · simp only [length_realloc]
      omega
  · -- the buffer is full, so that the recorded length is the one that is allocated
    have hrec : (list.buf_max_length + p.str.length + 1) % SIZE = bufReqSz list p := by
      rw [← hfull ⟨hlt, hmin⟩, bufReqSz]
    rw [hrec]
    refine ⟨_, rfl, h.of_realloc_buf junk (by omega) (by omega), rfl, rfl, rfl, ?_⟩
    simp only [length_realloc]
    omega
  · exact ⟨list, rfl, h, rfl, rfl, rfl, by omega⟩

/-- The offsets get room for `n`; the division of their size by that of one is exact. -/
theorem of_grow_offset (junk : ℕ → ℕ) {n : ℕ} (hn : list.length < n)
    (hsize : n * OFFSETI_SZ < SIZE) :
    Holds { list with
        s1_offset := realloc junk list.s1_offset (n * OFFSETI_SZ / OFFSETI_SZ)
        max_length := n % SIZE } strs ∧
      list.length < (realloc junk list.s1_offset (n * OFFSETI_SZ / OFFSETI_SZ)).length := by
  have hlt : n < SIZE := lt_of_le_of_lt (Nat.le_mul_of_pos_right n (by decide)) hsize
  rw [Nat.mul_div_cancel n (show 0 < OFFSETI_SZ by decide), Nat.mod_eq_of_lt hlt, length_realloc]
  exact ⟨h.of_realloc_offset junk hn.le hsize, hn⟩

/-- After `growOffset` the offset fits. -/
theorem growOffset (junk : ℕ → ℕ) {p : Push} (hreq : (list.max_length + 1) * OFFSETI_SZ < SIZE)
    (hmin : list.max_length ≤ list.length → offsetReqSz list < offsetMinAllocSz list p →
      (list.max_length + p.min_item_alloc_length.toNat) * OFFSETI_SZ < SIZE) :
    ∃ list', S1B.growOffset junk true p list = .ok list' ∧ Holds list' strs ∧
      list'.buf = list.buf ∧ list'.buf_length = list.buf_length ∧ list'.length = list.length ∧
      list'.length < list'.s1_offset.length := by
  have hlen := h.length
  have hmax := h.max_length
  have hreq' : offsetReqSz list = (list.max_length + 1) * OFFSETI_SZ := by
    rw [Nat.succ_mul] at hreq ⊢
    exact Nat.mod_eq_of_lt hreq
  unfold S1B.growOffset
  split_ifs with hle hmem hlt
  · cases hmem
  · -- the step of the caller, which is more than one offset
    have hmin := hmin hle hlt
    have hstep : offsetMinAllocSz list p =
        (list.max_length + p.min_item_alloc_length.toNat) * OFFSETI_SZ := by
      rw [Nat.add_mul] at hmin ⊢
      exact Nat.mod_eq_of_lt hmin
    have hpos : list.max_length + 1 < list.max_length + p.min_item_alloc_length.toNat := by
      rw [hreq', hstep] at hlt
      exact Nat.lt_of_mul_lt_mul_right hlt
    obtain ⟨hholds, hroom⟩ := h.of_grow_offset junk (by omega) hmin
    rw [hstep]
    exact ⟨_, rfl, hholds, rfl, rfl, rfl, hroom⟩
  · obtain ⟨hholds, hroom⟩ := h.of_grow_offset junk (by omega) hreq
    rw [hreq']
    exact ⟨_, rfl, hholds, rfl, rfl, rfl, hroom⟩
  · exact ⟨list, rfl, h, rfl, rfl, rfl, by omega⟩

/-- Where there is room, the string is appended. -/
theorem putString {p : Push} (hbuf : list.buf_length + p.str.length < list.buf.length)
    (hoff : list.length < list.s1_offset.length) :
    ∃ list', S1B.putString p list = some list' ∧ Holds list' (strs ++ [p.str]) := by
  have hsize := h.buf_size
  have hoffset := h.offset_size
  have hlen : (list.buf_length + p.str.length + 1) % SIZE = list.buf_length + p.str.length + 1 :=
    Nat.mod_eq_of_lt (by omega)
  have hlength : (list.length + 1) % SIZE = list.length + 1 := by
    refine Nat.mod_eq_of_lt ?_
    unfold OFFSETI_SZ at hoffset
    omega
  have hwrite : (writeAt list.buf list.buf_length (p.str ++ [0])).length = list.buf.length := by
    simp only [writeAt, List.length_append, List.length_take, List.length_drop,
      List.length_singleton]
    omega
  refine ⟨_, by rw [S1B.putString, if_pos ⟨hbuf, hoff⟩], ?_⟩
  rw [hlen, hlength]
  exact {
    text_eq := by
      have htake : (list.buf.take list.buf_length ++ (p.str ++ [0])).length =
          list.buf_length + p.str.length + 1 := by
        simp
        omega
      dsimp only
      rw [writeAt, ← htake, List.take_left, h.text_eq, text_snoc]
    offsets_eq := by
      dsimp only
      rw [List.take_succ_eq_append_getElem (by simpa using hoff), List.take_set,
        List.set_eq_of_length_le (by simp), List.getElem_set_self, h.offsets_eq, offsets_snoc,
        Nat.zero_add, h.length_text]
    buf_length := by
      dsimp only
      omega
    buf_max_length := hwrite ▸ h.buf_max_length
    length := by
      dsimp only
      rw [List.length_set]
      omega
    max_length := by
      dsimp only
      rw [List.length_set]
      exact h.max_length
    buf_size := hwrite ▸ hsize
    offset_size := by
      dsimp only
      rw [List.length_set]
      exact hoffset
    owned := h.owned
    nul := by
      intro s hs
      rcases List.mem_append.mp hs with hs | hs
      · exact h.nul s hs
      · rw [List.mem_singleton.mp hs]
        exact p.nul }

theorem pushStep (junk : (ℕ → UInt8) × (ℕ → ℕ)) {p : Push} (hp : GrowsFull list p) :
    ∃ list' out, S1B.pushStep junk list p = some (list', out) ∧ Holds list' (strs ++ out) := by
  obtain ⟨-, hreq, hmin⟩ := hp.1
  obtain ⟨list₁, h₁, hh₁, hb₁, hl₁, hm₁, hroom₁⟩ := h.growBuf junk.1 hp
  obtain ⟨list₂, h₂, hh₂, hbuf₂, hb₂, hl₂, hroom₂⟩ := hh₁.growOffset junk.2
    (show (list₁.max_length + 1) * OFFSETI_SZ < SIZE by rw [hm₁]; exact hreq) (p := p) (by
      unfold offsetReqSz offsetMinAllocSz at hmin ⊢
      rw [hm₁, hl₁]
      exact hmin)
  obtain ⟨list₃, h₃, hh₃⟩ := hh₂.putString (p := p) (by rw [hbuf₂, hb₂]; exact hroom₁) hroom₂
  refine ⟨list₃, [p.str], ?_, hh₃⟩
  rw [S1B.pushStep, s1blist_push, h₁]
  simp only [hh₁.owned, h₂, h₃]
  rfl

end Holds

/-- A run stores the strings of its calls in their order. -/
theorem out_of_run {junk : (ℕ → UInt8) × (ℕ → ℕ)} {list list' : S1BList} {pushes : List Push}
    {out : List (List UInt8)} (h : run (pushStep junk) list pushes = some (list', out)) :
    out = pushes.map Push.str := by
  induction pushes generalizing list out with
  | nil =>
    cases h
    rfl
  | cons p pushes ih =>
    obtain ⟨list₁, o, rest, hp, hr, rfl⟩ := run_cons_some.mp h
    obtain ⟨r, -, he⟩ := Option.map_eq_some_iff.mp hp
    cases he
    rw [ih hr]
    rfl

/-- In every run from the empty list in which the buffer grows by the length of a string only when
it is full, and sizes are sizes, each call writes inside of what is allocated, and after it the
items are the strings that have been pushed. -/
theorem s1blist_appends (junk : (ℕ → UInt8) × (ℕ → ℕ)) {pushes : List Push}
    (h : Along (pushStep junk) (fun list _ p => GrowsFull list p) S1BLIST_INITIALIZER [] pushes) :
    ∀ ps, ps <+: pushes → ∃ list,
      run (pushStep junk) S1BLIST_INITIALIZER ps = some (list, ps.map Push.str) ∧
        Appended list (ps.map Push.str) := by
  intro ps hps
  obtain ⟨list, out, hrun, hlist⟩ := exists_run_along (C := fun list _ p => GrowsFull list p)
    (I := Holds) (fun _ _ _ hs hp => hs.pushStep junk hp) holds_initializer (along_front h hps)
  obtain rfl := out_of_run hrun
  exact ⟨list, hrun, hlist.appended⟩

/-- Four calls: the buffer grows by the length of the first two strings, each time when it is full,
then by the step of the caller, and has room for the last string. -/
def fourPushes : List Push :=
  [⟨2, 2, [97, 98], by decide⟩, ⟨2, 2, [99, 100, 101], by decide⟩, ⟨16, 2, [102], by decide⟩,
    ⟨16, 2, [], by decide⟩]

instance (list : S1BList) (p : Push) : Decidable (GrowsFull list p) := by
  unfold GrowsFull SizesFit GrowsByString
  infer_instance

theorem s1blist_appends_example :
    ∃ list, run (pushStep (fun _ => 0, fun _ => 0)) S1BLIST_INITIALIZER fourPushes =
      some (list, fourPushes.map Push.str) ∧ Appended list (fourPushes.map Push.str) := by
  have hgrows : Along (pushStep (fun _ => 0, fun _ => 0)) (fun list _ p => GrowsFull list p)
      S1BLIST_INITIALIZER [] fourPushes :=
    along_cons rfl (by decide +kernel) (along_cons rfl (by decide +kernel)
      (along_cons rfl (by decide +kernel) (along_cons rfl (by decide +kernel) trivial)))
  exact s1blist_appends _ hgrows fourPushes (List.prefix_refl _)

/-- The buffer has 10 bytes, 2 of them in use, when a string of 17 comes: 20 bytes are allocated,
and 28 are recorded. The next string is written behind them. -/
def threePushes : List Push :=
  [⟨10, 1, [97], by decide⟩, ⟨10, 1, List.replicate 17 98, by decide⟩, ⟨10, 1, [99], by decide⟩]

theorem s1blist_push_overruns :
    (∃ list out, run (pushStep (fun _ => 0, fun _ => 0)) S1BLIST_INITIALIZER (threePushes.take 2) =
        some (list, out) ∧ list.buf.length = 20 ∧ list.buf_max_length = 28 ∧
          ¬Appended list ((threePushes.take 2).map Push.str)) ∧
      run (pushStep (fun _ => 0, fun _ => 0)) S1BLIST_INITIALIZER threePushes = none := by
  have hrun : (run (pushStep (fun _ => 0, fun _ => 0)) S1BLIST_INITIALIZER
      (threePushes.take 2)).map (fun r => (r.1.buf.length, r.1.buf_max_length)) =
        some (20, 28) := by decide +kernel
  obtain ⟨⟨list, out⟩, hrun, hlen⟩ := Option.map_eq_some_iff.mp hrun
  obtain ⟨hbuf, hmax⟩ := Prod.mk.inj hlen
  refine ⟨⟨list, out, hrun, hbuf, hmax, fun h => ?_⟩, by decide +kernel⟩
  have := h.2.1
  simp only at hbuf hmax
  omega

end Regonf.S1B
