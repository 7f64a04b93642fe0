import Regonf.AcpRows
import Regonf.AcpWire

/-! The three functions that ask a peer for one row: `acp_readSensorFTS`, `acp_readSensorInt` and
`acp_getFTS`. Which answers they believe. -/
namespace Regonf

variable {R V : Type*}

structure SensorInt where
  id : ℤ
  remote_id : ℤ
  peer : Peer
  value : ℤ
deriving DecidableEq, Repr

/-- `acp_readSensorInt` after its request. It clears as many bytes of its one row as the list has,
which is more than the row has; and the id of the row is compared with `==` where the other
functions have `!=`. -/
def acpReadSensorInt (s : SensorInt) (request_id id₀ : UInt32) (d : Option Datagram) :
    Option (Bool × SensorInt) :=
  (memset sizeofI2 sizeofList).bind fun _ =>
  (acpResponseReadList (acpDataToI2List 1) request_id id₀ s.peer d).map fun r =>
    let s := { s with peer := r.2.2 }
    match r.2.1 with
    | [i] =>
      if !r.1 then (false, s)
      else if i.p0 == s.remote_id then (false, s)
      else (true, { s with value := i.p1 })
    | _ => (false, s)

/-- `acp_getFTS` after its request. -/
def acpGetFTS (scanF : List UInt8 → Option (R × List UInt8)) (output : FTS R) (peer : Peer)
    (remote_id : ℤ) (request_id id₀ : UInt32) (d : Option Datagram) :
    Option (Bool × FTS R × Peer) :=
  (memset sizeofFTS sizeofList).bind fun _ =>
  (acpResponseReadFTSList scanF 1 request_id id₀ peer d).map fun r =>
    match acpCheckFTS remote_id r.1 r.2.1 with
    | some fts => (true, fts, r.2.2)
    | none => (false, output, r.2.2)

/-- The response that a datagram is received into. -/
def responseInto (id₀ : UInt32) (g : Datagram) : ACPResponse :=
  { acpResponseInit id₀ with buf := recvInto (acpResponseInit id₀).buf g }

/-- The datagram is an answer to the request, with `v` in its first row: it passes the CRC check, is
parsed, and carries the id of the request. -/
def Answers (decode : List UInt8 → List V) (request_id : UInt32) (g : Datagram) (v : V) : Prop :=
  acpCrcCheck (receivedResponse g).buf = true ∧
    ∃ item, acpResponseParse (receivedResponse g) = some (true, item) ∧ item.id = request_id ∧
      decode item.dataString = [v]

/-- What the decoder gets from a datagram: `parsed` is the result of `acp_responseParse`, which
nobody looks at. -/
def Yields (decode : List UInt8 → List V) (request_id id₀ : UInt32) (g : Datagram) (parsed : Bool)
    (v : V) : Prop :=
  acpCrcCheck (receivedResponse g).buf = true ∧
    ∃ item, acpResponseParse (responseInto id₀ g) = some (parsed, item) ∧ item.id = request_id ∧
      decode item.dataString = [v]

theorem yields_true_iff {decode : List UInt8 → List V} {request_id id₀ : UInt32} {g : Datagram}
    {v : V} : Yields decode request_id id₀ g true v ↔ Answers decode request_id g v := by
  refine and_congr_right fun _ => exists_congr fun item => and_congr_left fun _ => ?_
  constructor
  · intro h
    exact acpResponseParse_id h 0
  · intro h
    exact acpResponseParse_id h id₀

/-- The parser's behaviour on the datagram is defined, if it comes to the parser. -/
def Readable (id₀ : UInt32) (g : Datagram) : Prop :=
  acpCrcCheck (receivedResponse g).buf = true → acpResponseParse (responseInto id₀ g) ≠ none

/-- What the read of a list makes of a datagram. -/
theorem acpResponseReadList_some (decode : List UInt8 → List V) (request_id id₀ : UInt32)
    (peer : Peer) {g : Datagram} (hg : Readable id₀ g) :
    ∃ r, acpResponseReadList decode request_id id₀ peer (some g) = some r ∧
      ∀ v, r.1 = true ∧ r.2.1 = [v] ↔ ∃ parsed, Yields decode request_id id₀ g parsed v := by
  unfold acpResponseReadList acpResponseRead
  have hread : acpRead (acpResponseInit id₀).buf peer (some g) =
      (acpCrcCheck (receivedResponse g).buf, (receivedResponse g).buf, ⟨g.src⟩) := rfl
  rw [hread]
  cases hc : acpCrcCheck (receivedResponse g).buf with
  | false =>
    -- the read has failed, and the parser is not called
    refine ⟨(false, [], ⟨g.src⟩), rfl, fun v => iff_of_false (fun h => by cases h.1) ?_⟩
    rintro ⟨parsed, hy, -⟩
    rw [hc] at hy
    cases hy
  | true =>
    obtain ⟨⟨parsed, item⟩, hp⟩ := Option.ne_none_iff_exists'.mp (hg hc)
    have hp' : acpResponseParse { acpResponseInit id₀ with buf := (receivedResponse g).buf } =
        some (parsed, item) := hp
    dsimp only
    rw [hp', Option.map_some, Option.map_some, Bool.true_and, acpResponseCheck]
    -- whatever the parser says, it is the id that decides
    by_cases hid : item.id = request_id
    · rw [if_pos (by simpa using hid)]
      refine ⟨_, rfl, fun v => ⟨fun h => ⟨parsed, hc, item, hp, hid, h.2⟩, ?_⟩⟩
      rintro ⟨parsed', -, item', hp'', -, hv⟩
      rw [hp] at hp''
      cases hp''
      exact ⟨rfl, hv⟩
    · rw [if_neg (by simpa using hid)]
      refine ⟨_, rfl, fun v => iff_of_false (fun h => by cases h.1) ?_⟩
      rintro ⟨parsed', -, item', hp'', hid', -⟩
      rw [hp] at hp''
      cases hp''
      exact hid hid'

theorem acpResponseReadList_undefined (decode : List UInt8 → List V) (request_id id₀ : UInt32)
    (peer : Peer) {g : Datagram} (hg : ¬Readable id₀ g) :
    acpResponseReadList decode request_id id₀ peer (some g) = none := by
  unfold Readable at hg
  rw [Classical.not_imp, not_not] at hg
  obtain ⟨hc, hp⟩ := hg
  have hread : acpRead (acpResponseInit id₀).buf peer (some g) =
      (acpCrcCheck (receivedResponse g).buf, (receivedResponse g).buf, ⟨g.src⟩) := rfl
  have hp' : acpResponseParse { acpResponseInit id₀ with buf := (receivedResponse g).buf } =
      none := hp
  unfold acpResponseReadList acpResponseRead
  rw [hread, hc]
  dsimp only
  rw [hp']
  rfl

/-- Two rows that a datagram yields are the same, and so is the result of the parser. -/
theorem Yields.unique {decode : List UInt8 → List V} {request_id id₀ : UInt32} {g : Datagram}
    {p p' : Bool} {v v' : V} (h : Yields decode request_id id₀ g p v)
    (h' : Yields decode request_id id₀ g p' v') : p = p' ∧ v = v' := by
  obtain ⟨-, item, hp, -, hv⟩ := h
  obtain ⟨-, item', hp', -, hv'⟩ := h'
  rw [hp] at hp'
  cases hp'
  rw [hv] at hv'
  exact ⟨rfl, (List.cons.inj hv').1⟩

/-- A query returns 1 only for an answer to its request with the right row, and then has stored
the row; and otherwise it returns 0 and keeps what was stored. -/
def BelievesAnswers {S : Type*} (decode : List UInt8 → List V) (right : V → Prop)
    (request_id : UInt32) (d : Option Datagram) (stored : S → V → Prop) (kept : S → Prop)
    (run : Option (Bool × S)) : Prop :=
  ∃ ok after, run = some (ok, after) ∧
    (ok = true → ∃ g v, d = some g ∧ Answers decode request_id g v ∧ right v ∧ stored after v) ∧
    (ok = false → kept after)

/-- A query that takes the row it read if it accepts it. -/
theorem believesAnswers_iff {S : Type*} {decode : List UInt8 → List V} {right : V → Prop}
    (accept : V → Prop) {request_id id₀ : UInt32} {peer : Peer} {d : Option Datagram}
    {stored : S → V → Prop} {kept : S → Prop} {q : Bool × List V × Peer → Bool × S}
    (htake : ∀ p v, accept v → ∃ after, q (true, [v], p) = (true, after) ∧ stored after v)
    (hkeep : ∀ r, (∀ v, r.1 = true ∧ r.2.1 = [v] → ¬accept v) →
      ∃ after, q r = (false, after) ∧ kept after) :
    BelievesAnswers decode right request_id d stored kept
        ((acpResponseReadList decode request_id id₀ peer d).map q) ↔
      ∀ g, d = some g → Readable id₀ g ∧ ∀ parsed v,
        Yields decode request_id id₀ g parsed v → accept v → parsed = true ∧ right v := by
  constructor
  · rintro ⟨ok, after, hrun, hbelieved, -⟩ g rfl
    by_cases hg : Readable id₀ g
    · refine ⟨hg, fun parsed v hy ha => ?_⟩
      obtain ⟨⟨ok', list, p⟩, hr, hyields⟩ :=
        acpResponseReadList_some decode request_id id₀ peer hg
      obtain ⟨rfl, rfl⟩ := (hyields v).mpr ⟨parsed, hy⟩
      obtain ⟨after', hq, -⟩ := htake p v ha
      rw [hr, Option.map_some, hq] at hrun
      cases hrun
      obtain ⟨g', v', hg', hans, hright, -⟩ := hbelieved rfl
      cases hg'
      -- the row that was taken is that of the answer
      obtain ⟨hparsed, rfl⟩ := hy.unique (yields_true_iff.mpr hans)
      exact ⟨hparsed, hright⟩
    · rw [acpResponseReadList_undefined decode request_id id₀ peer hg] at hrun
      cases hrun
  · intro h
    cases d with
    | none =>
      obtain ⟨after, hq, hk⟩ := hkeep (false, [], peer) fun v hv => by cases hv.1
      exact ⟨false, after, congrArg some hq, by simp, fun _ => hk⟩
    | some g =>
      obtain ⟨hg, hy⟩ := h g rfl
      obtain ⟨⟨ok, list, p⟩, hr, hyields⟩ := acpResponseReadList_some decode request_id id₀ peer hg
      -- either one row has been read that the query accepts, or the query keeps what it has
      by_cases hacc : ∃ v, (ok = true ∧ list = [v]) ∧ accept v
      · obtain ⟨v, ⟨rfl, rfl⟩, ha⟩ := hacc
        obtain ⟨parsed, hyv⟩ := (hyields v).mp ⟨rfl, rfl⟩
        obtain ⟨rfl, hright⟩ := hy parsed v hyv ha
        obtain ⟨after, hq, hs⟩ := htake p v ha
        refine ⟨true, after, by rw [hr, Option.map_some, hq], fun _ => ?_, by simp⟩
        exact ⟨g, v, rfl, yields_true_iff.mp hyv, hright, hs⟩
      · obtain ⟨after, hq, hk⟩ := hkeep (ok, list, p) fun v hv ha => hacc ⟨v, hv, ha⟩
        exact ⟨false, after, by rw [hr, Option.map_some, hq], by simp, fun _ => hk⟩

section
variable {S : Type*} {decode : List UInt8 → List V} {right : V → Prop} {request_id id₀ : UInt32}
  {peer : Peer} {d : Option Datagram} {stored : S → V → Prop} {kept : S → Prop}
  {q : Bool × List V × Peer → Bool × S}

/-- A query that accepts the right row only: all that can deceive it is a response that the parser
refused. -/
theorem believesAnswers_right
    (htake : ∀ p v, right v → ∃ after, q (true, [v], p) = (true, after) ∧ stored after v)
    (hkeep : ∀ r, (∀ v, r.1 = true ∧ r.2.1 = [v] → ¬right v) →
      ∃ after, q r = (false, after) ∧ kept after) :
    BelievesAnswers decode right request_id d stored kept
        ((acpResponseReadList decode request_id id₀ peer d).map q) ↔
      ∀ g, d = some g → Readable id₀ g ∧ ∀ v,
        Yields decode request_id id₀ g false v → ¬right v := by
  rw [believesAnswers_iff right htake hkeep]
  refine forall_congr' fun g => imp_congr_right fun _ => and_congr_right fun _ => ?_
  constructor
  · intro h v hy hv
    exact absurd (h false v hy hv).1 (by decide)
  · intro h parsed v hy hv
    cases parsed with
    | false => exact absurd hv (h v hy)
    | true => exact ⟨rfl, hv⟩

end

theorem acpCheckFTS_take {remote_id : ℤ} {f : FTS R} (h : f.id = remote_id ∧ f.state = 1) :
    acpCheckFTS remote_id true [f] = some f := by
  simp [acpCheckFTS, h.1, h.2]

theorem acpCheckFTS_keep {remote_id : ℤ} {ok : Bool} {tl : List (FTS R)}
    (h : ∀ f, ok = true ∧ tl = [f] → ¬(f.id = remote_id ∧ f.state = 1)) :
    acpCheckFTS remote_id ok tl = none := by
  cases hc : acpCheckFTS remote_id ok tl with
  | none => rfl
  | some f =>
    obtain ⟨hok, htl, hf⟩ := acpCheckFTS_some hc
    exact absurd hf (h f ⟨hok, htl⟩)

/-- The row that `acp_readSensorFTS` and `acp_getFTS` ask for. -/
def RightFTS (remote_id : ℤ) (f : FTS R) : Prop := f.id = remote_id ∧ f.state = 1

/-- The two FTS queries believe answers only, unless the parser runs over a number string or the
row comes from a response that the parser refused, whose id was that of the request before. No call
of the `int` query is defined, whatever is received. -/
theorem only_answers_believed (scanF : List UInt8 → Option (R × List UInt8)) (s : SensorFTS R)
    (i : SensorInt) (output : FTS R) (peer : Peer) (remote_id : ℤ) (request_id id₀ : UInt32)
    (d : Option Datagram) :
    (BelievesAnswers (acpDataToFTSList scanF 1) (RightFTS s.remote_id) request_id d
        (fun s' f => s'.value = f)
        (fun s' => s'.value.value = s.value.value ∧ s'.value.tm = s.value.tm)
        (acpReadSensorFTS scanF s request_id id₀ d) ↔
      ∀ g, d = some g → Readable id₀ g ∧ ∀ f,
        Yields (acpDataToFTSList scanF 1) request_id id₀ g false f → ¬RightFTS s.remote_id f) ∧
    ¬BelievesAnswers (acpDataToI2List 1) (fun v => v.p0 = i.remote_id) request_id d
        (fun i' v => i'.value = v.p1) (fun i' => i'.value = i.value)
        (acpReadSensorInt i request_id id₀ d) ∧
    (BelievesAnswers (acpDataToFTSList scanF 1) (RightFTS remote_id) request_id d
        (fun r f => r.1 = f) (fun r => r.1 = output)
        (acpGetFTS scanF output peer remote_id request_id id₀ d) ↔
      ∀ g, d = some g → Readable id₀ g ∧ ∀ f,
        Yields (acpDataToFTSList scanF 1) request_id id₀ g false f → ¬RightFTS remote_id f) := by
  refine ⟨?_, ?_, ?_⟩
  · rw [acpReadSensorFTS, acpResponseReadFTSList, memset_sizeofFTS, Option.bind_some]
    refine believesAnswers_right (fun p f hf => ?_) fun r hr => ?_
    · dsimp only
      rw [acpCheckFTS_take hf]
      exact ⟨_, rfl, rfl⟩
    · dsimp only
      rw [acpCheckFTS_keep hr]
      exact ⟨_, rfl, rfl, rfl⟩
  · rintro ⟨ok, after, hrun, -⟩
    rw [acpReadSensorInt, memset_sizeofI2] at hrun
    cases hrun
  · rw [acpGetFTS, acpResponseReadFTSList, memset_sizeofFTS, Option.bind_some]
    refine believesAnswers_right (fun p f hf => ?_) fun r hr => ?_
    · dsimp only
      rw [acpCheckFTS_take hf]
      exact ⟨_, rfl, rfl⟩
    · rw [acpCheckFTS_keep hr]
      exact ⟨_, rfl, rfl⟩

/-- The reply to request 7 with the row of sensor 1, whose value is 55. -/
def exampleIntReply : Datagram :=
  ⟨⟨0, 0⟩, sentBytes (packetText [48, 9, 48] [49, 9, 53, 53, 10] (fmtU 7)) 0⟩

theorem exampleIntReply_answers : Answers (acpDataToI2List 1) 7 exampleIntReply ⟨1, 55⟩ := by
  have hp : ((acpResponseParse (receivedResponse exampleIntReply)).map fun r =>
      (r.1, r.2.id, acpDataToI2List 1 r.2.dataString)) = some (true, 7, [⟨1, 55⟩]) := by
    decide +kernel
  obtain ⟨⟨ok, item⟩, hr, he⟩ := Option.map_eq_some_iff.mp hp
  simp only [Prod.mk.injEq] at he
  obtain ⟨rfl, hid, hd⟩ := he
  exact ⟨by decide +kernel, item, hr, hid, hd⟩

/-- The read of an `int` is undefined when it gets the answer to its request; and the row of a
response whose id the parser refused is taken, when the response starts with the id of the
request. -/
theorem foreign_rows_believed :
    (Answers (acpDataToI2List 1) 7 exampleIntReply ⟨1, 55⟩ ∧
      acpReadSensorInt ⟨5, 1, ⟨⟨0, 0⟩⟩, 0⟩ 7 0 (some exampleIntReply) = none) ∧
    ∃ peer', acpGetFTS scanDecimal ⟨0, 0, ⟨0, 0⟩, 0⟩ ⟨⟨0, 0⟩⟩ 1 7 7
        (some ⟨⟨0, 0⟩, sentBytes (packetText [48, 9, 48]
          [49, 9, 50, 53, 9, 48, 9, 48, 9, 49, 10] [120]) 0⟩) =
      some (true, ⟨1, 25, ⟨0, 0⟩, 1⟩, peer') :=
  ⟨⟨exampleIntReply_answers, rfl⟩, ⟨⟨0, 0⟩⟩, by decide +kernel⟩

end Regonf
