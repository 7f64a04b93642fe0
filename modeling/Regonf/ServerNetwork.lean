import Regonf.Lib.Since
import Regonf.ServerChain

/-! A daemon and any number of clients on a network that loses, repeats, delays and reorders their
datagrams. What a client of the library learns from an answer held of the daemon at some moment
since its own request. -/
namespace Regonf

open Blocks Rows

/-- A request with the function that takes its answer: `acp_readSensorFTS`, `acp_pingPeer`, or that
of another client, which is left open. -/
inductive Question where
  | sensor (s : SensorFTS ℚ)
  | ping (peer : Peer)
  | query (q : Query) (ids : List ℤ)

/-- What a client is told: the reading of a sensor, or that a daemon is active. The other results of
the functions also stand for an answer that is lost. -/
inductive Learnt where
  | reading (f : FTS ℚ)
  | active

/-- The datagram that is sent, if the request fits into one. -/
def Question.send (qn : Question) (request : ACPRequest) (id : UInt32) :
    Option (Option (List UInt8)) :=
  match qn with
  | .sensor s =>
    (acpRequestSendI1List ACP_CMD_GET_FTS [s.remote_id] request id sendtoAll).map fun r => r.2.2
  | .ping _ => (acpRequestSendCmd ACP_CMD_APP_PING request id sendtoAll).map fun r =>
    if r.1 = 0 then none else some r.2.2
  | .query q ids => (acpRequestSendI1List q.cmd ids request id sendtoAll).map fun r => r.2.2

/-- What the function makes of the datagram that it gets, or of none before the timeout. -/
def Question.learn (qn : Question) (id id₁ : UInt32) (d : Option Datagram) :
    Option (Option Learnt) :=
  match qn with
  | .sensor s => (acpReadSensorFTS scanFloat s id id₁ d).map fun r =>
    if r.1 then some (.reading r.2.value) else none
  | .ping peer => (acpPingPeer peer id id₁ d).map fun r => if r.1 then some .active else none
  | .query _ _ => some none

/-- What is learnt is so of the daemon. -/
def Learnt.Holds (h : Host) : Question → Learnt → Prop
  | .sensor s, .reading f => ∃ p, h.Shows s.remote_id p ∧ f = printedFTS p
  | .ping _, .active => h.init_state = true
  | _, _ => False

/-! The network. It keeps every datagram that has been sent, and may deliver it at any time, any
number of times, or never. -/

structure Net where
  host : Host
  requests : List (List UInt8)
  answers : List (List UInt8)
  waiting : List (UInt32 × Question)

/-- A step of the whole: anything that becomes of the daemon, a client that sends a request and
waits, a request that comes to the daemon, and an answer, from any address, or the timeout that
comes to a client. -/
inductive NetInput where
  | becomes (h : Host)
  | ask (qn : Question) (request : ACPRequest) (id : UInt32)
  | deliver (i : ℕ) (src : SockAddr)
  | hear (w : ℕ) (d : Option (ℕ × SockAddr)) (id₁ : UInt32)

/-- The messages say which request has been answered, and what its client has learnt. -/
def Net.step (n : Net) : NetInput → Option (Net × List (UInt32 × Question × Learnt))
  | .becomes h => some ({ n with host := h }, [])
  | .ask qn request id => (qn.send request id).map fun sent =>
    ({ n with requests := n.requests ++ sent.toList, waiting := n.waiting ++ [(id, qn)] }, [])
  | .deliver i src => (n.requests[i]?).bind fun bytes =>
    (n.host.serve ⟨src, bytes⟩).map fun reply =>
      ({ n with answers := n.answers ++ reply.toList }, [])
  | .hear w d id₁ => (n.waiting[w]?).bind fun c =>
    let d := d.bind fun d => (n.answers[d.1]?).map fun bytes => (⟨d.2, bytes⟩ : Datagram)
    (c.2.learn c.1 id₁ d).map fun l =>
      ({ n with waiting := n.waiting.eraseIdx w }, l.toList.map fun l => (c.1, c.2, l))

/-- No datagram is under way, and nobody waits. -/
def Net.start (h : Host) : Net := ⟨h, [], [], []⟩

/-- A daemon finds the program that has the id, and its values are those of their C types. -/
def Host.Valid (h : Host) : Prop :=
  ∀ i p, h.progs i = some p → p.InRange ∧ p.item.id = i

def Question.Valid : Question → Prop
  | .sensor s => IsInt s.remote_id
  | .ping _ => True
  | .query _ ids => ids ≠ [] ∧ ∀ i ∈ ids, IsInt i

def NetInput.Valid : NetInput → Prop
  | .becomes h => h.Valid
  | .ask qn _ _ => qn.Valid
  | _ => True

/-- The request of a step, and its id. -/
def NetInput.asks? : NetInput → Option (UInt32 × Question)
  | .ask qn _ id => some (id, qn)
  | _ => none

/-! What goes over the wire. -/

/-- The query of a question, and the ids that it asks for; a ping has none. -/
def Question.query? : Question → Option (Query × List ℤ)
  | .sensor s => some (.progFTS, [s.remote_id])
  | .ping _ => none
  | .query q ids => some (q, ids)

/-- A datagram is the request of a question. -/
def Question.IsPacket (qn : Question) (id : UInt32) (bytes : List UInt8) : Prop :=
  match qn.query? with
  | some (q, ids) =>
    (rowsText fmtI1 ids).length + 1 < ACP_DATA_MAX_SIZE ∧ ∃ b, bytes = q.packet ids id b
  | none => ∃ b, bytes = sentBytes (packetText ACP_CMD_APP_PING [] (fmtU id)) b

/-- A daemon answers a question, and the text of the answer. -/
def Question.Answered (qn : Question) (h : Host) (x : List UInt8) : Prop :=
  match qn.query? with
  | some (q, ids) =>
    h.init_state = true ∧ q.Locked (ids.map h.progs) ∧ x = q.text (ids.map h.progs)
  | none => x = pingText h.init_state

theorem Question.Valid.ids {qn : Question} (h : qn.Valid) {q : Query} {ids : List ℤ}
    (hq : qn.query? = some (q, ids)) : ids ≠ [] ∧ ∀ i ∈ ids, IsInt i := by
  cases qn with
  | sensor s =>
    cases hq
    exact ⟨List.cons_ne_nil _ _, List.forall_mem_singleton.mpr h⟩
  | ping peer => cases hq
  | query q ids =>
    cases hq
    exact h

theorem Query.send_isPacket (q : Query) {ids : List ℤ} (h : ∀ i ∈ ids, IsInt i)
    (request : ACPRequest) (id : UInt32) :
    ∃ sent, (acpRequestSendI1List q.cmd ids request id sendtoAll).map (fun r => r.2.2) = some sent ∧
      ∀ bytes, sent = some bytes →
        (rowsText fmtI1 ids).length + 1 < ACP_DATA_MAX_SIZE ∧ ∃ b, bytes = q.packet ids id b := by
  obtain ⟨request', sent, hsend, hnone, hbytes⟩ := q.sent h request id
  refine ⟨sent, by rw [hsend, Option.map_some], fun bytes hb => ⟨?_, hbytes bytes hb⟩⟩
  rw [← not_le, ← hnone, hb]
  simp

theorem Question.send_isPacket (qn : Question) (h : qn.Valid) (request : ACPRequest)
    (id : UInt32) :
    ∃ sent, qn.send request id = some sent ∧ ∀ bytes, sent = some bytes → qn.IsPacket id bytes := by
  cases qn with
  | sensor s => exact Query.progFTS.send_isPacket (List.forall_mem_singleton.mpr h) request id
  | query q ids => exact q.send_isPacket h.2 request id
  | ping peer =>
    obtain ⟨n, packed, b, hsend⟩ := acpRequestSendCmd_ping request id
    have hne : ((n + 2 : ℕ) : ℤ) ≠ 0 := by omega
    refine ⟨_, by rw [send, hsend, Option.map_some, if_neg hne], ?_⟩
    rintro _ ⟨rfl⟩
    exact ⟨b, rfl⟩

theorem Host.Valid.inRange {h : Host} (hv : h.Valid) (ids : List ℤ) :
    ∀ s ∈ (ids.map h.progs).reduceOption, s.InRange := by
  intro s hs
  rw [List.reduceOption_mem_iff, List.mem_map] at hs
  obtain ⟨i, -, hi⟩ := hs
  exact (hv i s hi).1

/-- The daemon answers a request with the id of the request and the text for its question. -/
theorem Host.Valid.serve {h : Host} (hv : h.Valid) {qn : Question} (hq : qn.Valid) {id : UInt32}
    {bytes : List UInt8} (hp : qn.IsPacket id bytes) (src : SockAddr) :
    ∃ reply, h.serve ⟨src, bytes⟩ = some reply ∧
      ∀ answer, reply = some answer → ∃ x, Carries answer id x ∧ qn.Answered h x := by
  unfold Question.IsPacket at hp
  unfold Question.Answered
  cases hquery : qn.query? with
  | none =>
    rw [hquery] at hp
    obtain ⟨b, rfl⟩ := hp
    obtain ⟨answer, hans, hcarries⟩ := answerPing_carries h.init_state h.id₀ id
    refine ⟨some answer, (h.serve_ping id src b).trans hans, ?_⟩
    rintro _ ⟨rfl⟩
    exact ⟨_, hcarries, rfl⟩
  | some query =>
    obtain ⟨q, ids⟩ := query
    rw [hquery] at hp
    obtain ⟨hfit, b, rfl⟩ := hp
    obtain ⟨hne, hids⟩ := hq.ids hquery
    rw [h.serve_query q hids hne hfit id src b]
    cases hinit : h.init_state with
    -- a daemon without its data keeps silent
    | false => exact ⟨none, rfl, nofun⟩
    | true =>
      obtain ⟨answer, hans, hnone, hcarries⟩ :=
        q.answer_carries (ids.map h.progs) (hv.inRange ids) h.id₀ id
      refine ⟨answer, hans, fun bytes hb => ⟨_, hcarries bytes hb, rfl, ?_, rfl⟩⟩
      have := mt hnone.mpr (hb ▸ Option.some_ne_none bytes)
      exact not_not.mp (not_or.mp this).1

/-! What a client learns. -/

/-- A response is taken for an answer only if it has the id of the request, or no text. -/
theorem carries_id {item : ACPResponse} {id id' : UInt32} {x : List UInt8}
    (hid : x ≠ [] → item.id = id') (hne : x ≠ []) (hcheck : acpResponseCheck item id = true) :
    id' = id := by
  rw [acpResponseCheck, beq_iff_eq] at hcheck
  rw [← hid hne, hcheck]

section
variable {bytes x : List UInt8} {id id' : UInt32} (hc : Carries bytes id' x)
include hc

/-- Rows are only taken from the answer to the request. -/
theorem acpResponseReadList_carries {V : Type*} (decode : List UInt8 → List V)
    (hnil : decode [] = []) (id₁ : UInt32) (peer : Peer) (src : SockAddr) :
    ∃ ok list, acpResponseReadList decode id id₁ peer (some ⟨src, bytes⟩) =
      some (ok, list, ⟨src⟩) ∧ (list ≠ [] → id' = id ∧ list = decode x) := by
  obtain ⟨item, hread, hdata, hid⟩ := hc id₁ peer src
  rw [acpResponseReadList, hread, Option.map_some, dataString_of_cString hdata, Bool.true_and]
  -- a foreign id gives no rows, and rows need a text, which comes with its id
  by_cases hcheck : acpResponseCheck item id = true
  · rw [if_pos hcheck]
    refine ⟨true, decode x, rfl, fun hne => ⟨carries_id hid ?_ hcheck, rfl⟩⟩
    rintro rfl
    exact hne hnil
  · rw [if_neg hcheck]
    exact ⟨false, [], rfl, fun hne => absurd rfl hne⟩

theorem acpReadSensorFTS_carries {s s' : SensorFTS ℚ} {id₁ : UInt32} {src : SockAddr}
    (h : acpReadSensorFTS scanFloat s id id₁ (some ⟨src, bytes⟩) = some (true, s')) :
    id' = id ∧ acpDataToFTSList scanFloat 1 x = [s'.value] ∧ s'.value.state = 1 := by
  obtain ⟨ok, list, hread, hlist⟩ :=
    acpResponseReadList_carries hc (acpDataToFTSList scanFloat 1) rfl id₁ s.peer src
  rw [acpReadSensorFTS, acpResponseReadFTSList] at h
  dsimp only at h
  rw [memset_sizeofFTS, Option.bind_some, hread, Option.map_some] at h
  dsimp only at h
  cases hf : acpCheckFTS s.remote_id ok list with
  | none => simp [hf] at h
  | some fts =>
    rw [hf] at h
    cases h
    obtain ⟨-, rfl, -, hstate⟩ := acpCheckFTS_some hf
    obtain ⟨hid, hx⟩ := hlist (List.cons_ne_nil _ _)
    exact ⟨hid, hx.symm, hstate⟩

theorem acpPingPeer_carries {peer peer' : Peer} {id₁ : UInt32} {src : SockAddr}
    (h : acpPingPeer peer id id₁ (some ⟨src, bytes⟩) = some (true, peer')) :
    id' = id ∧ x.head? = ACP_RESP_APP_BUSY.head? := by
  obtain ⟨item, hread, hdata, hid⟩ := hc id₁ peer src
  rw [acpPingPeer, hread, Option.map_some, Option.some.injEq, Prod.mk.injEq] at h
  simp only [Bool.true_and, Bool.and_eq_true, beq_iff_eq] at h
  obtain ⟨⟨hcheck, hhead⟩, -⟩ := h
  obtain ⟨-, t, ht⟩ := cString_eq_some_iff.mp hdata
  cases x with
  | nil =>
    rw [ht, List.nil_append, List.head?_cons] at hhead
    exact absurd hhead (by decide)
  | cons b x =>
    refine ⟨carries_id hid (List.cons_ne_nil b x) hcheck, ?_⟩
    rw [← hhead, ht]
    rfl

theorem Question.learn_carries {qn : Question} {id₁ : UInt32} {src : SockAddr} {l : Learnt}
    (h : qn.learn id id₁ (some ⟨src, bytes⟩) = some (some l)) : id' = id := by
  cases qn with
  | sensor s =>
    rw [learn, Option.map_eq_some_iff] at h
    obtain ⟨⟨ok, s'⟩, hread, hl⟩ := h
    cases ok with
    | false => cases hl
    | true => exact (acpReadSensorFTS_carries hc hread).1
  | ping peer =>
    rw [learn, Option.map_eq_some_iff] at h
    obtain ⟨⟨ok, peer'⟩, hread, hl⟩ := h
    cases ok with
    | false => cases hl
    | true => exact (acpPingPeer_carries hc hread).1
  | query q ids => cases h

omit hc in
/-- The answer to a query for one program that has a row. -/
theorem Host.Valid.answered_one {host : Host} (hv : host.Valid) {q : Query} {i : ℤ}
    (hlocks : q.Locked ([i].map host.progs)) (hne : q.text ([i].map host.progs) ≠ []) :
    ∃ p, host.progs i = some p ∧ (q.locks = true → p.locked = true) ∧
      q.Decodes [p] 1 (q.text ([i].map host.progs)) := by
  have hdec := q.decodes (hv.inRange [i]) (n := 1) (List.reduceOption_length_le _)
  rw [Query.text] at hne ⊢
  rw [Query.Locked] at hlocks
  rw [List.map_singleton, List.reduceOption_singleton] at *
  cases hprog : host.progs i with
  | none =>
    rw [hprog] at hne
    exact absurd rfl hne
  | some p =>
    rw [hprog] at hdec hlocks
    exact ⟨p, rfl, hlocks p (by simp), hdec⟩

/-- What is learnt from the text that a daemon answers holds of the daemon. -/
theorem Question.learn_holds {qn : Question} {id₁ : UInt32} {src : SockAddr} {l : Learnt}
    (h : qn.learn id id₁ (some ⟨src, bytes⟩) = some (some l)) {host : Host} (hv : host.Valid)
    (hx : qn.Answered host x) : l.Holds host qn := by
  cases qn with
  | sensor s =>
    rw [learn, Option.map_eq_some_iff] at h
    obtain ⟨⟨ok, s'⟩, hread, hl⟩ := h
    cases ok with
    | false => cases hl
    | true =>
      cases hl
      obtain ⟨-, hlist, hstate⟩ := acpReadSensorFTS_carries hc hread
      obtain ⟨hinit, hlocks, rfl⟩ := hx
      -- a reading comes from a row, so the daemon has shown one
      have hne : Query.progFTS.text ([s.remote_id].map host.progs) ≠ [] := fun hnil => by
        rw [hnil] at hlist
        cases hlist
      obtain ⟨p, hprog, hlocked, hdec⟩ := hv.answered_one hlocks hne
      have hp : printedFTS p = s'.value := List.singleton_inj.mp (hdec.symm.trans hlist)
      refine ⟨p, ⟨hinit, hprog, hlocked rfl, ?_⟩, hp.symm⟩
      rw [← hp] at hstate
      exact hstate
  | ping peer =>
    rw [learn, Option.map_eq_some_iff] at h
    obtain ⟨⟨ok, peer'⟩, hread, hl⟩ := h
    cases ok with
    | false => cases hl
    | true =>
      cases hl
      obtain ⟨-, hhead⟩ := acpPingPeer_carries hc hread
      rw [show x = pingText host.init_state from hx] at hhead
      cases hinit : host.init_state with
      | false =>
        rw [hinit] at hhead
        exact absurd hhead (by decide)
      | true => exact hinit
  | query q ids => cases h

omit hc in
/-- Nothing is learnt from the timeout. -/
theorem Question.learn_none (qn : Question) (id id₁ : UInt32) :
    qn.learn id id₁ none = some none := by
  cases qn with
  | sensor s => rfl
  | ping peer => rfl
  | query q ids => rfl

end

/-! Runs. -/

/-- The step sends this request. -/
def NetInput.Asks (id : UInt32) (qn : Question) (i : NetInput) : Prop := i.asks? = some (id, qn)

/-- What there is on the network after the inputs `is`: packets of requests that have been sent, and
answers that the daemon gave after such a request. -/
structure Net.History (h : Host) (is : List NetInput) (n : Net) : Prop where
  valid : n.host.Valid
  requests : ∀ bytes ∈ n.requests, ∃ id qn, (∃ i ∈ is, i.Asks id qn) ∧ qn.Valid ∧
    qn.IsPacket id bytes
  answers : ∀ bytes ∈ n.answers, ∃ id qn x, Carries bytes id x ∧
    Controller.Since Net.step (.start h) (·.Asks id qn) (fun u => u.host.Valid ∧
      qn.Answered u.host x) is
  waiting : ∀ c ∈ n.waiting, ∃ i ∈ is, i.Asks c.1 c.2

theorem Net.History.append {h : Host} {is : List NetInput} {n : Net} (hn : n.History h is)
    (i : NetInput) : n.History h (is ++ [i]) where
  valid := hn.valid
  requests bytes hb := by
    obtain ⟨id, qn, ⟨j, hj, hasks⟩, hrest⟩ := hn.requests bytes hb
    exact ⟨id, qn, ⟨j, List.mem_append_left _ hj, hasks⟩, hrest⟩
  answers bytes hb := by
    obtain ⟨id, qn, x, hc, hs⟩ := hn.answers bytes hb
    exact ⟨id, qn, x, hc, hs.append [i]⟩
  waiting c hc := by
    obtain ⟨j, hj, hasks⟩ := hn.waiting c hc
    exact ⟨j, List.mem_append_left _ hj, hasks⟩

/-- The step lemma. -/
theorem Net.History.step {h : Host} {is : List NetInput} {n n' : Net} {i : NetInput}
    {out o : List (UInt32 × Question × Learnt)}
    (hr : Controller.run Net.step (.start h) is = some (n, out)) (hn : n.History h is)
    (hv : i.Valid) (hs : n.step i = some (n', o)) : n'.History h (is ++ [i]) := by
  -- what was on the network before stays explained by the longer run
  have hold := hn.append i
  cases i with
  | becomes h' =>
    cases hs
    exact { hold with valid := hv }
  | ask qn request id =>
    obtain ⟨sent, hsend, hpacket⟩ := qn.send_isPacket hv request id
    rw [Net.step, hsend, Option.map_some] at hs
    cases hs
    have hasks : ∃ j ∈ is ++ [NetInput.ask qn request id], j.Asks id qn :=
      ⟨_, List.mem_append_right _ List.mem_cons_self, rfl⟩
    refine { hold with
      requests := fun bytes hb => ?_
      waiting := fun c hc => ?_ }
    · rcases List.mem_append.mp hb with hb | hb
      · exact hold.requests bytes hb
      · exact ⟨id, qn, hasks, hv, hpacket bytes (Option.mem_toList.mp hb)⟩
    · rcases List.mem_append.mp hc with hc | hc
      · exact hold.waiting c hc
      · rw [List.mem_singleton.mp hc]
        exact hasks
  | deliver k src =>
    rw [Net.step, Option.bind_eq_some_iff] at hs
    obtain ⟨bytes, hget, hs⟩ := hs
    -- every packet under way is that of a request, however often it has come already
    obtain ⟨id, qn, hasks, hq, hpacket⟩ := hn.requests bytes (List.mem_of_getElem? hget)
    obtain ⟨reply, hserve, hreply⟩ := hn.valid.serve hq hpacket src
    rw [hserve, Option.map_some] at hs
    cases hs
    refine { hold with answers := fun answer hb => ?_ }
    rcases List.mem_append.mp hb with hb | hb
    · exact hold.answers answer hb
    · -- the daemon answers in the state that it is in now
      obtain ⟨x, hcarries, hx⟩ := hreply answer (Option.mem_toList.mp hb)
      exact ⟨id, qn, x, hcarries, (Controller.Since.now hr hasks ⟨hn.valid, hx⟩).append _⟩
  | hear w d id₁ =>
    rw [Net.step, Option.bind_eq_some_iff] at hs
    obtain ⟨c, -, hs⟩ := hs
    obtain ⟨l, -, hs⟩ := Option.map_eq_some_iff.mp hs
    cases hs
    exact { hold with waiting := fun c hc => hold.waiting c (List.mem_of_mem_eraseIdx hc) }

theorem Net.history_start {h : Host} (hv : h.Valid) : (Net.start h).History h [] where
  valid := hv
  requests _ hb := absurd hb List.not_mem_nil
  answers _ hb := absurd hb List.not_mem_nil
  waiting _ hc := absurd hc List.not_mem_nil

/-- The run lemma. -/
theorem Net.history_run {h : Host} (hv : h.Valid) {is : List NetInput} (hi : ∀ i ∈ is, i.Valid)
    {n : Net} {out : List (UInt32 × Question × Learnt)}
    (hr : Controller.run Net.step (.start h) is = some (n, out)) : n.History h is :=
  Controller.run_history (C := NetInput.Valid) (I := fun is n => n.History h is)
    (fun _ _ _ _ _ _ hr hn hv hs => hn.step hr hv hs) (Net.history_start hv) hi hr

/-- An id belongs to one request. -/
theorem asks_unique {is : List NetInput} (hid : ((is.filterMap NetInput.asks?).map Prod.fst).Nodup)
    {id : UInt32} {qn qn' : Question} (h : ∃ i ∈ is, i.Asks id qn) (h' : ∃ i ∈ is, i.Asks id qn') :
    qn = qn' := by
  have hmem {qn : Question} (h : ∃ i ∈ is, NetInput.Asks id qn i) :
      (id, qn) ∈ is.filterMap NetInput.asks? := by
    obtain ⟨i, hi, hasks⟩ := h
    exact List.mem_filterMap.mpr ⟨i, hi, hasks⟩
  exact congrArg Prod.snd (List.inj_on_of_nodup_map hid (hmem h) (hmem h') rfl)

/-- A reading that succeeds when nothing is lost, as a run of the whole. -/
theorem exists_run_readSensor {h : Host} {s s' : SensorFTS ℚ} {request : ACPRequest}
    {id id₁ : UInt32} {src : SockAddr}
    (hread : h.readSensor s request id id₁ src = some (true, s')) :
    ∃ n n', Controller.run Net.step (.start h) [.ask (.sensor s) request id, .deliver 0 src] =
        some (n, []) ∧
      n.step (.hear 0 (some (0, s.peer.addr)) id₁) =
        some (n', [(id, .sensor s, .reading s'.value)]) := by
  obtain ⟨reply, hask, hread⟩ := Option.bind_eq_some_iff.mp hread
  obtain ⟨⟨ok, request', sent⟩, hsend, hserve⟩ := Option.bind_eq_some_iff.mp hask
  cases reply with
  | none => cases hread
  | some answer =>
    cases sent with
    | none => cases hserve
    | some bytes =>
      have hs : (Question.sensor s).send request id = some (some bytes) := by
        rw [Question.send, hsend, Option.map_some]
      refine ⟨⟨h, [bytes], [answer], [(id, .sensor s)]⟩, ⟨h, [bytes], [answer], []⟩, ?_, ?_⟩
      · refine Controller.run_cons_some.mpr ⟨⟨h, [bytes], [], [(id, .sensor s)]⟩, [], [], ?_,
          Controller.run_cons_some.mpr ⟨_, [], [], ?_, rfl, rfl⟩, rfl⟩
        · rw [Net.step, hs]
          rfl
        · have hserve : h.serve ⟨src, bytes⟩ = some (some answer) := hserve
          simp only [Net.step, List.getElem?_cons_zero, Option.bind_some, hserve, Option.map_some]
          rfl
      · simp only [Net.step, Question.learn, List.getElem?_cons_zero, Option.bind_some,
          Option.map_some]
        rw [show acpReadSensorFTS scanFloat s id id₁ (some ⟨s.peer.addr, answer⟩) =
          some (true, s') from hread]
        rfl

/-- Whatever the network does to the datagrams of any number of clients, and whatever becomes of the
daemon meanwhile: what a client learns from a datagram held of the daemon at some moment between its
request and this datagram, if no two requests have the same id. -/
theorem learnt_held {h : Host} (hv : h.Valid) {is : List NetInput} (hi : ∀ i ∈ is, i.Valid)
    (hid : ((is.filterMap NetInput.asks?).map Prod.fst).Nodup) {n n' : Net} {i : NetInput}
    {out o : List (UInt32 × Question × Learnt)}
    (hr : Controller.run Net.step (.start h) is = some (n, out)) (hs : n.step i = some (n', o))
    {id : UInt32} {qn : Question} {l : Learnt} (hm : (id, qn, l) ∈ o) :
    Controller.Since Net.step (.start h) (·.Asks id qn) (fun u => l.Holds u.host qn) is := by
  have hn := Net.history_run hv hi hr
  cases i with
  | becomes h' =>
    cases hs
    cases hm
  | ask qn' request id' =>
    obtain ⟨sent, -, hs⟩ := Option.map_eq_some_iff.mp hs
    cases hs
    cases hm
  | deliver k src =>
    obtain ⟨bytes, -, hs⟩ := Option.bind_eq_some_iff.mp hs
    obtain ⟨reply, -, hs⟩ := Option.map_eq_some_iff.mp hs
    cases hs
    cases hm
  -- the only step that tells a client something
  | hear w d id₁ =>
    obtain ⟨c, hget, hs⟩ := Option.bind_eq_some_iff.mp hs
    obtain ⟨l', hlearn, hs⟩ := Option.map_eq_some_iff.mp hs
    cases hs
    obtain ⟨l'', hl', hm⟩ := List.mem_map.mp hm
    obtain rfl : l' = some l'' := Option.mem_toList.mp hl'
    rcases List.mem_singleton.mp hm with ⟨⟩
    -- the datagram is an answer to a request, and then to that of the client
    cases hd : d.bind fun d => (n.answers[d.1]?).map fun bytes => (⟨d.2, bytes⟩ : Datagram) with
    | none =>
      rw [hd, Question.learn_none] at hlearn
      cases hlearn
    | some datagram =>
      rw [hd] at hlearn
      obtain ⟨⟨j, src⟩, -, hd⟩ := Option.bind_eq_some_iff.mp hd
      obtain ⟨bytes, hbytes, rfl⟩ := Option.map_eq_some_iff.mp hd
      obtain ⟨id', qn', x, hcarries, hsince⟩ := hn.answers bytes (List.mem_of_getElem? hbytes)
      obtain rfl : id' = c.1 := Question.learn_carries hcarries hlearn
      -- the id is that of the client's own request
      obtain rfl : qn' = c.2 := asks_unique hid hsince.exists_mem
        (hn.waiting c (List.mem_of_getElem? hget))
      exact hsince.mono fun u hu => Question.learn_holds hcarries hlearn hu.1 hu.2

/-- The last theorem for the sensor that is program 7 of another daemon. -/
theorem learnt_held_example :
    let s : SensorFTS ℚ := { exampleSensor with remote_id := 7 }
    let is : List NetInput := [.ask (.sensor s) blankRequest 12, .deliver 0 ⟨0, 0⟩]
    ∃ n n' l, Controller.run Net.step (.start exampleHost) is = some (n, []) ∧
      n.step (.hear 0 (some (0, s.peer.addr)) 0) = some (n', [(12, .sensor s, l)]) ∧
      Controller.Since Net.step (.start exampleHost) (·.Asks 12 (.sensor s))
        (fun u => l.Holds u.host (.sensor s)) is := by
  intro s is
  have hid : IsInt s.remote_id := by simp [IsInt, s]
  have hv : exampleHost.Valid := by
    intro i p hp
    obtain ⟨rfl, rfl⟩ : i = 7 ∧ p = exampleSeen := by
      simp only [exampleHost] at hp
      split_ifs at hp with hi
      cases hp
      exact ⟨hi, rfl⟩
    exact ⟨exampleSeen_inRange, rfl⟩
  rcases exampleHost.readSensor_cases s hid (hv 7) blankRequest 12 0 ⟨0, 0⟩ with ⟨p, -, hread⟩ |
    ⟨hno, -⟩
  · obtain ⟨n, n', hr, hs⟩ := exists_run_readSensor hread
    refine ⟨n, n', _, hr, hs, learnt_held hv ?_ (by decide) hr hs List.mem_cons_self⟩
    intro i hi
    simp only [List.mem_cons, List.not_mem_nil, or_false] at hi
    rcases hi with rfl | rfl
    · exact hid
    · trivial
  · exact absurd ⟨rfl, rfl, rfl, rfl⟩ (hno exampleSeen)

end Regonf
