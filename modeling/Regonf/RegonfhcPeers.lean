import Regonf.Lib.Controller
import Regonf.RegonfhcFrame

/-! The destinations of a program's requests. `recvfrom` writes the sender of a datagram over
the peer address of the sensor that is read, so the sensors keep their configured peers only
as long as no datagram from elsewhere is received. -/
namespace Regonf

variable {R : Type*}

def Request.dst : Request R → SockAddr
  | .getFTS _ dst => dst
  | .setFloat _ _ dst => dst

/-- The address that a program stores for the target of a request. -/
def Request.stored (item : RegOnfHC R) : Request R → SockAddr
  | .getFTS .sensor _ => item.sensor.peer.addr
  | .getFTS .greenLight _ => item.green_light.sensor.peer.addr
  | .setFloat n _ _ => (item.em n).em.peer.addr

/-- The two regulators store the same peers. -/
structure SamePeers (p item : RegOnfHC R) : Prop where
  sensor : item.sensor.peer = p.sensor.peer
  greenLight : item.green_light.sensor.peer = p.green_light.sensor.peer
  em : ∀ n, (item.em n).em.peer = (p.em n).em.peer

/-- The regulator stores the peers of `p`, and every request went to the one of its target. -/
structure Addressed (p : RegOnfHC R) (w : Wire R) : Prop where
  peers : SamePeers p w.item
  sent : ∀ r ∈ w.sent, r.dst = r.stored p

/-- The datagrams that the step receives come from the peers of the sensors it reads. -/
def FromPeers [BEq R] (item : RegOnfHC R) : Input R → Prop
  | .op _ => True
  | .control inp =>
    (item.state = .regInit → item.green_light.active = true →
      ∀ a, inp.green.src? = some a → a = item.green_light.sensor.peer.addr) ∧
    (item.state = .regInit ∧ (greenLightIsGreen ⟨item, []⟩ inp.green).1 = true ∨
        item.state = .regBusy →
      ∀ a, inp.snsr.src? = some a → a = item.sensor.peer.addr)

theorem readSensorFTS_peer {s : SensorFTS R} {r : Reply R}
    (hr : ∀ a, r.src? = some a → a = s.peer.addr) : (readSensorFTS s r).peer = s.peer := by
  unfold readSensorFTS
  cases ha : r.src? with
  | none => rfl
  | some a =>
    simp only [Option.getD_some]
    rw [hr a ha]

/-- The request after a received datagram goes to its sender, whoever that is. -/
theorem readSensor_twice_sent (w : Wire R) {r r' : Reply R} {a : SockAddr}
    (ha : r.src? = some a) :
    (readSensor (readSensor w r) r').sent =
      w.sent ++ [.getFTS .sensor w.item.sensor.peer.addr] ++ [.getFTS .sensor a] := by
  simp [readSensor, readSensorFTS, ha]

namespace Addressed

variable {p : RegOnfHC R} {w : Wire R}

theorem upd_same {f : RegOnfHC R → RegOnfHC R} (ha : Addressed p w)
    (hf : SamePeers w.item (f w.item)) : Addressed p (w.upd f) where
  peers := ⟨hf.sensor.trans ha.peers.sensor, hf.greenLight.trans ha.peers.greenLight,
    fun n => (hf.em n).trans (ha.peers.em n)⟩
  sent := ha.sent

theorem upd {f : RegOnfHC R → RegOnfHC R} (ha : Addressed p w)
    (hs : (f w.item).sensor.peer = w.item.sensor.peer)
    (hg : (f w.item).green_light.sensor.peer = w.item.green_light.sensor.peer)
    (hh : (f w.item).heater.em.peer = w.item.heater.em.peer)
    (hc : (f w.item).cooler.em.peer = w.item.cooler.em.peer) : Addressed p (w.upd f) := by
  refine ha.upd_same ⟨hs, hg, fun n => ?_⟩
  cases n with
  | heater => exact hh
  | cooler => exact hc

theorem concat {item : RegOnfHC R} {r : Request R} (ha : Addressed p w)
    (hp : SamePeers p item) (hr : r.dst = r.stored w.item) :
    Addressed p ⟨item, w.sent ++ [r]⟩ where
  peers := hp
  sent := by
    intro q hq
    rcases List.mem_append.mp hq with hq | hq
    · exact ha.sent q hq
    rw [List.mem_singleton.mp hq, hr]
    cases r with
    | getFTS s _ =>
      cases s with
      | sensor => exact congrArg Peer.addr ha.peers.sensor
      | greenLight => exact congrArg Peer.addr ha.peers.greenLight
    | setFloat n _ _ => exact congrArg Peer.addr (ha.peers.em n)

theorem controlEM (ha : Addressed p w) (n : EMName) (v : R) : Addressed p (controlEM w n v) := by
  obtain ⟨hs, -, -, -, hg, -⟩ := controlEM_frame w n v
  have hp : SamePeers p (Regonf.controlEM w n v).item :=
    ⟨by rw [hs, ha.peers.sensor], by rw [hg, ha.peers.greenLight],
      fun m => (controlEM_em_frame w n m v).2.2.2.1.trans (ha.peers.em m)⟩
  cases hu : (w.item.em n).use with
  | false => rwa [controlEM_of_not_use hu]
  | true =>
    rw [controlEM_of_use hu] at hp ⊢
    exact ha.concat hp rfl

theorem readSensor (ha : Addressed p w) {r : Reply R}
    (hr : ∀ a, r.src? = some a → a = w.item.sensor.peer.addr) :
    Addressed p (readSensor w r) :=
  ha.concat ⟨(readSensorFTS_peer hr).trans ha.peers.sensor, ha.peers.greenLight,
    fun n => (by cases n <;> rfl : _ = (w.item.em n).em.peer).trans (ha.peers.em n)⟩ rfl

theorem greenLight [BEq R] (ha : Addressed p w) {r : Reply R}
    (hr : w.item.green_light.active = true →
      ∀ a, r.src? = some a → a = w.item.green_light.sensor.peer.addr) :
    Addressed p (greenLightIsGreen w r).2 := by
  unfold greenLightIsGreen
  dsimp only
  split
  case isTrue hact =>
    exact ha.concat ⟨ha.peers.sensor,
      (readSensorFTS_peer (hr hact)).trans ha.peers.greenLight,
      fun n => (by cases n <;> rfl : _ = (w.item.em n).em.peer).trans (ha.peers.em n)⟩ rfl
  case isFalse => exact ha

section control
variable [Zero R]

theorem failed (ha : Addressed p w) : Addressed p (busyFailed w) := by
  unfold busyFailed
  dsimp only
  split_ifs
  · exact ((ha.controlEM .heater 0).controlEM .cooler 0).upd rfl rfl rfl rfl
  · exact ha.upd rfl rfl rfl rfl

theorem op (ha : Addressed p w) (o : Op R) : Addressed p (applyOp w o) := by
  cases o with
  | setEMMode v =>
    simp only [applyOp, regonfhcSetEMMode]
    refine Addressed.upd ?_ rfl rfl rfl rfl
    split_ifs
    · exact (ha.controlEM .heater 0).upd rfl rfl rfl rfl
    · exact (ha.controlEM .cooler 0).upd rfl rfl rfl rfl
    · exact ha.upd rfl rfl rfl rfl
    · exact ((ha.controlEM .heater 0).controlEM .cooler 0).upd rfl rfl rfl rfl
  | setHeaterPower v =>
    rw [applyOp, regonfhcSetHeaterPower]
    exact (ha.controlEM .heater v).upd rfl rfl rfl rfl
  | setCoolerPower v =>
    rw [applyOp, regonfhcSetCoolerPower]
    exact (ha.controlEM .cooler v).upd rfl rfl rfl rfl
  | turnOff =>
    rw [applyOp, regonfhcTurnOff]
    exact ((ha.upd rfl rfl rfl rfl).controlEM .cooler 0).controlEM .heater 0
  | _ =>
    rw [applyOp]
    exact ha.upd rfl rfl rfl rfl

variable [LT R] [DecidableLT R]

theorem initDone (ha : Addressed p w) : Addressed p (controlInitDone w) := by
  have hr : Addressed p (initReset w) := by
    unfold initReset
    exact (((ha.upd rfl rfl rfl rfl).controlEM .heater 0).controlEM .cooler 0).upd rfl rfl rfl rfl
  unfold controlInitDone
  dsimp only
  split
  · exact hr.upd rfl rfl rfl rfl
  · exact hr.upd rfl rfl rfl rfl

variable [Add R] [Sub R]

theorem change (ha : Addressed p w) (n : EMName) (inp : ControlInput R) :
    Addressed p (busyChange w n inp) := by
  rcases busyChange_cases w n inp with ⟨-, -, -, he⟩ | ⟨-, -, -, he⟩ | ⟨-, he⟩ <;> rw [he]
  · exact (ha.upd rfl rfl rfl rfl).controlEM _ _
  · exact ha.upd rfl rfl rfl rfl
  · exact ha.upd rfl rfl rfl rfl

theorem drive (ha : Addressed p w) (m : EMName) : Addressed p (busyDrive w m) := by
  have hf : SamePeers w.item (busyOnf w.item m) :=
    ⟨by simp, by simp, fun n => by rw [busyOnf_em]⟩
  exact ((ha.upd_same hf).controlEM m _).controlEM m.other 0

variable [BEq R]

theorem control {inp : ControlInput R} {w' : Wire R} {item : RegOnfHC R}
    (ha : Addressed p ⟨item, []⟩) (hf : FromPeers item (.control inp))
    (hw : regonfhcControl ⟨item, []⟩ inp = some w') : Addressed p w' := by
  obtain ⟨hgreen, hsnsr⟩ := hf
  unfold regonfhcControl at hw
  split at hw
  case h_1 hst =>
    cases hw
    -- `REG_INIT` reads up to two sensors, the second only when the light is green
    have hg := ha.greenLight (hgreen hst)
    unfold controlInit
    dsimp only
    cases hok : (greenLightIsGreen ⟨item, []⟩ inp.green).1 with
    | false => exact hg
    | true =>
      have hr := hg.readSensor (r := inp.snsr) fun a ha' => by
        rw [greenLightIsGreen_item]
        exact hsnsr (Or.inl ⟨hst, hok⟩) a ha'
      simp only [Bool.not_true, Bool.false_eq_true, ↓reduceIte]
      split_ifs
      · exact hr
      · exact hr.initDone
  case h_2 hst =>
    -- `REG_BUSY` reads the main sensor and then commands
    have hr := ha.readSensor (hsnsr (Or.inr hst))
    unfold controlBusy at hw
    dsimp only at hw
    split_ifs at hw
    · unfold busyRegulate at hw
      split at hw
      · contradiction
      · cases hw
        unfold busySecure
        exact (((hr.upd rfl rfl rfl rfl).change _ inp).drive _).upd rfl rfl rfl rfl
    · cases hw
      exact hr.failed
  case h_3 =>
    cases hw
    unfold controlSecure
    exact ((ha.controlEM .heater _).controlEM .cooler _).upd rfl rfl rfl rfl
  case h_4 =>
    cases hw
    unfold controlDisable
    exact ((ha.controlEM .heater 0).controlEM .cooler 0).upd rfl rfl rfl rfl
  case h_5 => cases hw; exact ha
  case h_6 => cases hw; exact ha.upd rfl rfl rfl rfl

end control

end Addressed

variable [Zero R] [Add R] [Sub R] [LT R] [DecidableLT R] [BEq R]

theorem step_peers {p item item' : RegOnfHC R} {i : Input R} {out : List (Request R)}
    (hp : SamePeers p item) (hf : FromPeers item i) (hs : step item i = some (item', out)) :
    Addressed p ⟨item', out⟩ := by
  have ha : Addressed p ⟨item, []⟩ := ⟨hp, fun _ hr => absurd hr List.not_mem_nil⟩
  cases i with
  | control inp =>
    rw [step, Option.map_eq_some_iff] at hs
    obtain ⟨w, hw, he⟩ := hs
    cases he
    exact ha.control hf hw
  | op o =>
    cases hs
    exact ha.op o

/-- In a run whose sensor datagrams all come from the peer of the sensor that is read, every
request goes to the address stored for its target at the start. -/
theorem requests_to_stored_peers {item t : RegOnfHC R} {out : List (Request R)}
    {is : List (Input R)}
    (hf : Controller.Along step (fun s _ i => FromPeers s i) item [] is)
    (hr : Controller.run step item is = some (t, out)) :
    ∀ r ∈ out, r.dst = r.stored item := by
  have hi := Controller.run_invariant_along (I := fun s h => Addressed item ⟨s, h⟩)
    (fun s h i s' o hi hf hs => ?_) ⟨⟨rfl, rfl, fun _ => rfl⟩, by simp⟩ hf hr
  · exact hi.sent
  · obtain ⟨hp, ho⟩ := step_peers hi.peers hf hs
    exact ⟨hp, fun r hr => (List.mem_append.mp hr).elim (hi.sent r) (ho r)⟩

/-- The last theorem on a run with two values from the configured peer. -/
theorem requests_to_stored_peers_example :
    let is := [exampleControl 0 (some 240), exampleControl 1 (some 240)]
    ∃ t out, Controller.run step exampleProg is = some (t, out) ∧ out.length = 6 ∧
      ∀ r ∈ out, r.dst = r.stored exampleProg := by
  intro is
  have hr : Controller.run step exampleProg is = some (_, _) := rfl
  have hf : Controller.Along step (fun s _ i => FromPeers s i) exampleProg [] is := by
    refine Controller.along_cons rfl ⟨fun _ h => absurd h (by decide), fun _ a ha => ?_⟩ ?_
    · cases ha
      rfl
    · refine Controller.along_cons rfl ⟨fun h => absurd h (by decide), fun _ a ha => ?_⟩ trivial
      cases ha
      rfl
  exact ⟨_, _, hr, rfl, requests_to_stored_peers hf hr⟩

/-- One refused datagram from elsewhere, and the next request goes to its sender. -/
theorem foreign_datagram_redirects :
    let foreign : SockAddr := ⟨0xc0000201, 4000⟩
    let now : Timespec := ⟨1, 0⟩
    let is := [exampleControl 0 (some 240),
      .control ⟨.timeout, .refused foreign, now, now, now, now⟩, exampleControl 2 none]
    Loaded exampleProg ∧ ∃ t out, Controller.run step exampleProg is = some (t, out) ∧
      .getFTS .sensor foreign ∈ out ∧ ¬∀ r ∈ out, r.dst = r.stored exampleProg := by
  intro foreign now is
  obtain ⟨t, out, hr, hm⟩ : ∃ t out, Controller.run step exampleProg is = some (t, out) ∧
      .getFTS .sensor foreign ∈ out := ⟨_, _, rfl, by decide⟩
  exact ⟨exampleProg_loaded, t, out, hr, hm, fun h => absurd (h _ hm) (by decide)⟩

end Regonf
