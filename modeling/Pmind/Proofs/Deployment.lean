import Pmind.Deployment
import Pmind.Proofs.Agreement
import Pmind.Proofs.System

/-!
# From the sensors to the clients

What comes to a receive task was sent on the network. A CoAP message is no reading in JSON, so of
what the broker and the nodes send only the reports are read as one: without a stranger on the
network, every reading that a client is sent is what is read of a report of the node at the
reading's address. What the poll loop and the nodes do is a run of `Mesh`.
-/

namespace Pmind

open Transition

/-- `coap_lite` reads tokens of at most 8 bytes, and its responses have their request's. -/
structure Tokens (coap : CoapLite) : Prop where
  length_le : ∀ bytes packet, coap.fromBytes bytes = some packet → packet.token.length ≤ 8
  response : ∀ packet response, coap.response packet = some response →
    response.token = packet.token

/-- What the messages between the broker and the nodes are read as: neither a message nor the text
that answers what is none is a reading. -/
structure NotJson (coap : CoapLite) (json : SerdeJson) : Prop where
  tokens : Tokens coap
  message : ∀ packet bytes, packet.token.length ≤ 8 → coap.toBytes packet = some bytes →
    json.fromSlice (bytes.take bufferSize) = none
  text : json.fromSlice ("beefface authenticate!".toUTF8.toList.take bufferSize) = none

namespace Esp32Platform

variable {coap : CoapLite} {json : SerdeJson} {p : Esp32Platform}

/-- What the loop sends: a report, the reply to a message, or the answer to what is none. -/
inductive Sends (coap : CoapLite) (json : SerdeJson) (p : Esp32Platform) (e : LoopEvent)
    (d : Datagram) : Prop
  | report {r} (he : e = .sensor (some r) true) (hb : json.toVec r = some d.bytes)
    (hsrc : d.src = ⟨p.ip, boundPort⟩)
  | reply {bytes : List UInt8} {packet response : Packet} (hp : coap.fromBytes bytes = some packet)
    (hr : coap.response packet = some response)
    (hb : coap.toBytes { response with payload := p.record } = some d.bytes)
  | text (hb : d.bytes = "beefface authenticate!".toUTF8.toList)

theorem mem_report {reading : Option SensorReading} {sendOk : Bool} {d : Datagram}
    (hd : d ∈ (p.report json reading sendOk).2) : Sends coap json p (.sensor reading sendOk) d := by
  unfold report at hd
  split at hd
  · cases hd
  · rename_i r _
    split at hd
    · rename_i bytes hb
      split_ifs at hd with hok
      · rw [List.mem_singleton.mp hd]
        exact .report (by rw [hok]) hb rfl
      · cases hd
    · cases hd
  · cases hd

theorem mem_receive {src : SocketAddrV6} {bytes : List UInt8} {sendOk : Bool} {d : Datagram}
    {e : LoopEvent} (hd : d ∈ (p.receive coap src bytes sendOk).2) : Sends coap json p e d := by
  unfold receive at hd
  by_cases hempty : bytes = []
  · rw [if_pos hempty] at hd
    cases hd
  rw [if_neg hempty] at hd
  split at hd
  · rename_i packet hp
    split at hd
    · rename_i response hr
      split at hd
      · rename_i reply hreply
        split_ifs at hd
        · rw [List.mem_singleton.mp hd]
          exact .reply hp hr hreply
        · cases hd
      · cases hd
    · cases hd
  · split_ifs at hd
    · rw [List.mem_singleton.mp hd]
      exact .text rfl
    · cases hd

theorem mem_coapServerEventLoop {e : LoopEvent} {d : Datagram}
    (hd : d ∈ (p.coapServerEventLoop coap json e).2) : Sends coap json p e d := by
  unfold coapServerEventLoop at hd
  split_ifs at hd
  · cases hd
  · rcases e with ⟨reading, sendOk⟩ | ⟨src, bytes, sendOk⟩
    · exact mem_report hd
    · exact mem_receive hd

/-- A node keeps its address, its EUI and its name, whatever becomes of its observer. -/
structure Same (p p' : Esp32Platform) : Prop where
  ip : p.ip = p'.ip
  eui : p.eui = p'.eui
  plantName : p.plantName = p'.plantName

theorem Same.trans {p q r : Esp32Platform} (h : p.Same q) (h' : q.Same r) : p.Same r :=
  ⟨h.ip.trans h'.ip, h.eui.trans h'.eui, h.plantName.trans h'.plantName⟩

theorem Step.same {p' : Esp32Platform} {e : LoopEvent} (h : Step coap json p e p') :
    p.Same p' := by
  cases h <;> exact ⟨rfl, rfl, rfl⟩

end Esp32Platform

theorem Mesh.mem_requests {coap : CoapLite} {s : Poll} {e : PollEvent} {d : Datagram}
    (hd : d ∈ requests coap s e) : ∃ port, coap.toBytes (Poll.request port) = some d.bytes := by
  have hmem : ∀ call : Call, d ∈ ((coap.toBytes (Poll.request call.port)).map fun bytes =>
      (⟨call.addr, call.sendAddr, bytes⟩ : Datagram)).toList →
        ∃ port, coap.toBytes (Poll.request port) = some d.bytes := by
    intro call hd
    obtain ⟨bytes, hb, rfl⟩ := Option.map_eq_some_iff.mp (Option.mem_toList.mp hd)
    exact ⟨call.port, hb⟩
  unfold requests at hd
  split at hd
  · exact hmem _ hd
  · split_ifs at hd
    · exact hmem _ hd
    · cases hd
  · cases hd

namespace NodeEventHandler

theorem mem_sent {json : SerdeJson} {h : NodeEventHandler} {e : SocketEvent}
    {r : NodeSensorReading} (hr : .sensorReading r ∈ h.sent json e) :
    ∃ d now data, e = .received d now ∧ json.fromSlice (d.bytes.take bufferSize) = some data
      ∧ r = ⟨d.sender, { data with ts := now }⟩ := by
  unfold sent at hr
  split at hr
  · cases List.mem_singleton.mp hr
  · rename_i d now _
    split at hr
    · rename_i data hdata
      cases List.mem_singleton.mp hr
      exact ⟨d, now, data, rfl, hdata, rfl⟩
    · cases hr
  · cases List.mem_singleton.mp hr
  · cases List.mem_singleton.mp hr
  · cases hr

end NodeEventHandler

namespace Deployment

/-! ## Where a reading comes from -/

/-- The nodes are those of the beginning. -/
def Kept (nodes : List Esp32Platform) (s : Deployment) : Prop :=
  ∀ (i : ℕ) (node : Esp32Platform), s.nodes[i]? = some node →
    ∃ node' : Esp32Platform, nodes[i]? = some node' ∧ node'.Same node

/-- A report that was sent: whose it is, and what the sensors had given. -/
structure Report where
  node : ℕ
  reading : SensorReading
  datagram : Datagram

/-- The reports a step sends. -/
def reports (coap : CoapLite) (json : SerdeJson) (s : Deployment) : DeploymentEvent → List Report
  | .node i (.sensor (some r) sendOk) => (s.nodes[i]?).toList.flatMap fun node =>
    (node.coapServerEventLoop coap json (.sensor (some r) sendOk)).2.map fun d => ⟨i, r, d⟩
  | _ => []

section Genuine

variable (json : SerdeJson) (nodes : List Esp32Platform) (reps : List Report)

/-- A node at `addr` sent a reading in these bytes. -/
def Reported (addr : SocketAddrV6) (bytes : List UInt8) : Prop :=
  ∃ rep ∈ reps, (∃ node ∈ nodes[rep.node]?, addr = ⟨node.ip, boundPort⟩)
    ∧ rep.datagram.src = addr ∧ rep.datagram.bytes = bytes ∧ json.toVec rep.reading = some bytes

/-- A reading is what is read of a node's report, with the time it was handled at. -/
def Genuine (r : NodeSensorReading) : Prop :=
  ∃ bytes data now, Reported json nodes reps r.addr bytes
    ∧ json.fromSlice (bytes.take bufferSize) = some data ∧ r.data = { data with ts := now }

/-- Of what is on the network only the nodes' reports are read as readings. -/
structure Known (s : Deployment) : Prop where
  kept : Kept nodes s
  sent : ∀ d ∈ s.sent, json.fromSlice (d.bytes.take bufferSize) = none
    ∨ Reported json nodes reps d.src d.bytes

end Genuine

section Append

variable {json : SerdeJson} {nodes : List Esp32Platform} {reps : List Report}

theorem Reported.append {addr : SocketAddrV6} {bytes : List UInt8}
    (h : Reported json nodes reps addr bytes) (reps' : List Report) :
    Reported json nodes (reps ++ reps') addr bytes := by
  obtain ⟨rep, hmem, hrep⟩ := h
  exact ⟨rep, List.mem_append_left _ hmem, hrep⟩

theorem Genuine.append {r : NodeSensorReading} (h : Genuine json nodes reps r)
    (reps' : List Report) : Genuine json nodes (reps ++ reps') r := by
  obtain ⟨bytes, data, now, hr, hdata, hr'⟩ := h
  exact ⟨bytes, data, now, hr.append reps', hdata, hr'⟩

end Append

/-! ## A step -/

section Daemon

variable [Chrono] {coap : CoapLite} {json : SerdeJson} {s s' : Deployment} {e : DeploymentEvent}

inductive Step (coap : CoapLite) (json : SerdeJson) (s : Deployment) :
    DeploymentEvent → Deployment → Prop
  | system {e system} (hd : ∀ d ∈ s.delivered (.system e), d ∈ s.sent)
      (hs : s.system.step coap json e = some system) :
    Step coap json s (.system e) { s with system, sent := requests coap s.system e ++ s.sent }
  | node {i e node} (hd : ∀ d ∈ s.delivered (.node i e), d ∈ s.sent)
      (hn : s.nodes[i]? = some node) :
    Step coap json s (.node i e)
      { s with
        nodes := s.nodes.set i (node.coapServerEventLoop coap json e).1
        sent := (node.coapServerEventLoop coap json e).2 ++ s.sent }
  | stray {d} : Step coap json s (.stray d) { s with sent := d :: s.sent }

theorem Step.of_step (h : step coap json s e = some s') : Step coap json s e s' := by
  unfold step at h
  split_ifs at h with hd
  rcases e with e | ⟨i, e⟩ | d
  · obtain ⟨system, hs, rfl⟩ := Option.map_eq_some_iff.mp h
    exact .system hd hs
  · obtain ⟨node, hn, rfl⟩ := Option.map_eq_some_iff.mp h
    exact .node hd hn
  · cases h
    exact .stray

/-! ## The parts -/

def systemEvents : DeploymentEvent → List SystemEvent
  | .system e => [e]
  | _ => []

def meshEvents : DeploymentEvent → List MeshEvent
  | .system (.poll e) => [.broker e]
  | .node i e => [.node i e]
  | .stray d => [.stray d]
  | _ => []

theorem system_step (h : step coap json s e = some s') :
    run (System.step coap json) s.system (systemEvents e) = some s'.system := by
  cases Step.of_step h with
  | system _ hs => simp [systemEvents, run, hs]
  | _ => rfl

theorem mesh_step (h : step coap json s e = some s') :
    run (Mesh.step coap json) s.mesh (meshEvents e) = some s'.mesh := by
  cases Step.of_step h with
  | @system e system hd hs =>
    rcases e with e | _ | _ | _ | _ | _
    · obtain ⟨poll, hp, hs⟩ := Option.bind_eq_some_iff.mp hs
      obtain ⟨sessions, -, rfl⟩ := Option.map_eq_some_iff.mp hs
      have hm : Mesh.step coap json s.mesh (.broker e)
          = some ⟨poll, s.nodes, Mesh.requests coap s.system.poll e ++ s.sent⟩ := by
        have hd' : ∀ d ∈ s.mesh.delivered (.broker e), d ∈ s.mesh.sent := hd
        rw [Mesh.step, if_pos hd']
        exact Option.map_eq_some_iff.mpr ⟨poll, hp, rfl⟩
      simp only [meshEvents, run, hm, Option.bind_some]
      rfl
    all_goals
      have hpoll : s.system.poll = system.poll := Option.some.inj (System.poll_step hs)
      simp only [meshEvents, run_nil, mesh, requests, List.nil_append, hpoll]
  | @node i e node hd hn =>
    have hm : Mesh.step coap json s.mesh (.node i e) = some
        ⟨s.system.poll, s.nodes.set i (node.coapServerEventLoop coap json e).1,
          (node.coapServerEventLoop coap json e).2 ++ s.sent⟩ := by
      have hd' : ∀ d ∈ s.mesh.delivered (.node i e), d ∈ s.mesh.sent := hd
      rw [Mesh.step, if_pos hd']
      exact Option.map_eq_some_iff.mpr ⟨node, hn, rfl⟩
    simp only [meshEvents, run, hm, Option.bind_some]
    rfl
  | stray =>
    simp [meshEvents, run, Mesh.step, Mesh.delivered]
    rfl

/-- What the daemon gives out. -/
def ofSystem {β : Type} (out : System → SystemEvent → List β) (s : Deployment) :
    DeploymentEvent → List β
  | .system e => out s.system e
  | _ => []

section Run

variable {c : OtClient} {nodes : List Esp32Platform} {ls : List DeploymentEvent}

theorem system_run (h : run (step coap json) (init c nodes) ls = some s) :
    run (System.step coap json) (System.init c) (ls.flatMap systemEvents) = some s.system :=
  run_project (f := Deployment.system) (fun _ _ _ ht => system_step ht) h

theorem mesh_run (h : run (step coap json) (init c nodes) ls = some s) :
    run (Mesh.step coap json) (Mesh.init c nodes) (ls.flatMap meshEvents) = some s.mesh :=
  run_project (f := Deployment.mesh) (fun _ _ _ ht => mesh_step ht) h

theorem outputs_system {β : Type} (out : System → SystemEvent → List β)
    (h : run (step coap json) (init c nodes) ls = some s) :
    outputs (System.step coap json) out (System.init c) (ls.flatMap systemEvents)
      = outputs (step coap json) (ofSystem out) (init c nodes) ls := by
  have hproject : outputs (System.step coap json) out (System.init c)
        (outputs (step coap json) (fun _ => systemEvents) (init c nodes) ls)
      = outputs (step coap json) (fun t l => outputs (System.step coap json) out t.system
          (systemEvents l)) (init c nodes) ls :=
    outputs_project (P := fun _ => True) (f := Deployment.system)
      (fun _ _ _ _ ht => system_step ht) (everyState_of_forall fun _ => trivial) h
  rw [outputs_eq_flatMap h] at hproject
  refine hproject.trans (outputs_congr (fun t e t' ht => ?_) h)
  cases Step.of_step ht with
  | system _ hs => simp [systemEvents, outputs, hs, ofSystem]
  | _ => rfl

end Run

/-! ## Where the readings come from -/

theorem kept_step {nodes : List Esp32Platform} (h : Kept nodes s)
    (hs : step coap json s e = some s') : Kept nodes s' := by
  cases Step.of_step hs with
  | @node i e node _ hn =>
    intro j n hj
    rw [List.getElem?_set] at hj
    split_ifs at hj with hij
    · cases hj
      obtain ⟨node', hn', hsame⟩ := h i node hn
      exact ⟨node', hij ▸ hn', hsame.trans (Esp32Platform.step_loop node e).same⟩
    · exact h j n hj
  | _ => exact h

variable {nodes : List Esp32Platform} {reps : List Report} {ls : List DeploymentEvent}

/-- What the receive tasks send. -/
def heard (json : SerdeJson) (i : ℕ) : Deployment → DeploymentEvent → List NodeEvent :=
  ofSystem (System.heard json i)

theorem known_step (hj : NotJson coap json) (h : Known json nodes reps s)
    (he : ∀ d, e ≠ .stray d) (hs : step coap json s e = some s') :
    Known json nodes (reps ++ reports coap json s e) s' := by
  have hold : ∀ d ∈ s.sent, json.fromSlice (d.bytes.take bufferSize) = none
      ∨ Reported json nodes (reps ++ reports coap json s e) d.src d.bytes :=
    fun d hd => (h.sent d hd).imp id fun hr => hr.append _
  cases Step.of_step hs with
  | @system e =>
    refine ⟨kept_step h.kept hs, fun d hd => ?_⟩
    rcases List.mem_append.mp hd with hd | hd
    · rcases e with e | _ | _ | _ | _ | _
      · obtain ⟨port, hb⟩ := Mesh.mem_requests hd
        exact Or.inl (hj.message _ _ (by simp [Poll.request]) hb)
      all_goals cases hd
    · exact hold d hd
  | @node i e node _ hn =>
    obtain ⟨node', hn', hsame⟩ := h.kept i node hn
    refine ⟨kept_step h.kept hs, fun d hd => ?_⟩
    rcases List.mem_append.mp hd with hd | hd
    · cases Esp32Platform.mem_coapServerEventLoop hd with
      | @report r he hb hsrc =>
        subst he
        have hrep : ⟨i, r, d⟩ ∈ reports coap json s (.node i (.sensor (some r) true)) := by
          simp only [reports, hn, Option.toList_some, List.flatMap_singleton]
          exact List.mem_map.mpr ⟨d, hd, rfl⟩
        refine Or.inr ⟨_, List.mem_append_right _ hrep, ⟨node', hn', ?_⟩, rfl, rfl, hb⟩
        rw [hsrc, ← hsame.ip]
      | @reply _ packet response hp hr hb =>
        have hlen : response.token.length ≤ 8 :=
          hj.tokens.response packet response hr ▸ hj.tokens.length_le _ packet hp
        exact Or.inl (hj.message { response with payload := node.record } _ hlen hb)
      | text hb => exact Or.inl (hb ▸ hj.text)
    · exact hold d hd
  | @stray d => exact absurd rfl (he d)

/-- A reading that a receive task sends is read of a datagram that was sent to it. -/
theorem genuine_step (h : Known json nodes reps s) (hs : step coap json s e = some s') {i : ℕ}
    {r : NodeSensorReading} (hr : .sensorReading r ∈ s.heard json i e) :
    Genuine json nodes reps r := by
  cases Step.of_step hs with
  | @system e system hd =>
    rcases e with _ | ⟨j, e⟩ | _ | _ | _ | _
    case socket =>
      simp only [heard, ofSystem, System.heard, Sessions.sentBy] at hr
      split_ifs at hr
      · rcases hh : s.system.sessions.handlers[j]? with _ | handler
        · rw [hh] at hr
          cases hr
        · rw [hh] at hr
          obtain ⟨d, now, data, rfl, hdata, rfl⟩ := NodeEventHandler.mem_sent hr
          have hsent := hd ⟨d.sender, handler.addr, d.bytes⟩ (by simp [delivered, hh])
          rcases h.sent _ hsent with hnone | hrep
          · rw [hdata] at hnone
            cases hnone
          · exact ⟨d.bytes, data, now, hrep, hdata, rfl⟩
      · cases hr
    all_goals cases hr
  | _ => cases hr

/-- The reports that were sent in a run. -/
def reported (coap : CoapLite) (json : SerdeJson) (c : OtClient) (nodes : List Esp32Platform)
    (ls : List DeploymentEvent) : List Report :=
  outputs (step coap json) (reports coap json) (init c nodes) ls

theorem genuine_run (hj : NotJson coap json) {c : OtClient}
    (h : run (step coap json) (init c nodes) ls = some s) (hstray : ∀ d, .stray d ∉ ls) (i : ℕ) :
    ∀ r, .sensorReading r ∈ outputs (step coap json) (heard json i) (init c nodes) ls →
      Genuine json nodes (reported coap json c nodes ls) r := by
  refine (run_induct (Q := fun ls s => (∀ d, .stray d ∉ ls) →
    Known json nodes (reported coap json c nodes ls) s
      ∧ ∀ r, .sensorReading r ∈ outputs (step coap json) (heard json i) (init c nodes) ls →
        Genuine json nodes (reported coap json c nodes ls) r) ?_ ?_ h hstray).2
  · exact fun _ => ⟨⟨fun j n hn => ⟨n, hn, rfl, rfl, rfl⟩, fun d hd => absurd hd List.not_mem_nil⟩,
      fun r hr => absurd hr List.not_mem_nil⟩
  · intro ls t e t' ht ih hs hls
    obtain ⟨hknown, hgenuine⟩ := ih fun d hd => hls d (List.mem_append_left _ hd)
    have hreported : reported coap json c nodes (ls ++ [e])
        = reported coap json c nodes ls ++ reports coap json t e := outputs_concat ht
    rw [hreported]
    refine ⟨known_step hj hknown ?_ hs, fun r hr => ?_⟩
    · rintro d rfl
      exact hls d (by simp)
    · rw [outputs_concat ht] at hr
      rcases List.mem_append.mp hr with hr | hr
      · exact (hgenuine r hr).append _
      · exact (genuine_step hknown hs hr).append _

end Daemon

theorem wire_head {packet : Packet} (h : packet.token.length ≤ 8) :
    0x40 + packet.mtype.bits + UInt8.ofNat packet.token.length ≠ 0x7b := by
  have hall : ∀ mtype : MessageType, ∀ n ≤ 8, 0x40 + mtype.bits + UInt8.ofNat n ≠ 0x7b := by
    intro mtype
    cases mtype <;> decide
  exact hall packet.mtype packet.token.length h

theorem tokens_wire : Tokens .wire where
  length_le bytes packet h := by
    simp only [CoapLite.wire] at h
    split at h
    · split_ifs at h
      cases h
      simp
    · cases h
      simp
    · cases h
  response := by
    rintro ⟨mtype⟩ response h
    cases mtype <;> cases h <;> rfl

theorem notJson_wire : NotJson .wire Sessions.reportJson where
  tokens := tokens_wire
  message packet bytes hlen h := by
    simp only [CoapLite.wire, Option.some.injEq] at h
    subst h
    have hhead : Sessions.report.head? = some 0x7b := by decide +kernel
    refine if_neg fun hreport => wire_head hlen ?_
    rw [← hreport] at hhead
    exact Option.some.inj hhead
  text := by decide +kernel

/-- The node is asked, answers and reports, and its reading is stored. -/
def deployedRun : List DeploymentEvent :=
  let asked : LoopEvent :=
    .receive ⟨Poll.omrIp, 1213⟩ ((CoapLite.wire.toBytes (Poll.request 1213)).getD []) true
  (System.registeredRun.take 9).map .system ++ [.node 0 asked]
    ++ (System.registeredRun.drop 9).map .system
    ++ [.node 0 (.sensor (some ⟨⟨250, 21⟩, none, none, 0⟩) true)]
    ++ [.broker .forwardStream, .broker (.incoming System.toBoth), .socket 0 (.bind true),
      .socket 0 (.received ⟨⟨Poll.ipOf 1, boundPort⟩, Sessions.report⟩ 7),
      .broker .forwardRegistration, .broker (.incoming System.toBoth), .broker (.process 0),
      .broker (.data System.toBoth), .database .registryTask, .database (.handle none),
      .database .sensorStreamTask, .database (.handle (some (CreateOrModify.newPlant
        ⟨.of 0x60 0x55 0xf9 0xf6 0 1, Poll.ipOf 1, "mint"⟩)))].map .system

theorem stray_deployedRun (d : Datagram) : .stray d ∉ deployedRun := by
  simp [deployedRun, -List.map_take, -List.map_drop]

open Chrono

end Deployment

end Pmind
