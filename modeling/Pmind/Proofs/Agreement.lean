import Pmind.Proofs.Authentic
import Pmind.Proofs.Observer

/-!
# Where a registered node sends its readings

The broker registers a node on the port of the call that got a reply, and the node reports to the
port of the request it answered last. Nothing ties the two together: a request of an earlier call
may come after the node is registered, and a reply may be that to an earlier request. So they agree
exactly if what the node answered last, when it is registered, was the call's own request, and it
answers no other as long as it is. What a node has answered is recorded beside the mesh.
-/

namespace Pmind

open Transition HashMap

namespace Esp32Platform

/-- The request a step answers: who it is from, and on which port it wants the readings. -/
def answering (coap : CoapLite) (p : Esp32Platform) : LoopEvent → Option (Ipv6Addr × UInt16)
  | .receive src bytes sendOk =>
    if p.halted then none
    else ((LoopEvent.receive src bytes sendOk).packet coap).bind fun packet =>
      if p.reply coap packet = none then none else some (src.ip, packet.messageId)
  | .sensor _ _ => none

/-- The requests the node has answered since it started, which it does again if a report fails. -/
def answers (coap : CoapLite) (json : SerdeJson) (p : Esp32Platform)
    (answered : List (Ipv6Addr × UInt16)) (e : LoopEvent) : List (Ipv6Addr × UInt16) :=
  match e with
  | .sensor reading sendOk =>
    -- while nobody observes it nothing is reported, and it has answered nothing either
    if p.halted = false ∧ ¬ ReportOk json reading sendOk then [] else answered
  | .receive .. => answered ++ (p.answering coap e).toList

/-- A report succeeds, and a request that is answered is from `a`. -/
def Keeps (coap : CoapLite) (json : SerdeJson) (p : Esp32Platform) (a : Ipv6Addr × UInt16)
    (e : LoopEvent) : Prop :=
  match e with
  | .sensor reading sendOk => p.halted = false → ReportOk json reading sendOk
  | .receive .. => ∀ a' ∈ p.answering coap e, a' = a

instance (coap : CoapLite) (json : SerdeJson) (p : Esp32Platform) (a : Ipv6Addr × UInt16) :
    (e : LoopEvent) → Decidable (p.Keeps coap json a e)
  | .sensor reading sendOk => inferInstanceAs (Decidable (_ → ReportOk json reading sendOk))
  | .receive src bytes sendOk =>
    inferInstanceAs (Decidable (∀ a' ∈ p.answering coap (.receive src bytes sendOk), a' = a))

variable {coap : CoapLite} {json : SerdeJson} {p p' : Esp32Platform} {e : LoopEvent}

theorem Step.ip_eq (h : Step coap json p e p') : p'.ip = p.ip := by
  cases h <;> rfl

/-- The observer is from the request answered last. -/
theorem Step.observer_answers {answered : List (Ipv6Addr × UInt16)} (h : Step coap json p e p')
    (ho : p.observerAddr = answered.getLast?) :
    p'.observerAddr = (p.answers coap json answered e).getLast? := by
  cases h with
  | @halted e h => cases e <;> simp [answers, answering, h, ho]
  | @reported reading sendOk h hr =>
    by_cases hok : ReportOk json reading sendOk
    · simp [answers, hok, ho]
    · have hnone : p.observerAddr = none := hr.resolve_right hok
      simp [answers, h, hok, hnone]
  | @reset reading sendOk h hr =>
    have hok : ¬ ReportOk json reading sendOk := fun hok => hr (Or.inr hok)
    simp [answers, h, hok, Esp32Platform.reset]
  | observed h hp hr => simp [answers, answering, h, hp, hr]
  | unanswered h hp hr => simp [answers, answering, h, hp, hr, Esp32Platform.halt, ho]
  | ignored h hp => simp [answers, answering, hp, ho]
  | notSent h hp => simp [answers, answering, hp, Esp32Platform.halt, ho]

theorem Step.keeps_iff {a : Ipv6Addr × UInt16} (h : Step coap json p e p')
    (ha : p.observerAddr = some a) : p'.observerAddr = some a ↔ p.Keeps coap json a e := by
  cases h with
  | @halted e h => cases e <;> simp [Keeps, answering, h, ha]
  | @reported reading sendOk h hr =>
    have hok : ReportOk json reading sendOk := hr.resolve_left (by simp [ha])
    simp [Keeps, ha, hok]
  | @reset reading sendOk h hr =>
    have hok : ¬ ReportOk json reading sendOk := fun hok => hr (Or.inr hok)
    simp [Keeps, h, hok, Esp32Platform.reset]
  | observed h hp hr => simp [Keeps, answering, h, hp, hr]
  | unanswered h hp hr => simp [Keeps, answering, hp, hr, Esp32Platform.halt, ha]
  | ignored h hp => simp [Keeps, answering, hp, ha]
  | notSent h hp => simp [Keeps, answering, hp, Esp32Platform.halt, ha]

end Esp32Platform

namespace Mesh

variable {coap : CoapLite} {json : SerdeJson}

theorem nodes_broker {s s' : Mesh} {e : PollEvent} (h : step coap json s (.broker e) = some s') :
    s'.nodes = s.nodes := by
  unfold step at h
  split_ifs at h
  obtain ⟨poll, -, rfl⟩ := Option.map_eq_some_iff.mp h
  rfl

theorem step_node {s s' : Mesh} {i : ℕ} {e : LoopEvent}
    (h : step coap json s (.node i e) = some s') :
    s'.poll = s.poll ∧ ∃ node node', s.nodes[i]? = some node
      ∧ Esp32Platform.Step coap json node e node' ∧ s'.nodes = s.nodes.set i node' := by
  unfold step at h
  split_ifs at h
  obtain ⟨node, hn, rfl⟩ := Option.map_eq_some_iff.mp h
  exact ⟨rfl, node, _, hn, Esp32Platform.step_loop node e, rfl⟩

theorem step_stray {s s' : Mesh} {d : Datagram} (h : step coap json s (.stray d) = some s') :
    s'.poll = s.poll ∧ s'.nodes = s.nodes := by
  unfold step at h
  split_ifs at h
  cases h
  exact ⟨rfl, rfl⟩

end Mesh

/-- The mesh, the address each port was registered with last, which is its receive task's, and the
requests each node has answered since it last started. -/
structure Wiring where
  mesh : Mesh
  listens : NodeRcvPort → Option SocketAddrV6
  answered : ℕ → List (Ipv6Addr × UInt16)

namespace Wiring

/-- The nodes have just started. -/
def init (otClient : OtClient) (nodes : List Esp32Platform) : Wiring :=
  ⟨Mesh.init otClient (nodes.map Esp32Platform.reset), fun _ => none, fun _ => []⟩

/-- The call whose node a step registers. -/
def registering (s : Mesh) : MeshEvent → Option Call
  | .broker .registerNode =>
    match s.poll.pc with
    | .registerNode call _ => some call
    | _ => none
  | _ => none

def step (coap : CoapLite) (json : SerdeJson) (s : Wiring) (e : MeshEvent) : Option Wiring :=
  (s.mesh.step coap json e).map fun mesh =>
    { mesh
      listens := match registering s.mesh e with
        | some call => Function.update s.listens call.port (some call.addr)
        | none => s.listens
      answered := match e with
        | .node i e => (s.mesh.nodes[i]?).elim s.answered fun node =>
          Function.update s.answered i (node.answers coap json (s.answered i) e)
        | _ => s.answered }

variable {coap : CoapLite} {json : SerdeJson}

/-- A registered node reports to the address its port's receive task is created for. -/
def PortAgreement (s : Wiring) : Prop :=
  ∀ p n, s.mesh.poll.monitor.nodes.lookup p = some n → ∀ node ∈ s.mesh.nodes, node.ip = n.ip →
    ∃ a ∈ s.listens p, node.observerAddr = some (a.ip, p)

/-- A step of a registered node keeps what it reports to. -/
def Kept (coap : CoapLite) (json : SerdeJson) (s : Wiring) : MeshEvent → Prop
  | .node i e => ∀ node ∈ s.mesh.nodes[i]?, ∀ p n, s.mesh.poll.monitor.nodes.lookup p = some n →
    n.ip = node.ip → ∀ a ∈ s.listens p, node.Keeps coap json (a.ip, p) e
  | _ => True

/-- What a node that is being registered answered last, since it last started, is a request from the
call's port, and one that is registered answers only such requests. -/
def Agrees (coap : CoapLite) (json : SerdeJson) (s : Wiring) (e : MeshEvent) : Prop :=
  (∀ call ∈ registering s.mesh e, ∀ i < s.mesh.nodes.length, ∀ node ∈ s.mesh.nodes[i]?,
    node.ip = call.ip → (s.answered i).getLast? = some (call.omrAddr, call.port))
    ∧ Kept coap json s e

instance (s : Wiring) : Decidable s.PortAgreement :=
  inferInstanceAs (Decidable (∀ p n, s.mesh.poll.monitor.nodes.lookup p = some n →
    ∀ node ∈ s.mesh.nodes, node.ip = n.ip →
      ∃ a ∈ s.listens p, node.observerAddr = some (a.ip, p)))

instance (s : Wiring) : (e : MeshEvent) → Decidable (Kept coap json s e)
  | .node i e => inferInstanceAs (Decidable (∀ node ∈ s.mesh.nodes[i]?, ∀ p n,
      s.mesh.poll.monitor.nodes.lookup p = some n → n.ip = node.ip →
        ∀ a ∈ s.listens p, node.Keeps coap json (a.ip, p) e))
  | .broker _ | .stray _ => inferInstanceAs (Decidable True)

instance (s : Wiring) (e : MeshEvent) : Decidable (Agrees coap json s e) :=
  inferInstanceAs (Decidable (_ ∧ Kept coap json s e))

/-- Each node reports to who sent the request it answered last. -/
def Recorded (s : Wiring) : Prop :=
  ∀ i node, s.mesh.nodes[i]? = some node → node.observerAddr = (s.answered i).getLast?

theorem step_some {s s' : Wiring} {e : MeshEvent} (h : step coap json s e = some s') :
    s.mesh.step coap json e = some s'.mesh ∧ s'.listens = match registering s.mesh e with
      | some call => Function.update s.listens call.port (some call.addr)
      | none => s.listens := by
  obtain ⟨mesh, hm, rfl⟩ := Option.map_eq_some_iff.mp h
  exact ⟨hm, rfl⟩

theorem recorded_init (c : OtClient) (nodes : List Esp32Platform) : Recorded (init c nodes) := by
  intro i node hnode
  obtain ⟨p, -, rfl⟩ := List.mem_map.mp (List.mem_of_getElem? hnode)
  rfl

theorem recorded_node {s s' : Wiring} {i : ℕ} {e : LoopEvent} (h : s.Recorded)
    (hs : step coap json s (.node i e) = some s') : s'.Recorded := by
  obtain ⟨mesh, hm, rfl⟩ := Option.map_eq_some_iff.mp hs
  obtain ⟨-, node, node', hnode, hstep, hnodes⟩ := Mesh.step_node hm
  intro j x hx
  simp only [hnodes, List.getElem?_set, hnode, Option.elim_some] at hx ⊢
  by_cases hj : i = j
  · subst hj
    have hlt := (List.getElem?_eq_some_iff.mp hnode).1
    rw [if_pos rfl, if_pos hlt, Option.some.injEq] at hx
    rw [Function.update_self, ← hx]
    exact hstep.observer_answers (h i node hnode)
  · rw [if_neg hj] at hx
    rw [Function.update_of_ne (Ne.symm hj)]
    exact h j x hx

theorem recorded_step {s s' : Wiring} {e : MeshEvent} (h : s.Recorded)
    (hs : step coap json s e = some s') : s'.Recorded := by
  rcases e with e | ⟨i, e⟩ | d
  · obtain ⟨mesh, hm, rfl⟩ := Option.map_eq_some_iff.mp hs
    intro i node hnode
    rw [Mesh.nodes_broker hm] at hnode
    exact h i node hnode
  · exact recorded_node h hs
  · obtain ⟨mesh, hm, rfl⟩ := Option.map_eq_some_iff.mp hs
    intro i node hnode
    rw [(Mesh.step_stray hm).2] at hnode
    exact h i node hnode

/-- What the nodes at an address answered last is who they report to. -/
theorem Recorded.last_iff {s : Wiring} (h : s.Recorded) (ip : Ipv6Addr)
    (a : Ipv6Addr × UInt16) :
    (∀ i < s.mesh.nodes.length, ∀ node ∈ s.mesh.nodes[i]?, node.ip = ip →
        (s.answered i).getLast? = some a)
      ↔ ∀ node ∈ s.mesh.nodes, node.ip = ip → node.observerAddr = some a := by
  constructor
  · intro hlast node hnode hip
    obtain ⟨i, hi⟩ := List.getElem?_of_mem hnode
    rw [h i node hi]
    exact hlast i (List.getElem?_eq_some_iff.mp hi).1 node hi hip
  · intro hobs i _ node hnode hip
    rw [← h i node hnode]
    exact hobs node (List.mem_of_getElem? hnode) hip

theorem agreement_registerNode {s s' : Wiring} (hrec : s.Recorded) (h : s.PortAgreement)
    (hs : step coap json s (.broker .registerNode) = some s') :
    s'.PortAgreement ↔ Agrees coap json s (.broker .registerNode) := by
  obtain ⟨hm, hlistens⟩ := step_some hs
  obtain ⟨call, answer, hpc, hmon⟩ := Poll.step_registerNode (Mesh.step_broker hm)
  have hcall : registering s.mesh (.broker .registerNode) = some call := by
    simp only [registering, hpc]
  rw [hcall] at hlistens
  simp only [PortAgreement, Agrees, Kept, Mesh.nodes_broker hm, hmon, hlistens, hcall, and_true,
    Option.mem_some, forall_eq', OtMonitor.registerNode, lookup_insert_eq]
  rw [hrec.last_iff]
  refine ⟨?_, ?_⟩
  · intro h' node hnode hip
    obtain ⟨a, ha, hobs⟩ := h' call.port _ (if_pos rfl) node hnode hip
    rw [Function.update_self, Option.mem_some_iff] at ha
    rw [hobs, ← ha]
    rfl
  · intro h' p n hn node hnode hip
    split_ifs at hn with hp
    · simp only [Option.some.injEq] at hn
      subst hp hn
      exact ⟨call.addr, Function.update_self .., h' node hnode hip⟩
    · rw [Function.update_of_ne hp]
      exact h p n hn node hnode hip

theorem agreement_broker {s s' : Wiring} {e : PollEvent} (he : e ≠ .registerNode)
    (h : s.PortAgreement) (hs : step coap json s (.broker e) = some s') :
    s'.PortAgreement ∧ Agrees coap json s (.broker e) := by
  obtain ⟨hm, hlistens⟩ := step_some hs
  have hnone : registering s.mesh (.broker e) = none := by
    unfold registering
    split
    · rename_i heq
      cases heq
      exact absurd rfl he
    · rfl
  rw [hnone] at hlistens
  refine ⟨fun p n hn node hnode hip => ?_, fun call hcall => ?_, trivial⟩
  · rw [hlistens]
    rw [Mesh.nodes_broker hm] at hnode
    exact h p n (Poll.lookup_of_step (Mesh.step_broker hm) he hn) node hnode hip
  · rw [hnone] at hcall
    cases hcall

theorem agreement_node {s s' : Wiring} {i : ℕ} {e : LoopEvent} (h : s.PortAgreement)
    (hs : step coap json s (.node i e) = some s') :
    s'.PortAgreement ↔ Agrees coap json s (.node i e) := by
  obtain ⟨hm, hlistens⟩ := step_some hs
  obtain ⟨hpoll, node, node', hnode, hstep, hnodes⟩ := Mesh.step_node hm
  have hmem : node ∈ s.mesh.nodes := List.mem_of_getElem? hnode
  have hlt := (List.getElem?_eq_some_iff.mp hnode).1
  simp only [registering] at hlistens
  simp only [Agrees, Kept, registering, Option.not_mem_none, false_implies, implies_true, true_and,
    hnode, Option.mem_some, forall_eq']
  refine ⟨?_, ?_⟩
  · intro h' p n hn hip a ha
    obtain ⟨a', ha', hobs⟩ := h p n hn node hmem hip.symm
    rw [Option.mem_def.mp ha', Option.mem_some_iff] at ha
    subst ha
    rw [← hstep.keeps_iff hobs]
    obtain ⟨b, hb, hobs'⟩ := h' p n (by rw [hpoll]; exact hn) node'
      (by rw [hnodes]; exact List.mem_set hlt node') (by rw [hstep.ip_eq, hip])
    rw [hlistens, Option.mem_def.mp ha', Option.mem_some_iff] at hb
    rw [hobs', hb]
  · intro h' p n hn x hx hip
    rw [hpoll] at hn
    rw [hlistens]
    rw [hnodes] at hx
    rcases List.mem_or_eq_of_mem_set hx with hx | rfl
    · exact h p n hn x hx hip
    · have hip' : node.ip = n.ip := hstep.ip_eq ▸ hip
      obtain ⟨a, ha, hobs⟩ := h p n hn node hmem hip'
      exact ⟨a, ha, (hstep.keeps_iff hobs).mpr (h' p n hn hip'.symm a ha)⟩

theorem agreement_step {s s' : Wiring} {e : MeshEvent} (hrec : s.Recorded) (h : s.PortAgreement)
    (hs : step coap json s e = some s') : s'.PortAgreement ↔ Agrees coap json s e := by
  rcases e with e | ⟨i, e⟩ | d
  · by_cases he : e = .registerNode
    · subst he
      exact agreement_registerNode hrec h hs
    · have hbroker := agreement_broker he h hs
      exact iff_of_true hbroker.1 hbroker.2
  · exact agreement_node h hs
  · obtain ⟨hm, hlistens⟩ := step_some hs
    obtain ⟨hpoll, hnodes⟩ := Mesh.step_stray hm
    simp only [registering] at hlistens
    refine iff_of_true ?_ ⟨nofun, trivial⟩
    simp only [PortAgreement, hpoll, hnodes, hlistens]
    exact h

/-- In every run, a registered node's readings go to the port it is registered on exactly if each
node that is registered has answered the call's request last since it started, and as long as it is
registered answers only requests from that port, and its reports succeed. -/
theorem portAgreement_iff (coap : CoapLite) (json : SerdeJson) (c : OtClient)
    (nodes : List Esp32Platform) (ls : List MeshEvent) (s : Wiring)
    (h : run (step coap json) (init c nodes) ls = some s) :
    EveryState (step coap json) PortAgreement (init c nodes) ls
      ↔ EveryStep (step coap json) (Agrees coap json) (init c nodes) ls :=
  everyState_iff_everyStep (J := Recorded) (fun _ _ _ => recorded_step)
    (fun _ _ _ => agreement_step) (recorded_init c nodes)
    (fun p n hn => by simp [init, Mesh.init, Poll.init, OtMonitor.new] at hn) h

/-- The `i`th node is asked for its readings on a port. -/
def asked (i : ℕ) (port : NodeRcvPort) : MeshEvent :=
  .node i (.receive ⟨Poll.omrIp, port⟩ ((CoapLite.wire.toBytes (Poll.request port)).getD []) true)

/-- The call for the `n`th node, on `port`: it answers, and is registered. -/
def registered (n : UInt16) (port : NodeRcvPort) : List MeshEvent :=
  [.broker (.reserve (some port)), .broker (.bind true), asked (n.toNat - 1) port,
    .broker (.recv (Poll.reply port n)), .broker .registerNode, .broker .newHandler, .broker .emit]

/-- The first node does not answer in time, and its port is returned. In the next round the second
node is registered on that port, and the first on another. -/
def retriedRun : List MeshEvent :=
  let client := Poll.mesh [(0x4401, Poll.ipOf 1)]
  let client' := Poll.mesh [(0x4402, Poll.ipOf 2), (0x4401, Poll.ipOf 1)]
  [.networkStatus client, .checkNewNode client, .omrIp client, .reserve (some 1213), .bind true,
      .elapsed, .returnPort, .getNodeStatus client [], .sleep, .networkStatus client',
      .checkNewNode client', .omrIp client'].map .broker
    ++ registered 2 1213 ++ registered 1 1214

theorem portAgreement_retried :
    EveryState (step .wire Mesh.noJson) PortAgreement
      (init (Poll.mesh []) [Mesh.nodeOf 1, Mesh.nodeOf 2]) retriedRun := by
  obtain ⟨s, hs⟩ : ∃ s, run (step .wire Mesh.noJson)
      (init (Poll.mesh []) [Mesh.nodeOf 1, Mesh.nodeOf 2]) retriedRun = some s :=
    Option.isSome_iff_exists.mp (by decide +kernel)
  exact (portAgreement_iff .wire Mesh.noJson _ _ _ s hs).mpr (by decide +kernel)

/-- The first request to the first node comes only now: it reports to the second one's port. -/
theorem not_portAgreement :
    ∃ s, run (step .wire Mesh.noJson) (init (Poll.mesh []) [Mesh.nodeOf 1, Mesh.nodeOf 2])
        (retriedRun ++ [asked 0 1213]) = some s
      ∧ (∃ n, s.mesh.poll.monitor.nodes.lookup 1214 = some n ∧ n.ip = Poll.ipOf 1)
      ∧ (∃ n, s.mesh.poll.monitor.nodes.lookup 1213 = some n ∧ n.ip = Poll.ipOf 2)
      ∧ s.mesh.nodes.map Esp32Platform.observerAddr
        = [some (Poll.omrIp, 1213), some (Poll.omrIp, 1213)]
      ∧ ¬ s.PortAgreement := by
  decide +kernel

end Wiring

end Pmind
