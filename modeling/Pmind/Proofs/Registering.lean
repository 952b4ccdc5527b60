import Pmind.Proofs.Poll

/-!
# Rounds in which every node answers

A call whose request goes out, and which is answered with a CoAP message of six bytes of payload or
more, registers its node on the port it was handed. So as many new nodes as there are free ports
can be registered in one round, on the free ports in any order, and the pool is then empty.
-/

namespace Pmind

namespace Poll

open Transition HashMap

def registerOn (p : NodeRcvPort) (d : Received) : List PollEvent :=
  [.reserve (some p), .bind true, .recv d, .registerNode, .newHandler, .emit]

section Registering

variable {coap : CoapLite}

structure Answers (coap : CoapLite) (p : NodeRcvPort) (d : Received) : Prop where
  toBytes : coap.toBytes (request p) ≠ none
  fromBytes : ∃ packet, coap.fromBytes (d.bytes.take bufferSize) = some packet
    ∧ 6 ≤ packet.payload.length
  nonempty : d.bytes ≠ []

theorem recv_of_answers {p : NodeRcvPort} {d : Received} (h : Answers coap p d) (call : Call)
    (rcvd : List Received) : ∃ answer, recv coap call rcvd d = .registerNode call answer := by
  obtain ⟨packet, hp, hlen⟩ := h.fromBytes
  have hne : d.bytes.take bufferSize ≠ [] := by
    simp [h.nonempty, bufferSize]
  refine ⟨⟨euiOf packet.payload, packet.payload.drop 6,
    rcvd ++ [{ d with bytes := d.bytes.take bufferSize }]⟩, ?_⟩
  simp only [recv, hne, if_false, hp, hlen, if_true]

theorem run_registerOn {m : OtMonitor} (omrAddr : Ipv6Addr) (i : ℕ) (node : Rloc × Ipv6Addr)
    (rest : List (Rloc × Ipv6Addr)) {p : NodeRcvPort} {d : Received} (hp : p ∈ m.ports.ports)
    (hd : Answers coap p d) :
    ∃ eui, run (step coap) ⟨m, next omrAddr i (node :: rest)⟩ (registerOn p d)
      = some ⟨OtMonitor.registerNode
            { m with ports := { m.ports with ports := m.ports.ports.erase p } }
            ⟨node.1, node.2, p, eui⟩,
          next omrAddr (i + 1) rest⟩ := by
  obtain ⟨rloc, ip⟩ := node
  obtain ⟨answer, ha⟩ := recv_of_answers hd ⟨omrAddr, rloc, ip, p, i, rest⟩ []
  obtain ⟨bytes, hb⟩ := Option.ne_none_iff_exists'.mp hd.toBytes
  have htop : IterNext m.ports.ports (some p) := hp
  exact ⟨answer.eui, by
    simp only [registerOn, next, run, step, htop, if_true, OtMonitor.getFreePort_some hp, hb, ha,
      Option.bind_some]⟩

/-- Nodes answering one after another are registered on the ports they are handed, which leave
the pool. -/
theorem run_registerAll (omrAddr : Ipv6Addr) :
    ∀ (nodes : List (Rloc × Ipv6Addr)) (ds : List (NodeRcvPort × Received)) (i : ℕ)
      (m : OtMonitor), nodes.length = ds.length → (ds.map Prod.fst).Nodup →
      (∀ d ∈ ds, d.1 ∈ m.ports.ports ∧ Answers coap d.1 d.2) →
      ∃ m', run (step coap) ⟨m, next omrAddr i nodes⟩ (ds.flatMap fun d => registerOn d.1 d.2)
            = some ⟨m', .getNodeStatus⟩
        ∧ (∀ p, p ∈ m'.ports.ports ↔ p ∈ m.ports.ports ∧ p ∉ ds.map Prod.fst)
        ∧ (∀ p, p ∈ m'.nodes ↔ p ∈ m.nodes ∨ p ∈ ds.map Prod.fst)
        ∧ (∀ q, Holds InternalRegistration.pair m'.nodes q →
            Holds InternalRegistration.pair m.nodes q ∨ q ∈ nodes)
        ∧ m'.addr = m.addr
  | [], [], i, m, _, _, _ => by simp [next]
  | node :: nodes, (p, d) :: ds, i, m, hlen, hnd, hds => by
    simp only [List.map_cons, List.nodup_cons] at hnd
    obtain ⟨hp, hd⟩ := hds _ List.mem_cons_self
    obtain ⟨eui, hrun⟩ := run_registerOn omrAddr i node nodes hp hd
    set m₁ : OtMonitor := OtMonitor.registerNode
      { m with ports := { m.ports with ports := m.ports.ports.erase p } }
      ⟨node.1, node.2, p, eui⟩ with hm₁
    have hfree : ∀ d ∈ ds, d.1 ∈ m₁.ports.ports ∧ Answers coap d.1 d.2 := fun e he => by
      obtain ⟨h1, h2⟩ := hds e (List.mem_cons_of_mem _ he)
      refine ⟨Finset.mem_erase.mpr ⟨?_, h1⟩, h2⟩
      rintro h
      exact hnd.1 (h ▸ List.mem_map_of_mem he)
    obtain ⟨m', hrun', hports, hnodes, hholds, haddr⟩ :=
      run_registerAll omrAddr nodes ds (i + 1) m₁ (Nat.succ.inj hlen) hnd.2 hfree
    refine ⟨m', ?_, ?_, ?_, ?_, haddr⟩
    · rw [List.flatMap_cons, run_append_some]
      exact ⟨_, hrun, hrun'⟩
    · intro q
      rw [hports, hm₁, OtMonitor.registerNode_ports, Finset.mem_erase, List.map_cons, List.mem_cons]
      tauto
    · intro q
      rw [hnodes, hm₁, OtMonitor.registerNode_nodes, Finmap.mem_insert, List.map_cons,
        List.mem_cons]
      tauto
    · intro q hq
      rcases hholds q hq with h | h
      · rcases h.of_insert with h | h
        · exact Or.inr (h ▸ List.mem_cons_self)
        · exact Or.inl h
      · exact Or.inr (List.mem_cons_of_mem _ h)

end Registering

/-! ## A mesh to run the loop on -/

def ipOf (n : UInt16) : Ipv6Addr := .new 0xfdc9 0xfdb2 0x9fe8 1 0 0 0 n

def omrIp : Ipv6Addr := .new 0xfdc9 0xfdb2 0x9fe8 1 0xd4ef 0xb05e 0x7cf7 0x6edd

def mesh (children : List (Rloc × Ipv6Addr)) : OtClient :=
  ⟨.ok children, .ok ⟨ipOf 0, 64⟩, .ok omrIp⟩

def down : OtClient := ⟨.error .io, .error .io, .error .io⟩

/-- The reply of the `n`th node to a request from `port`: its EUI, and then the name `mint`. -/
def reply (port : NodeRcvPort) (n : UInt16) : Received :=
  ⟨⟨ipOf n, 1212⟩,
    0x64 :: Packet.codeContent :: (port >>> 8).toUInt8 :: port.toUInt8 ::
      0xfa :: 0xce :: 0xbe :: 0xef :: 0xff ::
      [0x60, 0x55, 0xf9, 0xf6, (n >>> 8).toUInt8, n.toUInt8, 0x6d, 0x69, 0x6e, 0x74]⟩

/-- The events of a round in which the nodes register, each with the port and the reply given, up
to its `GetNodeStatus`. -/
def roundOf (nodes : List (Rloc × Ipv6Addr)) (ds : List (NodeRcvPort × Received)) :
    List PollEvent :=
  [.networkStatus (mesh nodes), .checkNewNode (mesh nodes), .omrIp (mesh nodes)] ++
    ds.flatMap fun d => registerOn d.1 d.2

theorem answers_reply (port : NodeRcvPort) (n : UInt16) : Answers .wire port (reply port n) where
  toBytes := by simp [CoapLite.wire]
  fromBytes := ⟨_, rfl, by simp⟩
  nonempty := by simp [reply]

end Poll

end Pmind
