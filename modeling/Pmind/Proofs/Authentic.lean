import Pmind.Mesh
import Pmind.Proofs.Registering

/-!
# Where a registration comes from

A call takes the first datagram on its socket that is not empty for the node's reply, whoever sent
it: one that is not a CoAP message gives the zero EUI, and one that is gives the EUI in it. So the
registration is the node's own exactly if that datagram is a CoAP message from the node's address.
-/

namespace Pmind

open Transition

/-- What a call makes of the datagram it takes for the reply. -/
def Answer.Reads (coap : CoapLite) (a : Answer) (d : Received) : Prop :=
  match coap.fromBytes d.bytes with
  | some packet => 6 ≤ packet.payload.length ∧ a.eui = Poll.euiOf packet.payload
    ∧ a.name = packet.payload.drop 6
  | none => a.eui = Vector.replicate 6 0 ∧ a.name = []

/-- A call got its answer from the last of what it received, after empty datagrams only. -/
structure Answer.Heard (coap : CoapLite) (a : Answer) (d : Received) : Prop where
  received : ∃ waited, a.received = waited ++ [d] ∧ ∀ x ∈ waited, x.bytes = []
  nonempty : d.bytes ≠ []
  reads : a.Reads coap d

def PollPc.Heard (coap : CoapLite) : PollPc → Prop
  | .attempt _ _ received => ∀ d ∈ received, d.bytes = []
  | .registerNode _ answer | .newHandler _ answer | .emit _ answer => ∃ d, answer.Heard coap d
  | _ => True

namespace Poll

variable {coap : CoapLite}

theorem heard_next (omrAddr : Ipv6Addr) (i : ℕ) : ∀ nodes, (next omrAddr i nodes).Heard coap
  | [] => trivial
  | _ :: _ => trivial

theorem heard_recv {call : Call} {rcvd : List Received} (h : ∀ d ∈ rcvd, d.bytes = [])
    (d : Received) : (recv coap call rcvd d).Heard coap := by
  unfold recv
  simp only []
  split_ifs with hempty
  · intro x hx
    rcases List.mem_append.mp hx with hx | hx
    · exact h x hx
    · rw [List.mem_singleton.mp hx]
      exact hempty
  · split
    · rename_i hnone
      exact ⟨_, ⟨rcvd, rfl, h⟩, hempty, by simp [Answer.Reads, hnone]⟩
    · rename_i packet hsome
      split_ifs with hlen
      · exact ⟨_, ⟨rcvd, rfl, h⟩, hempty, by simp [Answer.Reads, hsome, hlen]⟩
      · trivial

theorem heard_step {s s' : Poll} {e : PollEvent} (h : s.pc.Heard coap)
    (hs : step coap s e = some s') : s'.pc.Heard coap := by
  cases Step.of_step hs with
  | omrIp | emit | returnPort => exact heard_next _ _ _
  | recv => exact heard_recv h _
  | reserve | exhausted => exact fun d hd => absurd hd List.not_mem_nil
  | bound | recvErr | registerNode | newHandler => exact h
  | _ => trivial

/-- The registration was made from a CoAP message the call received from the node's address. -/
def Emission.Authentic (coap : CoapLite) (em : Emission) : Prop :=
  ∃ d ∈ em.received, d.sender.ip = em.ip ∧ ∃ packet ∈ coap.fromBytes d.bytes,
    6 ≤ packet.payload.length ∧ em.eui = euiOf packet.payload

instance (em : Emission) : Decidable (em.Authentic coap) :=
  inferInstanceAs (Decidable (∃ d ∈ em.received, d.sender.ip = em.ip ∧
    ∃ packet ∈ coap.fromBytes d.bytes, _ ∧ em.eui = euiOf packet.payload))

def Emission.first (em : Emission) : Option Received := em.received.find? fun d => d.bytes ≠ []

theorem mem_emitted {s : Poll} {e : PollEvent} {em : Emission} (h : em ∈ s.emitted e) :
    ∃ call answer, s.pc = .emit call answer
      ∧ em = ⟨answer.eui, call.ip, plantName answer.name, answer.received⟩ := by
  unfold emitted at h
  split at h
  · rename_i call answer hpc
    exact ⟨call, answer, hpc, List.mem_singleton.mp h⟩
  · exact absurd h List.not_mem_nil

theorem authentic_iff (hcoap : coap.fromBytes [] = none) {call : Call} {answer : Answer}
    {d : Received} (h : answer.Heard coap d) :
    let em : Emission := ⟨answer.eui, call.ip, plantName answer.name, answer.received⟩
    em.Authentic coap ↔ ∃ d ∈ em.first, d.sender.ip = em.ip ∧ coap.fromBytes d.bytes ≠ none := by
  obtain ⟨⟨waited, hrcvd, hwaited⟩, hne, hreads⟩ := h
  have hfirst : (answer.received.find? fun d => d.bytes ≠ []) = some d := by
    have hnone : (waited.find? fun d => d.bytes ≠ []) = none := by
      simpa using hwaited
    rw [hrcvd, List.find?_append, hnone]
    simp [hne]
  simp only [Emission.Authentic, Emission.first, hfirst, Option.mem_some, exists_eq_left']
  refine ⟨?_, ?_⟩
  · rintro ⟨x, hx, hip, packet, hp, -⟩
    rw [hrcvd] at hx
    rcases List.mem_append.mp hx with hx | hx
    · rw [hwaited x hx, hcoap] at hp
      cases hp
    · rw [List.mem_singleton.mp hx] at hip hp
      exact ⟨hip, by simp [Option.mem_def.mp hp]⟩
  · rintro ⟨hip, hp⟩
    obtain ⟨packet, hp⟩ := Option.ne_none_iff_exists'.mp hp
    simp only [Answer.Reads, hp] at hreads
    exact ⟨d, by simp [hrcvd], hip, packet, hp, hreads.1, hreads.2.1⟩

end Poll

namespace Mesh

variable {coap : CoapLite} {json : SerdeJson}

theorem step_broker {s s' : Mesh} {e : PollEvent}
    (h : step coap json s (.broker e) = some s') : s.poll.step coap e = some s'.poll := by
  unfold step at h
  split_ifs at h
  obtain ⟨poll, hp, rfl⟩ := Option.map_eq_some_iff.mp h
  exact hp

theorem heard_step {s s' : Mesh} {e : MeshEvent} (h : s.poll.pc.Heard coap)
    (hs : step coap json s e = some s') : s'.poll.pc.Heard coap := by
  rcases e with e | ⟨i, e⟩ | d
  · exact Poll.heard_step h (step_broker hs)
  · unfold step at hs
    split_ifs at hs
    obtain ⟨node, hn, rfl⟩ := Option.map_eq_some_iff.mp hs
    exact h
  · unfold step at hs
    split_ifs at hs
    cases hs
    exact h

/-- In every run, a registration that is emitted is the node's own exactly if the first datagram its
attempt received that was not empty is a CoAP message from the node's address. -/
theorem emitted_authentic_iff (coap : CoapLite) (hcoap : coap.fromBytes [] = none)
    (json : SerdeJson) (c : OtClient) (nodes : List Esp32Platform) (ls : List MeshEvent) (s : Mesh)
    (h : run (step coap json) (init c nodes) ls = some s) :
    ∀ em ∈ outputs (step coap json) emitted (init c nodes) ls, em.Authentic coap ↔
      ∃ d ∈ em.first, d.sender.ip = em.ip ∧ coap.fromBytes d.bytes ≠ none := by
  have hinit : (init c nodes).poll.pc.Heard coap := trivial
  have hQ := run_outputs_induct emitted (C := fun _ => True)
    (Q := fun ems t => t.poll.pc.Heard coap ∧ ∀ em ∈ ems, em.Authentic coap ↔
      ∃ d ∈ em.first, d.sender.ip = em.ip ∧ coap.fromBytes d.bytes ≠ none)
    ⟨hinit, fun em hem => absurd hem List.not_mem_nil⟩ (fun ems t e t' _ hQ ht => ?_)
    (fun _ _ => trivial) h
  · exact hQ.2
  · refine ⟨heard_step hQ.1 ht, fun em hem => ?_⟩
    rcases List.mem_append.mp hem with hem | hem
    · exact hQ.2 em hem
    · rcases e with e | ⟨i, e⟩ | d
      · obtain ⟨call, answer, hpc, rfl⟩ := Poll.mem_emitted hem
        have hheard := hQ.1
        rw [hpc] at hheard
        obtain ⟨d, hd⟩ := hheard
        exact Poll.authentic_iff hcoap hd
      · exact absurd hem List.not_mem_nil
      · exact absurd hem List.not_mem_nil

def nodeOf (n : UInt16) : Esp32Platform :=
  ⟨Poll.ipOf n, .of 0x60 0x55 0xf9 0xf6 (n >>> 8).toUInt8 n.toUInt8, "mint", none, false⟩

/-- Two nodes are new. The first answers too late, and its port is handed to the call for the
second, where the datagram `d` comes. -/
def lateRun (d : Received) : List MeshEvent :=
  let asked : LoopEvent :=
    .receive ⟨Poll.omrIp, 1213⟩ ((CoapLite.wire.toBytes (Poll.request 1213)).getD []) true
  [.networkStatus (Poll.mesh []),
    .checkNewNode (Poll.mesh [(0x4401, Poll.ipOf 1), (0x4402, Poll.ipOf 2)]),
    .omrIp (Poll.mesh []), .reserve (some 1213), .bind true].map .broker
    ++ [.node 0 asked]
    ++ [.elapsed, .returnPort, .reserve (some 1213), .bind true].map .broker
    ++ [.node 1 asked]
    ++ [.recv d, .registerNode, .newHandler, .emit].map .broker

def noJson : SerdeJson := ⟨fun _ => none, fun _ => none⟩

theorem emitted_authentic_second :
    ∃ em ∈ outputs (step .wire noJson) emitted (init (Poll.mesh []) [nodeOf 1, nodeOf 2])
      (lateRun (Poll.reply 1213 2)), em.ip = Poll.ipOf 2 ∧ em.Authentic .wire := by
  obtain ⟨s, hs⟩ := Option.isSome_iff_exists.mp (by decide +kernel :
    (run (step .wire noJson) (init (Poll.mesh []) [nodeOf 1, nodeOf 2])
      (lateRun (Poll.reply 1213 2))).isSome)
  obtain ⟨em, hem, hip, hfirst⟩ :
      ∃ em ∈ outputs (step .wire noJson) emitted (init (Poll.mesh []) [nodeOf 1, nodeOf 2])
        (lateRun (Poll.reply 1213 2)), em.ip = Poll.ipOf 2
          ∧ ∃ d ∈ em.first, d.sender.ip = em.ip ∧ CoapLite.wire.fromBytes d.bytes ≠ none := by
    decide +kernel
  exact ⟨em, hem, hip, (emitted_authentic_iff .wire rfl noJson _ _ _ s hs em hem).mpr hfirst⟩

/-- With the first node's reply arriving there, its EUI is registered under the second's address. -/
theorem not_emitted_authentic :
    (∃ s, run (step .wire noJson) (init (Poll.mesh []) [nodeOf 1, nodeOf 2])
        (lateRun (Poll.reply 1213 1)) = some s)
      ∧ ∃ em ∈ outputs (step .wire noJson) emitted (init (Poll.mesh []) [nodeOf 1, nodeOf 2])
          (lateRun (Poll.reply 1213 1)),
        em.ip = Poll.ipOf 2 ∧ em.eui = (nodeOf 1).eui ∧ ¬ em.Authentic .wire :=
  ⟨Option.isSome_iff_exists.mp (by decide +kernel), by decide +kernel⟩

end Mesh

end Pmind
