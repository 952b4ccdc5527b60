import Pmind.Router
import Pmind.Proofs.Monitor

/-!
# What a step of the poll loop can do

`Poll.Step` says it once, a constructor for each branch of the loop, and `step_iff` that this is
all: an invariant of the loop is proved by cases on it. A received datagram either keeps the call
waiting, or ends it with an answer, or ends the task.
-/

namespace Pmind

namespace Poll

open Transition HashMap

variable {coap : CoapLite}

inductive Step (coap : CoapLite) : Poll → PollEvent → Poll → Prop
  | networkStatus (m c) :
    Step coap ⟨m, .networkStatus⟩ (.networkStatus c) ⟨(m.monitorNetworkStatus c).2, .checkNewNode⟩
  | newNodes {m c nodes} (h : m.checkNewNode c = .ok nodes) :
    Step coap ⟨m, .checkNewNode⟩ (.checkNewNode c) ⟨m, .omrIp nodes⟩
  | stop {m c e} (h : m.checkNewNode c = .error e) :
    Step coap ⟨m, .checkNewNode⟩ (.checkNewNode c) ⟨m, .exited⟩
  | omrIp {m nodes c omrAddr} (h : OtMonitor.getOmrIp c = .ok omrAddr) :
    Step coap ⟨m, .omrIp nodes⟩ (.omrIp c) ⟨m, next omrAddr 0 nodes⟩
  | noOmrIp {m nodes c e} (h : OtMonitor.getOmrIp c = .error e) :
    Step coap ⟨m, .omrIp nodes⟩ (.omrIp c) ⟨m, .getNodeStatus⟩
  | reserve {m omrAddr i rloc ip rest p} (h : p ∈ m.ports.ports) :
    Step coap ⟨m, .reserve omrAddr i ((rloc, ip) :: rest)⟩ (.reserve (some p))
      ⟨{ m with ports := { m.ports with ports := m.ports.ports.erase p } },
        .attempt ⟨omrAddr, rloc, ip, p, i, rest⟩ .bind []⟩
  | exhausted {m omrAddr i rloc ip rest} (h : m.ports.ports = ∅) :
    Step coap ⟨m, .reserve omrAddr i ((rloc, ip) :: rest)⟩ (.reserve none)
      ⟨m, .attempt ⟨omrAddr, rloc, ip, fallbackPort i, i, rest⟩ .bind []⟩
  | bound {m call rcvd} :
    Step coap ⟨m, .attempt call .bind rcvd⟩ (.bind true) ⟨m, .attempt call .select rcvd⟩
  | notBound {m call rcvd ok} :
    Step coap ⟨m, .attempt call .bind rcvd⟩ (.bind ok) ⟨m, .returnPort call⟩
  | recv {m call pc rcvd d} (h : pc = .select ∨ pc = .retry) :
    Step coap ⟨m, .attempt call pc rcvd⟩ (.recv d) ⟨m, recv coap call rcvd d⟩
  | recvErr {m call rcvd} :
    Step coap ⟨m, .attempt call .select rcvd⟩ .recvErr ⟨m, .attempt call .sleepOnly rcvd⟩
  | retryErr {m call rcvd} :
    Step coap ⟨m, .attempt call .retry rcvd⟩ .recvErr ⟨m, .returnPort call⟩
  | elapsed {m call pc rcvd} (h : pc = .select ∨ pc = .sleepOnly) :
    Step coap ⟨m, .attempt call pc rcvd⟩ .elapsed ⟨m, .returnPort call⟩
  | registerNode {m call answer} :
    Step coap ⟨m, .registerNode call answer⟩ .registerNode
      ⟨m.registerNode ⟨call.rloc, call.ip, call.port, answer.eui⟩, .newHandler call answer⟩
  | newHandler {m call answer} :
    Step coap ⟨m, .newHandler call answer⟩ .newHandler ⟨m, .emit call answer⟩
  | emit {m call answer} :
    Step coap ⟨m, .emit call answer⟩ .emit ⟨m, next call.omrAddr (call.index + 1) call.rest⟩
  | returnPort {m call} :
    Step coap ⟨m, .returnPort call⟩ .returnPort
      ⟨m.returnPort call.port, next call.omrAddr (call.index + 1) call.rest⟩
  | getNodeStatus {m c iter} (h : m.nodes.Iter iter) :
    Step coap ⟨m, .getNodeStatus⟩ (.getNodeStatus c iter) ⟨(m.getNodeStatus c iter).2, .sleep⟩
  | sleep {m} : Step coap ⟨m, .sleep⟩ .sleep ⟨m, .networkStatus⟩

theorem Step.of_step {s s' : Poll} {e : PollEvent} (h : step coap s e = some s') :
    Step coap s e s' := by
  obtain ⟨m, pc⟩ := s
  simp only [step] at h
  split at h
  · cases h
    exact .networkStatus m _
  · split at h <;> cases h
    · exact .newNodes ‹_›
    · exact .stop ‹_›
  · split at h <;> cases h
    · exact .omrIp ‹_›
    · exact .noOmrIp ‹_›
  · split_ifs at h with htop
    cases h
    by_cases hempty : m.ports.ports = ∅
    · rw [hempty] at htop
      rw [OtMonitor.getFreePort_empty hempty, htop.of_empty]
      exact .exhausted hempty
    · obtain ⟨p, hp, rfl⟩ := htop.mem hempty
      rw [OtMonitor.getFreePort_some hp]
      exact .reserve hp
  · split at h <;> cases h
    · exact .bound
    · exact .notBound
  · cases h
    exact .recv (Or.inl rfl)
  · cases h
    exact .recv (Or.inr rfl)
  · cases h
    exact .recvErr
  · cases h
    exact .retryErr
  · cases h
    exact .elapsed (Or.inl rfl)
  · cases h
    exact .elapsed (Or.inr rfl)
  · cases h
    exact .registerNode
  · cases h
    exact .newHandler
  · cases h
    exact .emit
  · cases h
    exact .returnPort
  · split_ifs at h with hi
    cases h
    exact .getNodeStatus hi
  · cases h
    exact .sleep
  · cases h

/-- A datagram keeps the call waiting, ends it with an answer, or ends the task. -/
theorem recv_cases (coap : CoapLite) (call : Call) (rcvd : List Received) (d : Received) :
    (∃ rcvd', recv coap call rcvd d = .attempt call .retry rcvd')
      ∨ (∃ answer, recv coap call rcvd d = .registerNode call answer)
      ∨ recv coap call rcvd d = .exited := by
  unfold recv
  simp only []
  split_ifs
  · exact Or.inl ⟨_, rfl⟩
  · split
    · exact Or.inr (Or.inl ⟨_, rfl⟩)
    · split_ifs
      · exact Or.inr (Or.inl ⟨_, rfl⟩)
      · exact Or.inr (Or.inr rfl)

@[simp] theorem handedOut_next (omrAddr : Ipv6Addr) (i : Nat) :
    ∀ nodes, (next omrAddr i nodes).handedOut = none
  | [] => rfl
  | _ :: _ => rfl

@[simp] theorem inRound_next (omrAddr : Ipv6Addr) (i : Nat) :
    ∀ nodes, (next omrAddr i nodes).inRound
  | [] => trivial
  | _ :: _ => trivial

@[simp] theorem waiting_next (omrAddr : Ipv6Addr) (i : Nat) :
    ∀ nodes, (next omrAddr i nodes).waiting = nodes
  | [] => rfl
  | _ :: _ => rfl

@[simp] theorem pending_next (omrAddr : Ipv6Addr) (i : Nat) :
    ∀ nodes, (next omrAddr i nodes).pending = nodes
  | [] => rfl
  | _ :: _ => rfl

theorem next_ne_sleep (omrAddr : Ipv6Addr) (i : Nat) : ∀ nodes, next omrAddr i nodes ≠ .sleep
  | [] => nofun
  | _ :: _ => nofun

theorem step_getNodeStatus {s s' : Poll} {c : OtClient}
    {iter : List (NodeRcvPort × InternalRegistration)}
    (h : step coap s (.getNodeStatus c iter) = some s') :
    s = ⟨s.monitor, .getNodeStatus⟩ ∧ s.monitor.nodes.Iter iter
      ∧ s' = ⟨(s.monitor.getNodeStatus c iter).2, .sleep⟩ := by
  cases Step.of_step h with
  | getNodeStatus hi => exact ⟨rfl, hi, rfl⟩

theorem step_registerNode {s s' : Poll} (h : step coap s .registerNode = some s') :
    ∃ call answer, s.pc = .registerNode call answer
      ∧ s'.monitor = s.monitor.registerNode ⟨call.rloc, call.ip, call.port, answer.eui⟩ := by
  cases Step.of_step h with
  | registerNode => exact ⟨_, _, rfl, rfl⟩

/-- Only `InternalRegistration` adds an entry. -/
theorem lookup_of_step {s s' : Poll} {e : PollEvent} (h : step coap s e = some s')
    (he : e ≠ .registerNode) {p : NodeRcvPort} {n : InternalRegistration}
    (hn : s'.monitor.nodes.lookup p = some n) : s.monitor.nodes.lookup p = some n := by
  cases Step.of_step h with
  | networkStatus m c =>
    rw [OtMonitor.monitorNetworkStatus_snd.1] at hn
    exact hn
  | registerNode => exact absurd rfl he
  | @getNodeStatus m c iter hi =>
    rcases ha : m.getNodes c with err | active
    · rw [OtMonitor.getNodeStatus_error ha] at hn
      exact hn
    · exact (((OtMonitor.getNodeStatus_snd ha hi).1 p n).mp hn).1
  | _ => exact hn

theorem step_to_sleep {s s' : Poll} {e : PollEvent} (h : step coap s e = some s')
    (hpc : s'.pc = .sleep) : ∃ c iter, e = .getNodeStatus c iter := by
  cases Step.of_step h with
  | getNodeStatus => exact ⟨_, _, rfl⟩
  | omrIp | emit | returnPort => exact absurd hpc (next_ne_sleep _ _ _)
  | @recv m call pc rcvd d =>
    rcases recv_cases coap call rcvd d with ⟨r, hr⟩ | ⟨a, hr⟩ | hr <;> simp [hr] at hpc
  | _ => cases hpc

end Poll

end Pmind
