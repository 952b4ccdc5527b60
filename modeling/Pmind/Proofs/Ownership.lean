import Pmind.Proofs.Registering

/-!
# Who owns a port

A port is free, or handed out to the call under way, or a registered node's. A call's port leaves
the free set when it is handed out, and comes back, or goes to the node, when the call ends; an
evicted node's port comes back. So no two of the three can meet, unless the port was never taken
from the pool: the fallback port `1213 + i`, used when the pool is empty, may be a registered
node's. If the call on it fails the port is then free and that node's at once, and if it succeeds
the node's entry is overwritten.
-/

namespace Pmind

namespace Poll

open Transition HashMap

variable {coap : CoapLite}

/-- No registered node's port is free, nor handed out to a call. -/
structure PortOwnership (s : Poll) : Prop where
  free : ∀ p ∈ s.monitor.ports.ports, p ∉ s.monitor.nodes
  handedOut : ∀ p ∈ s.pc.handedOut, p ∉ s.monitor.nodes

def fallback (s : Poll) (e : PollEvent) : Option NodeRcvPort :=
  match s.pc, e with
  | .reserve _ index _, .reserve _ =>
    if s.monitor.ports.ports = ∅ then some (fallbackPort index) else none
  | _, _ => none

/-- A fallback port is no registered node's. -/
def FallbackFree (s : Poll) (e : PollEvent) : Prop := ∀ p ∈ fallback s e, p ∉ s.monitor.nodes

instance (s : Poll) (e : PollEvent) : Decidable (FallbackFree s e) :=
  inferInstanceAs (Decidable (∀ p ∈ fallback s e, p ∉ s.monitor.nodes))

def HandedOutTaken (s : Poll) : Prop := ∀ p ∈ s.pc.handedOut, p ∉ s.monitor.ports.ports

theorem handedOut_recv {call : Call} {rcvd : List Received} {d : Received} {p : NodeRcvPort}
    (h : p ∈ (recv coap call rcvd d).handedOut) : call.port = p := by
  rcases recv_cases coap call rcvd d with ⟨r, hr⟩ | ⟨a, hr⟩ | hr <;> rw [hr] at h
  · exact Option.some.inj h
  · exact Option.some.inj h
  · simp [PollPc.handedOut] at h

theorem handedOutTaken_step {s s' : Poll} {e : PollEvent} (h : HandedOutTaken s)
    (hs : step coap s e = some s') : HandedOutTaken s' := by
  intro p hp
  have hs := Step.of_step hs
  cases hs with
  | reserve hfree =>
    simp only [PollPc.handedOut, Option.mem_some] at hp
    subst hp
    exact Finset.notMem_erase _ _
  | exhausted hfree => simp [hfree]
  | recv hpc => exact h p (by simp [PollPc.handedOut, handedOut_recv hp])
  | returnPort => simp at hp
  | omrIp | emit => simp at hp
  | bound | notBound | recvErr | retryErr | elapsed => exact h p hp
  | _ => simp [PollPc.handedOut] at hp

/-- A port that `GetNodeStatus` frees is no registered node's any more. -/
theorem free_getNodeStatus {m : OtMonitor} {c : OtClient}
    {iter : List (NodeRcvPort × InternalRegistration)} (hi : m.nodes.Iter iter)
    (h : ∀ p ∈ m.ports.ports, p ∉ m.nodes) :
    ∀ p ∈ (m.getNodeStatus c iter).2.ports.ports, p ∉ (m.getNodeStatus c iter).2.nodes := by
  intro p hp hmem
  rcases ha : m.getNodes c with e | active
  · rw [OtMonitor.getNodeStatus_error ha] at hp hmem
    exact h p hp hmem
  · obtain ⟨hn, hports, -⟩ := OtMonitor.getNodeStatus_snd ha hi
    obtain ⟨n, hlook⟩ := Finmap.mem_iff.mp hmem
    obtain ⟨hlook, hact⟩ := (hn p n).mp hlook
    rcases (hports p).mp hp with hp | ⟨n', hn', hact'⟩
    · exact h p hp (Finmap.mem_of_lookup_eq_some hlook)
    · rw [hlook, Option.some.injEq] at hn'
      exact hact' (hn' ▸ hact)

theorem portOwnership_step {s s' : Poll} {e : PollEvent} (hJ : HandedOutTaken s)
    (h : PortOwnership s) (hs : step coap s e = some s') : PortOwnership s' ↔ FallbackFree s e := by
  have hs := Step.of_step hs
  have hnone : fallback s e = none → (FallbackFree s e ↔ True) := fun h => by simp [FallbackFree, h]
  cases hs with
  | networkStatus m c =>
    obtain ⟨hn, hp⟩ := OtMonitor.monitorNetworkStatus_snd (m := m) (c := c)
    rw [hnone rfl, iff_true]
    refine ⟨?_, fun p hp => by simp [PollPc.handedOut] at hp⟩
    simp only [hn, hp]
    exact h.free
  | reserve hp =>
    have hne := Finset.ne_empty_of_mem hp
    rw [hnone (by simp [fallback, hne]), iff_true]
    refine ⟨fun q hq => h.free q (Finset.mem_of_mem_erase hq), fun q hq => ?_⟩
    simp only [PollPc.handedOut, Option.mem_some] at hq
    exact hq ▸ h.free _ hp
  | exhausted hempty =>
    simp only [FallbackFree, fallback, hempty, if_true, Option.mem_some, forall_eq']
    refine ⟨fun h' => h'.handedOut _ rfl, fun hf => ⟨h.free, fun q hq => ?_⟩⟩
    simp only [PollPc.handedOut, Option.mem_some] at hq
    exact hq ▸ hf
  | recv hpc =>
    rw [hnone rfl, iff_true]
    exact ⟨h.free, fun p hp => h.handedOut p (by simp [PollPc.handedOut, handedOut_recv hp])⟩
  | registerNode =>
    -- the call's port becomes the node's: it was not free
    rw [hnone rfl, iff_true]
    refine ⟨fun p hp => ?_, fun p hp => by simp [PollPc.handedOut] at hp⟩
    rw [OtMonitor.registerNode_nodes, Finmap.mem_insert, not_or]
    refine ⟨?_, h.free p hp⟩
    rintro rfl
    exact hJ _ rfl hp
  | returnPort =>
    rw [hnone rfl, iff_true]
    refine ⟨fun p hp => ?_, fun p hp => by simp at hp⟩
    rw [OtMonitor.returnPort_ports, Finset.mem_insert] at hp
    rcases hp with rfl | hp
    · exact h.handedOut _ rfl
    · exact h.free p hp
  | @getNodeStatus m c iter hi =>
    rw [hnone rfl, iff_true]
    exact ⟨free_getNodeStatus hi h.free, fun p hp => by simp [PollPc.handedOut] at hp⟩
  | omrIp | emit =>
    rw [hnone rfl, iff_true]
    exact ⟨h.free, fun p hp => by simp at hp⟩
  | bound | notBound | recvErr | retryErr | elapsed =>
    rw [hnone rfl, iff_true]
    exact ⟨h.free, h.handedOut⟩
  | _ =>
    rw [hnone rfl, iff_true]
    exact ⟨h.free, fun p hp => by simp [PollPc.handedOut] at hp⟩

theorem portOwnership_init (c : OtClient) : PortOwnership (init c) :=
  ⟨fun p _ => Finmap.notMem_empty, fun p h => by simp [init, PollPc.handedOut] at h⟩

/-- Ports are owned by one party each throughout a run exactly when no call of it is given a
registered node's port as its fallback. -/
theorem portOwnership_iff (coap : CoapLite) (c : OtClient) (ls : List PollEvent) (s : Poll)
    (h : run (step coap) (init c) ls = some s) :
    EveryState (step coap) PortOwnership (init c) ls
      ↔ EveryStep (step coap) FallbackFree (init c) ls :=
  everyState_iff_everyStep (J := HandedOutTaken) (fun _ _ _ => handedOutTaken_step)
    (fun _ _ _ => portOwnership_step) (fun p h => by simp [init, PollPc.handedOut] at h)
    (portOwnership_init c) h

theorem portOwnership_sample :
    EveryState (step .wire) PortOwnership (init (mesh []))
      (roundOf [(0x4401, ipOf 1)] [(1213, reply 1213 1)]) := by
  obtain ⟨s, hs⟩ : ∃ s, run (step .wire) (init (mesh []))
      (roundOf [(0x4401, ipOf 1)] [(1213, reply 1213 1)]) = some s :=
    Option.isSome_iff_exists.mp (by decide +kernel)
  exact (portOwnership_iff .wire (mesh []) _ s hs).mpr (by decide +kernel)

/-- On an empty pool, with the fallback port registered, a call that cannot bind leaves the port
both free and registered. -/
theorem run_fallback {m : OtMonitor} {omrAddr : Ipv6Addr} {i : ℕ} {node : Rloc × Ipv6Addr}
    {rest : List (Rloc × Ipv6Addr)} (hfree : m.ports.ports = ∅) :
    run (step coap) ⟨m, next omrAddr i (node :: rest)⟩ [.reserve none, .bind false, .returnPort]
      = some ⟨m.returnPort (fallbackPort i), next omrAddr (i + 1) rest⟩ := by
  have htop : IterNext m.ports.ports none := hfree
  simp only [next, run, step, htop, if_true, OtMonitor.getFreePort_empty hfree, Option.bind_some]
  rcases coap.toBytes (request (fallbackPort i)) <;> rfl

/-- A node for every port of the pool. -/
def fullMesh : List (Rloc × Ipv6Addr) :=
  (List.range 100).map fun n => (0x4401 + UInt16.ofNat n, ipOf (UInt16.ofNat n))

def fullReplies : List (NodeRcvPort × Received) :=
  (List.range 100).map fun n =>
    (1213 + UInt16.ofNat n, reply (1213 + UInt16.ofNat n) (UInt16.ofNat n))

theorem run_fullRound :
    ∃ m, run (step .wire) (init (mesh fullMesh)) (roundOf fullMesh fullReplies)
        = some ⟨m, .getNodeStatus⟩
      ∧ m.ports.ports = ∅ ∧ fallbackPort 0 ∈ m.nodes ∧ m.addr = omrIp
      ∧ ∀ q, Holds InternalRegistration.pair m.nodes q → q ∈ fullMesh := by
  have hfree : ∀ p ∈ (OtMonitor.new (mesh fullMesh)).ports.ports, p ∈ fullReplies.map Prod.fst := by
    decide +kernel
  have hstart : run (step .wire) (init (mesh fullMesh))
      [.networkStatus (mesh fullMesh), .checkNewNode (mesh fullMesh), .omrIp (mesh fullMesh)]
        = some ⟨OtMonitor.new (mesh fullMesh), next omrIp 0 fullMesh⟩ := by
    decide +kernel
  have hreplies : ∀ d ∈ fullReplies,
      d.1 ∈ (OtMonitor.new (mesh fullMesh)).ports.ports ∧ Answers .wire d.1 d.2 := fun d hd => by
    refine ⟨?_, ?_⟩
    · revert d
      decide +kernel
    · obtain ⟨n, -, rfl⟩ := List.mem_map.mp hd
      exact answers_reply _ _
  obtain ⟨m, hrun, hports, hnodes, hholds, haddr⟩ := run_registerAll omrIp
    fullMesh fullReplies 0 _ (by decide +kernel) (by decide +kernel) hreplies
  refine ⟨m, run_append_some.mpr ⟨_, hstart, hrun⟩, ?_, ?_, haddr, ?_⟩
  · refine Finset.eq_empty_of_forall_notMem fun p hp => ?_
    obtain ⟨hp, hnot⟩ := (hports p).mp hp
    exact hnot (hfree p hp)
  · exact (hnodes _).mpr (Or.inr (by decide +kernel))
  · intro q hq
    rcases hholds q hq with h | h
    · exact absurd h (not_holds_empty _ _)
    · exact h

/-- After that round one more child comes up, and the call for it, on the fallback port, cannot
bind: the port is then free while its node is registered. -/
theorem not_portOwnership : ∃ ls s, run (step .wire) (init (mesh fullMesh)) ls = some s
    ∧ ∃ p ∈ s.monitor.ports.ports, p ∈ s.monitor.nodes := by
  obtain ⟨m, hrun, hfree, hreg, haddr, hholds⟩ := run_fullRound
  obtain ⟨iter, hiter⟩ := exists_iter m.nodes
  let late : Rloc × Ipv6Addr := (0x4501, ipOf 100)
  have hlate : ¬ Holds InternalRegistration.pair m.nodes late := fun h => by
    have hmem : late ∉ fullMesh := by decide +kernel
    exact hmem (hholds late h)
  have hdown : (m.monitorNetworkStatus down).2 = m := by
    simp only [OtMonitor.monitorNetworkStatus, OtMonitor.checkAddrUpdateNeeded, haddr]
    rfl
  have hnew : m.checkNewNode (mesh [late]) = .ok [late] := by
    rw [OtMonitor.checkNewNode_ok]
    refine ⟨[late], OtMonitor.getNodes_ok.mpr ⟨[late], rfl, ?_⟩, ?_⟩
    · rw [haddr]
      decide +kernel
    · simp [hlate]
  have hround : run (step .wire) ⟨m, .getNodeStatus⟩
      [.getNodeStatus down iter, .sleep, .networkStatus down, .checkNewNode (mesh [late]),
        .omrIp (mesh [late])] = some ⟨m, next omrIp 0 [late]⟩ := by
    simp only [run, step, hiter, if_true, OtMonitor.getNodeStatus_error (c := down) rfl, hdown,
      hnew, Option.bind_some]
    rfl
  refine ⟨roundOf fullMesh fullReplies ++ _, _, run_append_some.mpr ⟨_, hrun, run_append_some.mpr
    ⟨_, hround, run_fallback hfree⟩⟩, fallbackPort 0, ?_, hreg⟩
  simp

end Poll

end Pmind
