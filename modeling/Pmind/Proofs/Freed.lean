import Pmind.Proofs.Attended
import Pmind.Proofs.Ownership

/-!
# Whether a free port is free

An evicted node's port goes back to the pool, and its receive task, which nobody tells, keeps the
socket bound. Where each node is evicted only after its task has ended, every task that runs is a
registered node's, and no port of the pool nor any handed out is bound.
-/

namespace Pmind

open HashMap

namespace Host

open Transition Poll

variable {coap : CoapLite} {s s' : Host}

/-- No receive task's socket is bound to a free port, nor to one that is handed out. -/
structure FreePortsUnbound (s : Host) : Prop where
  free : ∀ p ∈ s.poll.monitor.ports.ports, ∀ r ∈ s.receivers,
    r.handler.phase = .receiving → r.handler.addr.port ≠ p
  handedOut : ∀ p ∈ s.poll.pc.handedOut, ∀ r ∈ s.receivers,
    r.handler.phase = .receiving → r.handler.addr.port ≠ p

def PoolLasts (s : Host) : HostEvent → Prop
  | .poll e => s.poll.fallback e = none
  | .socket _ _ => True

/-- The nodes `GetNodeStatus` evicts have no receive task left. -/
def EvictsEnded (s : Host) : HostEvent → Prop
  | .poll (.getNodeStatus c _) => ∀ p ∈ s.poll.monitor.nodes.keys,
      ∀ n ∈ s.poll.monitor.nodes.lookup p, s.poll.monitor.Missing c n.pair →
        ∀ r ∈ s.receivers, r.call.port = p → r.handler.phase = .ended
  | _ => True

structure LiveRegistered (s : Host) : Prop where
  ownership : PortOwnership s.poll
  taken : HandedOutTaken s.poll
  addr : ∀ r ∈ s.receivers, r.handler.addr = r.call.addr
  live : ∀ r ∈ s.receivers, r.handler.phase ≠ .ended → r.call.port ∈ s.poll.monitor.nodes
  spawning : ∀ call ∈ s.poll.pc.spawning, call.port ∈ s.poll.monitor.nodes

theorem LiveRegistered.unbound (h : LiveRegistered s) : FreePortsUnbound s := by
  have hbound : ∀ r ∈ s.receivers, r.handler.phase = .receiving →
      r.handler.addr.port ∈ s.poll.monitor.nodes := fun r hr hphase => by
    rw [h.addr r hr]
    exact h.live r hr (by simp [hphase])
  refine ⟨?_, ?_⟩
  · intro p hp r hr hphase heq
    exact h.ownership.free p hp (heq ▸ hbound r hr hphase)
  · intro p hp r hr hphase heq
    exact h.ownership.handedOut p hp (heq ▸ hbound r hr hphase)

theorem liveRegistered_init (c : OtClient) : LiveRegistered (init c) where
  ownership := portOwnership_init c
  taken p hp := by simp [init, Poll.init, PollPc.handedOut] at hp
  addr r hr := absurd hr List.not_mem_nil
  live r hr := absurd hr List.not_mem_nil
  spawning call hc := by simp [init, Poll.init, PollPc.spawning] at hc

theorem unregistered_step {s s' : Poll} {e : PollEvent} (h : s.step coap e = some s')
    {p : NodeRcvPort} (hp : p ∈ s.monitor.nodes) :
    p ∈ s'.monitor.nodes ∨ ∃ c iter, e = .getNodeStatus c iter
      ∧ ∃ n, s.monitor.nodes.lookup p = some n ∧ s.monitor.Missing c n.pair := by
  cases Poll.Step.of_step h with
  | networkStatus m c =>
    rw [OtMonitor.monitorNetworkStatus_snd.1]
    exact Or.inl hp
  | registerNode =>
    rw [OtMonitor.registerNode_nodes, Finmap.mem_insert]
    exact Or.inl (Or.inr hp)
  | @getNodeStatus m c iter hi =>
    obtain ⟨n, hn⟩ := Finmap.mem_iff.mp hp
    by_cases hmiss : m.Missing c n.pair
    · exact Or.inr ⟨c, iter, rfl, n, hn, hmiss⟩
    · exact Or.inl (Finmap.mem_of_lookup_eq_some
        (((OtMonitor.getNodeStatus_missing hi).1 p n).mpr ⟨hn, hmiss⟩))
  | _ => exact Or.inl hp

theorem liveRegistered_step (s : Host) (e : HostEvent) (s' : Host) (h : LiveRegistered s)
    (hC : PoolLasts s e ∧ EvictsEnded s e) (hs : step coap s e = some s') : LiveRegistered s' := by
  obtain ⟨hpool, hev⟩ := hC
  rcases e with e | ⟨i, e⟩
  · obtain ⟨-, poll, hp, rfl⟩ := step_poll hs
    have hfb : FallbackFree s.poll e := by
      simp only [PoolLasts] at hpool
      simp [FallbackFree, hpool]
    have hkept : ∀ r ∈ s.receivers, r.handler.phase ≠ .ended →
        r.call.port ∈ poll.monitor.nodes := fun r hr hlive => by
      rcases unregistered_step hp (h.live r hr hlive) with hmem | ⟨c, iter, rfl, n, hn, hmiss⟩
      · exact hmem
      · exact absurd (hev _ (Finmap.mem_keys.mpr (h.live r hr hlive)) n hn hmiss r hr rfl) hlive
    have hnew : ∀ call ∈ s.poll.pc.spawning, call.port ∈ poll.monitor.nodes := fun call hc => by
      refine (unregistered_step hp (h.spawning call hc)).resolve_right ?_
      rintro ⟨c, iter, rfl, -⟩
      rw [(step_getNodeStatus hp).1] at hc
      simp [PollPc.spawning] at hc
    refine ⟨(portOwnership_step h.taken h.ownership hp).mpr hfb, handedOutTaken_step h.taken hp,
      ?_, ?_, ?_⟩
    · intro r hr
      rw [spawned_eq hp] at hr
      rcases List.mem_append.mp hr with hr | hr
      · obtain ⟨call, -, rfl⟩ := List.mem_map.mp hr
        rfl
      · exact h.addr r hr
    · intro r hr hlive
      rw [spawned_eq hp] at hr
      rcases List.mem_append.mp hr with hr | hr
      · obtain ⟨call, hc, rfl⟩ := List.mem_map.mp hr
        exact hnew call (by simpa using hc)
      · exact hkept r hr hlive
    · intro call hc
      obtain ⟨eui, hl⟩ := spawning_step hp hc
      exact Finmap.mem_of_lookup_eq_some hl
  · obtain ⟨-, r, handler, hr, hh, rfl⟩ := step_socket hs
    obtain ⟨haddr, hlive, -, -⟩ := NodeEventHandler.step_some hh
    have hmem := List.mem_of_getElem? hr
    refine ⟨h.ownership, h.taken, ?_, ?_, h.spawning⟩
    · intro r' hr'
      rcases List.mem_or_eq_of_mem_set hr' with hr' | rfl
      · exact h.addr r' hr'
      · exact haddr.trans (h.addr r hmem)
    · intro r' hr' hlive'
      rcases List.mem_or_eq_of_mem_set hr' with hr' | rfl
      · exact h.live r' hr' hlive'
      · exact h.live r hmem hlive

/-- In every run in which the pool lasts and a node is evicted only after its receive task has
ended, no free port is bound, nor one handed out. -/
theorem freePortsUnbound (coap : CoapLite) (c : OtClient) (ls : List HostEvent)
    (hpool : EveryStep (step coap) PoolLasts (init c) ls)
    (hended : EveryStep (step coap) EvictsEnded (init c) ls) :
    EveryState (step coap) FreePortsUnbound (init c) ls :=
  (everyStep_invariant liveRegistered_step (liveRegistered_init c) (hpool.and hended)).imp
    fun _ h => h.unbound

/-- With no free port bound before it, a `GetNodeStatus` leaves none bound exactly if it evicts no
node whose receive task still holds its socket. -/
theorem freePortsUnbound_getNodeStatus {c : OtClient}
    {iter : List (NodeRcvPort × InternalRegistration)} (h : FreePortsUnbound s)
    (hs : step coap s (.poll (.getNodeStatus c iter)) = some s') :
    FreePortsUnbound s' ↔ ∀ p n, s.poll.monitor.nodes.lookup p = some n →
      s.poll.monitor.Missing c n.pair → ∀ r ∈ s.receivers,
        r.handler.phase = .receiving → r.handler.addr.port ≠ p := by
  obtain ⟨-, poll, hp, rfl⟩ := step_poll hs
  obtain ⟨hat, hi, rfl⟩ := step_getNodeStatus hp
  obtain ⟨-, hports⟩ := OtMonitor.getNodeStatus_missing (c := c) hi
  have hspawn : s.poll.pc.spawning = none := by rw [hat]; rfl
  rw [spawned_eq hp, hspawn]
  refine ⟨fun h' p n hn hmiss r hr => h'.free p ((hports p).mpr (Or.inr ⟨n, hn, hmiss⟩)) r hr,
    fun hev => ⟨fun p hfree r hr => ?_, fun p hout => by simp [PollPc.handedOut] at hout⟩⟩
  rcases (hports p).mp hfree with hfree | ⟨n, hn, hmiss⟩
  · exact h.free p hfree r hr
  · exact hev p n hn hmiss r hr

instance (s : Host) : (e : HostEvent) → Decidable (s.PoolLasts e)
  | .poll e => inferInstanceAs (Decidable (s.poll.fallback e = none))
  | .socket _ _ => inferInstanceAs (Decidable True)

instance (s : Host) : (e : HostEvent) → Decidable (s.EvictsEnded e)
  | .poll (.getNodeStatus c _) => inferInstanceAs (Decidable (∀ p ∈ s.poll.monitor.nodes.keys,
      ∀ n ∈ s.poll.monitor.nodes.lookup p, s.poll.monitor.Missing c n.pair →
        ∀ r ∈ s.receivers, r.call.port = p → r.handler.phase = .ended))
  | .poll (.networkStatus _) | .poll (.checkNewNode _) | .poll (.omrIp _) | .poll (.reserve _)
  | .poll (.bind _) | .poll (.recv _) | .poll .recvErr | .poll .elapsed | .poll .registerNode
  | .poll .newHandler | .poll .emit | .poll .returnPort | .poll .sleep | .socket _ _ =>
    inferInstanceAs (Decidable True)

theorem freePortsUnbound_lost :
    EveryState (step .wire) FreePortsUnbound (init (mesh [])) (silentRun []) :=
  freePortsUnbound .wire (mesh []) _ (by decide +kernel) (by decide +kernel)

/-- A node registers and falls off the child table. -/
def lostRun : List HostEvent :=
  (roundOf [(0x4401, ipOf 1)] [(1213, reply 1213 1)]).map .poll ++ [.socket 0 (.bind true),
    .poll (.getNodeStatus (mesh [])
      [(1213, ⟨0x4401, ipOf 1, 1213, .of 0x60 0x55 0xf9 0xf6 0 1⟩)])]

theorem not_freePortsUnbound : ∃ s, run (step .wire) (init (mesh [])) lostRun = some s
    ∧ ∃ p ∈ s.poll.monitor.ports.ports, ∃ r ∈ s.receivers,
        r.handler.phase = .receiving ∧ r.handler.addr.port = p := by
  have h : ∃ s ∈ run (step .wire) (init (mesh [])) lostRun,
      ∃ p ∈ s.poll.monitor.ports.ports, ∃ r ∈ s.receivers,
        r.handler.phase = .receiving ∧ r.handler.addr.port = p := by
    decide +kernel
  exact h

end Host

end Pmind
