import Pmind.Proofs.Registering

/-!
# One node, one port

The new nodes of a round are those no entry has, and each of them once if the child list has them
once. A call that succeeds takes its node from the ones pending to the registered, whatever port it
goes on, so the registered and the pending pairs stay apart. An answered `GetNodeStatus` leaves
registered only pairs of the child list: where that names each address once, so does the registry.
-/

namespace Pmind

/-- A child list the client reports does not repeat a pair. -/
def OtClient.NoRepeat (c : OtClient) : Prop :=
  ∀ children, c.getChildIps = .ok children → children.Nodup

def PollEvent.NoRepeat (e : PollEvent) : Prop := ∀ c ∈ e.otClient, c.NoRepeat

namespace Poll

open Transition HashMap

variable {coap : CoapLite}

/-- No two ports hold one pair, and the pairs still to be registered are new and different. -/
structure PairsApart (s : Poll) : Prop where
  registered : UniqueBy InternalRegistration.pair s.monitor.nodes
  pending : s.pc.pending.Nodup
  new : ∀ q ∈ s.pc.pending, ¬ Holds InternalRegistration.pair s.monitor.nodes q

theorem PairsApart.of_sublist {m m' : OtMonitor} {pc pc' : PollPc} (h : PairsApart ⟨m, pc⟩)
    (hn : m'.nodes = m.nodes) (hp : pc'.pending.Sublist pc.pending) : PairsApart ⟨m', pc'⟩ where
  registered := by
    simp only [hn]
    exact h.registered
  pending := h.pending.sublist hp
  new q hq := by
    simp only [hn]
    exact h.new q (hp.subset hq)

theorem pending_recv (call : Call) (rcvd : List Received) (d : Received) :
    (recv coap call rcvd d).pending.Sublist ((call.rloc, call.ip) :: call.rest) := by
  rcases recv_cases coap call rcvd d with ⟨r, hr⟩ | ⟨a, hr⟩ | hr <;> rw [hr]
  · exact List.Sublist.refl _
  · exact List.Sublist.refl _
  · exact List.nil_sublist _

theorem inScope_nodup {addr : Ipv6Addr} {children : List (Rloc × Ipv6Addr)}
    (h : children.Nodup) : (OtMonitor.inScope addr children).Nodup :=
  h.sublist List.filter_sublist

theorem pairsApart_step (s : Poll) (e : PollEvent) (s' : Poll) (he : e.NoRepeat)
    (h : PairsApart s) (hs : step coap s e = some s') : PairsApart s' := by
  have hs := Step.of_step hs
  cases hs with
  | networkStatus m c =>
    exact h.of_sublist OtMonitor.monitorNetworkStatus_snd.1 (List.nil_sublist _)
  | @newNodes m c nodes hn =>
    obtain ⟨active, ha, rfl⟩ := OtMonitor.checkNewNode_ok.mp hn
    obtain ⟨children, hc, rfl⟩ := OtMonitor.getNodes_ok.mp ha
    refine ⟨h.registered, ?_, ?_⟩
    · exact (inScope_nodup (he c rfl children hc)).filter _
    · intro q hq
      simp only [PollPc.pending, List.mem_filter, decide_not, Bool.not_eq_eq_eq_not, Bool.not_true,
        decide_eq_false_iff_not] at hq
      exact hq.2
  | registerNode =>
    obtain ⟨hreg, hnd, hnew⟩ := h
    simp only [PollPc.pending, List.nodup_cons, List.mem_cons, forall_eq_or_imp] at hnd hnew
    obtain ⟨hnot, hnd⟩ := hnd
    obtain ⟨hnew, hrest⟩ := hnew
    refine ⟨hreg.insert hnew, hnd, fun q hq hq' => ?_⟩
    rcases hq'.of_insert with rfl | hq'
    · exact hnot hq
    · exact hrest q hq hq'
  | @getNodeStatus m c iter hi =>
    rcases ha : m.getNodes c with err | active
    · rw [OtMonitor.getNodeStatus_error ha]
      exact h.of_sublist rfl (List.nil_sublist _)
    · obtain ⟨hn, -, -⟩ := OtMonitor.getNodeStatus_snd ha hi
      exact ⟨h.registered.of_le fun p n hp => ((hn p n).mp hp).1, List.nodup_nil,
        fun q hq => absurd hq List.not_mem_nil⟩
  | recv hpc => exact h.of_sublist rfl (pending_recv ..)
  | omrIp | emit | returnPort => exact h.of_sublist rfl (by rw [pending_next]; exact .refl _)
  | notBound | retryErr | elapsed => exact h.of_sublist rfl (List.sublist_cons_self _ _)
  | stop | noOmrIp | sleep => exact h.of_sublist rfl (List.nil_sublist _)
  | reserve | exhausted | bound | recvErr | newHandler =>
    exact h.of_sublist rfl (List.Sublist.refl _)

theorem pairsApart_init (c : OtClient) : PairsApart (init c) :=
  ⟨uniqueBy_empty _, List.nodup_nil, fun _ hq => absurd hq List.not_mem_nil⟩

theorem pairsApart_run {c : OtClient} {ls : List PollEvent} (hls : ∀ e ∈ ls, e.NoRepeat) {s : Poll}
    (h : run (step coap) (init c) ls = some s) : PairsApart s :=
  run_invariant pairsApart_step (pairsApart_init c) hls h

theorem holds_getNodeStatus {m : OtMonitor} {c : OtClient}
    {iter : List (NodeRcvPort × InternalRegistration)} (hi : m.nodes.Iter iter)
    {children : List (Rloc × Ipv6Addr)} (hc : c.getChildIps = .ok children) {p : NodeRcvPort}
    {n : InternalRegistration} (hn : (m.getNodeStatus c iter).2.nodes.lookup p = some n) :
    n.pair ∈ children := by
  have ha : m.getNodes c = .ok (OtMonitor.inScope m.addr children) :=
    OtMonitor.getNodes_ok.mpr ⟨children, hc, rfl⟩
  obtain ⟨hnodes, -, -⟩ := OtMonitor.getNodeStatus_snd ha hi
  exact List.mem_of_mem_filter ((hnodes p n).mp hn).2

/-- No two ports hold one pair in any state of a run; and after a `GetNodeStatus` answered with a
child list that names each address once, no two hold one address. -/
theorem one_node_one_port (coap : CoapLite) (c₀ : OtClient) (ls : List PollEvent)
    (hls : ∀ e ∈ ls, e.NoRepeat) (s : Poll) (h : run (step coap) (init c₀) ls = some s) :
    UniqueBy InternalRegistration.pair s.monitor.nodes
      ∧ ∀ ls' c iter children, ls = ls' ++ [.getNodeStatus c iter] →
          c.getChildIps = .ok children → (children.map Prod.snd).Nodup →
          UniqueBy InternalRegistration.ip s.monitor.nodes := by
  have hpairs := (pairsApart_run hls h).registered
  refine ⟨hpairs, ?_⟩
  rintro ls' c iter children rfl hc hnd p p' n n' hn hn' hip
  obtain ⟨t, -, ht⟩ := run_concat.mp h
  cases Step.of_step ht with
  | getNodeStatus hi =>
    have hmem := holds_getNodeStatus hi hc hn
    have hmem' := holds_getNodeStatus hi hc hn'
    exact hpairs p p' n n' hn hn' (List.inj_on_of_nodup_map hnd hmem hmem' hip)

theorem mesh_noRepeat {children : List (Rloc × Ipv6Addr)} (h : children.Nodup) :
    (mesh children).NoRepeat := fun _ hc => Except.ok.inj hc ▸ h

theorem roundOf_noRepeat {nodes : List (Rloc × Ipv6Addr)} (h : nodes.Nodup)
    (ds : List (NodeRcvPort × Received)) : ∀ e ∈ roundOf nodes ds, e.NoRepeat := by
  simp only [roundOf, registerOn, List.mem_append, List.mem_cons, List.not_mem_nil, or_false,
    List.mem_flatMap]
  rintro e ((rfl | rfl | rfl) | ⟨d, -, rfl | rfl | rfl | rfl | rfl | rfl⟩) <;>
    simp [PollEvent.NoRepeat, PollEvent.otClient, mesh_noRepeat h]

/-- A node registers under two locators and keeps one of them. -/
theorem one_node_one_port_moved :
    let ls := roundOf [(0x4401, ipOf 1), (0x4402, ipOf 1)]
        [(1213, reply 1213 1), (1214, reply 1214 1)]
      ++ [.getNodeStatus (mesh [(0x4402, ipOf 1)])
        [(1213, ⟨0x4401, ipOf 1, 1213, .of 0x60 0x55 0xf9 0xf6 0 1⟩),
          (1214, ⟨0x4402, ipOf 1, 1214, .of 0x60 0x55 0xf9 0xf6 0 1⟩)]]
    ∃ s, run (step .wire) (init (mesh [])) ls = some s ∧ 1214 ∈ s.monitor.nodes
      ∧ UniqueBy InternalRegistration.ip s.monitor.nodes := by
  intro ls
  obtain ⟨s, hs, hreg⟩ : ∃ s ∈ run (step .wire) (init (mesh [])) ls, 1214 ∈ s.monitor.nodes := by
    decide +kernel
  refine ⟨s, hs, hreg, (one_node_one_port .wire (mesh []) ls (fun e he => ?_) s hs).2 _ _ _ _
    rfl rfl (by decide)⟩
  rcases List.mem_append.mp he with he | he
  · exact roundOf_noRepeat (by decide) _ e he
  · rw [List.mem_singleton.mp he]
    simp [PollEvent.NoRepeat, PollEvent.otClient, mesh_noRepeat]

end Poll

end Pmind
