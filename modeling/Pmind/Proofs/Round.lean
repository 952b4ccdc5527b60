import Pmind.Proofs.Ownership
import Pmind.Proofs.Pairs

/-!
# The effect of a round

Between `CheckNewNode` and `GetNodeStatus` the free ports, the registered ones and the one handed
out to the call under way make up the pool, and the registry is what it was before the round with
the pairs registered since (`Round`). With enough free ports no call of the round is given a
fallback port. `GetNodeStatus` then takes out what is not in the child list, and puts its ports
back.
-/

namespace Pmind

open HashMap

/-- The free and the registered ports make up the pool, and have none in common. -/
structure OtMonitor.Partitions (m : OtMonitor) (pool : Finset NodeRcvPort) : Prop where
  cover : ∀ p, p ∈ pool ↔ p ∈ m.ports.ports ∨ p ∈ m.nodes
  disjoint : ∀ p ∈ m.ports.ports, p ∉ m.nodes

/-- The children in scope that no entry is. -/
def OtMonitor.newNodes (m : OtMonitor) (children : List (Rloc × Ipv6Addr)) :
    List (Rloc × Ipv6Addr) :=
  (inScope m.addr children).filter fun q => ¬ Holds InternalRegistration.pair m.nodes q

def PollEvent.Reports (e : PollEvent) (children : List (Rloc × Ipv6Addr)) : Prop :=
  ∀ c ∈ e.otClient, c.getChildIps = .ok children ∧ ∃ omrAddr, c.getOmrIp = .ok omrAddr

namespace Poll

open Transition

section Round

variable {coap : CoapLite} {m₀ : OtMonitor} {pool : Finset NodeRcvPort}
  {children : List (Rloc × Ipv6Addr)}

/-- What became of the monitor `m₀` a round began with: `done` are the nodes registered since. -/
structure Stock (m₀ : OtMonitor) (pool : Finset NodeRcvPort) (done : List (Rloc × Ipv6Addr))
    (s : Poll) : Prop where
  addr : s.monitor.addr = m₀.addr
  cover : ∀ p, p ∈ pool ↔ p ∈ s.monitor.ports.ports ∨ p ∈ s.monitor.nodes ∨ p ∈ s.pc.handedOut
  registered : ∀ q, Holds InternalRegistration.pair s.monitor.nodes q ↔
    Holds InternalRegistration.pair m₀.nodes q ∨ q ∈ done
  fits : s.pc.waiting.length ≤ s.monitor.ports.ports.card

structure Round (m₀ : OtMonitor) (pool : Finset NodeRcvPort) (children : List (Rloc × Ipv6Addr))
    (done : List (Rloc × Ipv6Addr)) (s : Poll) : Prop where
  inRound : s.pc.inRound
  stock : Stock m₀ pool done s
  ownership : PortOwnership s
  taken : HandedOutTaken s
  pairs : PairsApart s
  attempts : (done ++ s.pc.pending).Sublist (m₀.newNodes children)

/-- A step of a round registers the node of the call, or leaves the pending ones, or gives up some
of them: then a call has failed. -/
theorem succeeded_append_pending {s s' : Poll} {e : PollEvent} (hr : s.pc.inRound)
    (hs : step coap s e = some s') (he : e.Reports children) :
    (succeeded s e ++ s'.pc.pending).Sublist s.pc.pending
      ∧ (succeeded s e ++ s'.pc.pending = s.pc.pending ∨ s'.pc = .exited
        ∨ ∃ call, s'.pc = .returnPort call) := by
  have hs := Step.of_step hs
  cases hs with
  | networkStatus | newNodes | stop | sleep => exact absurd hr id
  | omrIp | emit | returnPort =>
    rw [pending_next]
    exact ⟨List.Sublist.refl _, Or.inl rfl⟩
  | noOmrIp herr =>
    obtain ⟨-, omrAddr, ho⟩ := he _ rfl
    simp [OtMonitor.getOmrIp, ho, Except.mapError] at herr
  | @recv m call pc rcvd d hpc =>
    rcases recv_cases coap call rcvd d with ⟨r, hr⟩ | ⟨a, hr⟩ | hr <;> rw [hr] <;>
      simp [succeeded, PollPc.pending]
  | notBound | retryErr | elapsed =>
    exact ⟨List.sublist_cons_self _ _, Or.inr (Or.inr ⟨_, rfl⟩)⟩
  | _ => exact ⟨List.Sublist.refl _, Or.inl rfl⟩

theorem Stock.keep {done : List (Rloc × Ipv6Addr)} {m : OtMonitor} {pc pc' : PollPc}
    (h : Stock m₀ pool done ⟨m, pc⟩) (hh : pc'.handedOut = pc.handedOut)
    (hw : pc'.waiting = pc.waiting) : Stock m₀ pool (done ++ []) ⟨m, pc'⟩ where
  addr := h.addr
  cover p := by
    simp only [hh]
    exact h.cover p
  registered q := by
    rw [List.append_nil]
    exact h.registered q
  fits := by
    simp only [hw]
    exact h.fits

theorem Stock.fallback_none {done : List (Rloc × Ipv6Addr)} {s s' : Poll} {e : PollEvent}
    (h : Stock m₀ pool done s) (hs : step coap s e = some s') : fallback s e = none := by
  cases Step.of_step hs with
  | exhausted hempty =>
    have := h.fits
    simp [PollPc.waiting, hempty] at this
  | reserve hp => simp [fallback, Finset.ne_empty_of_mem hp]
  | _ => rfl

/-- The port handed out is no longer free, and one node fewer waits for one. -/
theorem Stock.reserve {done : List (Rloc × Ipv6Addr)} {m : OtMonitor} {omrAddr : Ipv6Addr} {i : ℕ}
    {rloc : Rloc} {ip : Ipv6Addr} {rest : List (Rloc × Ipv6Addr)} {p : NodeRcvPort}
    (h : Stock m₀ pool done ⟨m, .reserve omrAddr i ((rloc, ip) :: rest)⟩)
    (hp : p ∈ m.ports.ports) :
    Stock m₀ pool done ⟨{ m with ports := { m.ports with ports := m.ports.ports.erase p } },
      .attempt ⟨omrAddr, rloc, ip, p, i, rest⟩ .bind []⟩ := by
  refine ⟨h.addr, ?_, h.registered, ?_⟩
  · intro q
    have hcover : q ∈ pool ↔ q ∈ m.ports.ports ∨ q ∈ m.nodes ∨ q ∈ none := h.cover q
    have hout : q ∈ (PollPc.attempt ⟨omrAddr, rloc, ip, p, i, rest⟩ .bind []).handedOut ↔ p = q :=
      Option.mem_some
    rw [hcover, hout, Finset.mem_erase]
    by_cases hq : q = p
    · simp [hq, hp]
    · simp [hq, Ne.symm hq]
  · have hfits := h.fits
    simp only [PollPc.waiting, List.length_cons] at hfits ⊢
    rw [Finset.card_erase_of_mem hp]
    omega

/-- The port handed out becomes the new node's. -/
theorem Stock.registerNode {done : List (Rloc × Ipv6Addr)} {m : OtMonitor} {call : Call}
    {answer : Answer} (h : Stock m₀ pool done ⟨m, .registerNode call answer⟩)
    (hnot : call.port ∉ m.nodes) :
    Stock m₀ pool (done ++ [(call.rloc, call.ip)])
      ⟨m.registerNode ⟨call.rloc, call.ip, call.port, answer.eui⟩, .newHandler call answer⟩ := by
  refine ⟨h.addr, ?_, ?_, h.fits⟩
  · intro q
    have hcover : q ∈ pool ↔ q ∈ m.ports.ports ∨ q ∈ m.nodes ∨ q ∈ some call.port := h.cover q
    rw [OtMonitor.registerNode_nodes, Finmap.mem_insert, hcover, Option.mem_some]
    simp only [PollPc.handedOut, Option.not_mem_none, or_false, OtMonitor.registerNode_ports]
    tauto
  · intro q
    rw [OtMonitor.registerNode_nodes, holds_insert_of_notMem hnot, h.registered q]
    simp only [List.mem_append, List.mem_singleton, InternalRegistration.pair]
    tauto

/-- The port handed out is free again. -/
theorem Stock.returnPort {done : List (Rloc × Ipv6Addr)} {m : OtMonitor} {call : Call}
    (h : Stock m₀ pool done ⟨m, .returnPort call⟩) :
    Stock m₀ pool done
      ⟨m.returnPort call.port, next call.omrAddr (call.index + 1) call.rest⟩ := by
  refine ⟨h.addr, ?_, h.registered, ?_⟩
  · intro q
    have hcover : q ∈ pool ↔ q ∈ m.ports.ports ∨ q ∈ m.nodes ∨ q ∈ some call.port := h.cover q
    rw [handedOut_next, OtMonitor.returnPort_ports, Finset.mem_insert, hcover, Option.mem_some]
    simp only [OtMonitor.returnPort_nodes, Option.not_mem_none, or_false]
    tauto
  · rw [waiting_next, OtMonitor.returnPort_ports]
    exact h.fits.trans (Finset.card_le_card (Finset.subset_insert _ _))

theorem stock_step {done : List (Rloc × Ipv6Addr)} {s s' : Poll} {e : PollEvent}
    (hr : s.pc.inRound) (he : e.Reports children) (hne : ∀ c iter, e ≠ .getNodeStatus c iter)
    (hown : PortOwnership s) (h : Stock m₀ pool done s) (hs : step coap s e = some s') :
    s'.pc = .exited ∨ s'.pc.inRound ∧ Stock m₀ pool (done ++ succeeded s e) s' := by
  have hs := Step.of_step hs
  cases hs with
  | networkStatus | newNodes | stop | sleep => exact absurd hr id
  | getNodeStatus => exact absurd rfl (hne _ _)
  | noOmrIp herr =>
    obtain ⟨-, omrAddr, ho⟩ := he _ rfl
    simp [OtMonitor.getOmrIp, ho, Except.mapError] at herr
  | exhausted hempty =>
    have := h.fits
    simp [PollPc.waiting, hempty] at this
  | omrIp | emit =>
    exact Or.inr ⟨inRound_next _ _ _, h.keep (handedOut_next _ _ _) (waiting_next _ _ _)⟩
  | reserve hp => exact Or.inr ⟨trivial, (List.append_nil done).symm ▸ h.reserve hp⟩
  | @recv m call pc rcvd d hpc =>
    rcases recv_cases coap call rcvd d with ⟨r, hr⟩ | ⟨a, hr⟩ | hr
    · rw [hr]
      exact Or.inr ⟨trivial, h.keep rfl rfl⟩
    · rw [hr]
      exact Or.inr ⟨trivial, h.keep rfl rfl⟩
    · exact Or.inl hr
  | registerNode => exact Or.inr ⟨trivial, h.registerNode (hown.handedOut _ rfl)⟩
  | returnPort =>
    exact Or.inr ⟨inRound_next _ _ _, (List.append_nil done).symm ▸ h.returnPort⟩
  | bound | notBound | recvErr | retryErr | elapsed | newHandler =>
    exact Or.inr ⟨trivial, h.keep rfl rfl⟩

theorem round_step (hnd : children.Nodup) {done : List (Rloc × Ipv6Addr)} {s s' : Poll}
    {e : PollEvent} (he : e.Reports children) (hne : ∀ c iter, e ≠ .getNodeStatus c iter)
    (h : Round m₀ pool children done s) (hs : step coap s e = some s') :
    s'.pc = .exited ∨ Round m₀ pool children (done ++ succeeded s e) s' := by
  have hfb : FallbackFree s e := by simp [FallbackFree, h.stock.fallback_none hs]
  have hrep : e.NoRepeat := fun c hc l hl => by
    obtain ⟨hl', -⟩ := he c hc
    rw [hl', Except.ok.injEq] at hl
    exact hl ▸ hnd
  rcases stock_step h.inRound he hne h.ownership h.stock hs with hex | ⟨hin, hstock⟩
  · exact Or.inl hex
  · refine Or.inr ⟨hin, hstock, (portOwnership_step h.taken h.ownership hs).mpr hfb,
      handedOutTaken_step h.taken hs, pairsApart_step s e s' hrep h.pairs hs, ?_⟩
    rw [List.append_assoc]
    exact ((List.Sublist.refl done).append (succeeded_append_pending h.inRound hs he).1).trans
      h.attempts

theorem round_run (hnd : children.Nodup) {ls : List PollEvent}
    (hls : ∀ e ∈ ls, e.Reports children ∧ ∀ c iter, e ≠ .getNodeStatus c iter) {s s' : Poll}
    (h0 : Round m₀ pool children [] s) (h : run (step coap) s ls = some s') :
    s'.pc = .exited ∨ Round m₀ pool children (outputs (step coap) succeeded s ls) s' := by
  refine run_outputs_induct succeeded
    (Q := fun done s => s.pc = .exited ∨ Round m₀ pool children done s)
    (Or.inr h0) (fun done t e t' he hQ ht => ?_) hls h
  rcases hQ with hex | hQ
  · obtain ⟨m, pc⟩ := t
    simp only at hex
    subst hex
    cases ht
  · exact round_step hnd he.1 he.2 hQ ht

theorem round_run_all (hnd : children.Nodup) {ls : List PollEvent}
    (hls : ∀ e ∈ ls, (e.Reports children ∧ ∀ c iter, e ≠ .getNodeStatus c iter) ∧ e ≠ .returnPort)
    {s : Poll} {m' : OtMonitor} (h0 : Round m₀ pool children [] s)
    (hall : s.pc.pending = m₀.newNodes children)
    (h : run (step coap) s ls = some ⟨m', .getNodeStatus⟩) :
    outputs (step coap) succeeded s ls = m₀.newNodes children := by
  have hQ := run_outputs_induct succeeded (Q := fun done s => s.pc = .exited ∨
      Round m₀ pool children done s ∧
        ((∃ call, s.pc = .returnPort call) ∨ done ++ s.pc.pending = m₀.newNodes children))
    (Or.inr ⟨h0, Or.inr hall⟩) (fun done t e t' he hQ ht => ?_) hls h
  · rcases hQ with hex | ⟨-, ⟨call, hpc⟩ | hpc⟩
    · cases hex
    · cases hpc
    · rwa [← List.append_nil (outputs _ _ _ _)]
  · obtain ⟨m, pc⟩ := t
    rcases hQ with hex | ⟨hR, ⟨call, hpc⟩ | hpc⟩
    · cases hex
      cases ht
    · cases hpc
      cases Step.of_step ht
      exact absurd rfl he.2
    · rcases round_step hnd he.1.1 he.1.2 hR ht with hex | hR'
      · exact Or.inl hex
      · rcases (succeeded_append_pending hR.inRound ht he.1.1).2 with heq | hex | hret
        · refine Or.inr ⟨hR', Or.inr ?_⟩
          rw [List.append_assoc, heq, hpc]
        · exact Or.inl hex
        · exact Or.inr ⟨hR', Or.inl hret⟩

end Round

section Effect

variable {coap : CoapLite} {m m' : OtMonitor} {pool : Finset NodeRcvPort}
  {children : List (Rloc × Ipv6Addr)} {ls : List PollEvent}

theorem step_sleep {s : Poll} {e : PollEvent} (h : step coap ⟨m, .sleep⟩ e = some s) :
    e = .sleep := by
  cases Step.of_step h
  rfl

theorem run_to_sleep {s : Poll} (hs : s.pc ≠ .sleep) (hls : .sleep ∉ ls)
    (h : run (step coap) s ls = some ⟨m', .sleep⟩) :
    ∃ ls₁ c iter m₁, ls = ls₁ ++ [.getNodeStatus c iter]
      ∧ (∀ e ∈ ls₁, ∀ c iter, e ≠ .getNodeStatus c iter)
      ∧ run (step coap) s ls₁ = some ⟨m₁, .getNodeStatus⟩
      ∧ m₁.nodes.Iter iter ∧ m' = (m₁.getNodeStatus c iter).2 := by
  rcases List.eq_nil_or_concat ls with rfl | ⟨ls₁, e, rfl⟩
  · simp only [run_nil, Option.some.injEq] at h
    exact absurd (by rw [h]) hs
  rw [List.concat_eq_append] at h hls ⊢
  obtain ⟨t, ht, hstep⟩ := run_concat.mp h
  obtain ⟨c, iter, rfl⟩ := step_to_sleep hstep rfl
  obtain ⟨hpc, hi, hm'⟩ := step_getNodeStatus hstep
  rw [hpc] at ht
  refine ⟨ls₁, c, iter, t.monitor, rfl, ?_, ht, hi, congrArg Poll.monitor hm'⟩
  rintro e he c' iter' rfl
  obtain ⟨a, b, rfl⟩ := List.append_of_mem he
  obtain ⟨u, -, hb⟩ := run_append_some.mp ht
  obtain ⟨v, hv, hb⟩ := run_cons.mp hb
  -- the state after an earlier one is asleep, and goes on with `.sleep`
  obtain ⟨-, -, rfl⟩ := step_getNodeStatus hv
  rcases b with _ | ⟨e, b⟩
  · simp at hb
  · obtain ⟨w, hw, -⟩ := run_cons.mp hb
    rw [step_sleep hw] at hls
    simp at hls

theorem checkNewNode_eq {c : OtClient} (hc : c.getChildIps = .ok children) :
    m.checkNewNode c = .ok (m.newNodes children) :=
  OtMonitor.checkNewNode_ok.mpr ⟨_, OtMonitor.getNodes_ok.mpr ⟨children, hc, rfl⟩, rfl⟩

structure PollRound (coap : CoapLite) (children : List (Rloc × Ipv6Addr)) (m : OtMonitor)
    (ls : List PollEvent) (m' : OtMonitor) : Prop where
  run : Transition.run (step coap) ⟨m, .checkNewNode⟩ ls = some ⟨m', .sleep⟩
  once : .sleep ∉ ls
  reports : ∀ e ∈ ls, e.Reports children

theorem PollRound.split (h : PollRound coap children m ls m') :
    ∃ ls₁ c iter m₁,
      (∀ e ∈ ls₁, e ∈ ls ∧ e.Reports children ∧ ∀ c iter, e ≠ .getNodeStatus c iter)
      ∧ Transition.run (step coap) ⟨m, .omrIp (m.newNodes children)⟩ ls₁ = some ⟨m₁, .getNodeStatus⟩
      ∧ m₁.nodes.Iter iter ∧ c.getChildIps = .ok children ∧ m' = (m₁.getNodeStatus c iter).2
      ∧ outputs (step coap) succeeded ⟨m, .checkNewNode⟩ ls
        = outputs (step coap) succeeded ⟨m, .omrIp (m.newNodes children)⟩ ls₁
      ∧ outputs (step coap) lost ⟨m, .checkNewNode⟩ ls
        = lost ⟨m₁, .getNodeStatus⟩ (.getNodeStatus c iter) := by
  obtain ⟨hrun, honce, hrep⟩ := h
  rcases ls with _ | ⟨e, ls⟩
  · simp at hrun
  obtain ⟨t, ht, hrun⟩ := run_cons.mp hrun
  cases Step.of_step ht with
  | @stop _ c _ herr =>
    obtain ⟨hc, -⟩ := hrep _ List.mem_cons_self c rfl
    rw [checkNewNode_eq hc] at herr
    cases herr
  | @newNodes _ c _ hnew =>
    obtain ⟨hc, -⟩ := hrep _ List.mem_cons_self c rfl
    rw [checkNewNode_eq hc] at hnew
    cases hnew
    obtain ⟨ls₁, c', iter, m₁, rfl, hne, hrun₁, hi, hm'⟩ :=
      run_to_sleep (by simp) (fun h => honce (List.mem_cons_of_mem _ h)) hrun
    have hrep' := fun e (he : e ∈ ls₁ ++ [.getNodeStatus c' iter]) =>
      hrep e (List.mem_cons_of_mem _ he)
    have hquiet : outputs (step coap) lost ⟨m, .omrIp (m.newNodes children)⟩ ls₁ = [] := by
      refine outputs_eq_nil fun t e he => ?_
      unfold lost
      split
      · exact absurd rfl (hne _ he _ _)
      · rfl
    refine ⟨ls₁, c', iter, m₁, fun e he => ⟨?_, hrep' e (List.mem_append_left _ he), hne e he⟩,
      hrun₁, hi, (hrep' _ (List.mem_append_right _ List.mem_cons_self) c' rfl).1, hm', ?_, ?_⟩
    · exact List.mem_cons_of_mem _ (List.mem_append_left _ he)
    · rw [outputs_cons ht, outputs_concat hrun₁]
      simp [succeeded]
    · rw [outputs_cons ht, outputs_concat hrun₁, hquiet]
      simp [lost]

/-- What a round does to the monitor: `active` is the child list, in scope, `done` the pairs
registered and `gone` what `GetNodeStatus` returned. -/
structure RoundEffect (m m' : OtMonitor) (pool : Finset NodeRcvPort)
    (active done gone : List (Rloc × Ipv6Addr)) : Prop where
  registered : ∀ q, Holds InternalRegistration.pair m'.nodes q ↔
    (Holds InternalRegistration.pair m.nodes q ∧ q ∈ active) ∨ q ∈ done
  onePort : UniqueBy InternalRegistration.pair m'.nodes
  gone_nodup : gone.Nodup
  mem_gone : ∀ q, q ∈ gone ↔ Holds InternalRegistration.pair m.nodes q
    ∧ ¬ Holds InternalRegistration.pair m'.nodes q
  partitions : m'.Partitions pool

theorem missingNodes_nodup {active : List (Rloc × Ipv6Addr)}
    {iter : List (NodeRcvPort × InternalRegistration)} (hi : m.nodes.Iter iter)
    (hu : UniqueBy InternalRegistration.pair m.nodes) :
    ((OtMonitor.missingNodes active iter).map (·.2)).Nodup := by
  rw [OtMonitor.missingNodes, List.map_filterMap, List.Nodup, List.pairwise_filterMap]
  refine (List.pairwise_map.mp hi.nodup).imp_of_mem fun {a b} ha hb hab q hq q' hq' => ?_
  simp only [Option.map_eq_some_iff] at hq hq'
  obtain ⟨x, hx, rfl⟩ := hq
  obtain ⟨y, hy, rfl⟩ := hq'
  split_ifs at hx hy
  cases hx
  cases hy
  exact fun h => hab (hu _ _ _ _ (hi.mem.mp ha) (hi.mem.mp hb) h)

section GetNodeStatus

variable {c : OtClient} {active : List (Rloc × Ipv6Addr)}
  {iter : List (NodeRcvPort × InternalRegistration)}

theorem holds_getNodeStatus_iff (ha : m.getNodes c = .ok active) (hi : m.nodes.Iter iter)
    (q : Rloc × Ipv6Addr) : Holds InternalRegistration.pair (m.getNodeStatus c iter).2.nodes q
      ↔ Holds InternalRegistration.pair m.nodes q ∧ q ∈ active := by
  obtain ⟨hn, -, -⟩ := OtMonitor.getNodeStatus_snd ha hi
  constructor
  · rintro ⟨p, n, hl, rfl⟩
    obtain ⟨hl, hact⟩ := (hn p n).mp hl
    exact ⟨⟨p, n, hl, rfl⟩, hact⟩
  · rintro ⟨⟨p, n, hl, rfl⟩, hact⟩
    exact ⟨p, n, (hn p n).mpr ⟨hl, hact⟩, rfl⟩

theorem mem_missingPairs (hi : m.nodes.Iter iter) (q : Rloc × Ipv6Addr) :
    q ∈ (OtMonitor.missingNodes active iter).map (·.2)
      ↔ Holds InternalRegistration.pair m.nodes q ∧ q ∉ active := by
  rw [List.mem_map]
  constructor
  · rintro ⟨⟨p, q⟩, hmem, rfl⟩
    obtain ⟨n, hl, rfl, hnot⟩ := (OtMonitor.mem_missingNodes hi).mp hmem
    exact ⟨⟨p, n, hl, rfl⟩, hnot⟩
  · rintro ⟨⟨p, n, hl, rfl⟩, hnot⟩
    exact ⟨(p, n.pair), (OtMonitor.mem_missingNodes hi).mpr ⟨n, hl, rfl, hnot⟩, rfl⟩

/-- A port is freed exactly when its node is evicted. -/
theorem cover_getNodeStatus (ha : m.getNodes c = .ok active) (hi : m.nodes.Iter iter)
    (p : NodeRcvPort) :
    p ∈ (m.getNodeStatus c iter).2.ports.ports ∨ p ∈ (m.getNodeStatus c iter).2.nodes
      ↔ p ∈ m.ports.ports ∨ p ∈ m.nodes := by
  obtain ⟨hn, hp, -⟩ := OtMonitor.getNodeStatus_snd ha hi
  rw [hp p]
  simp only [Finmap.mem_iff, hn]
  constructor
  · rintro ((hfree | ⟨n, hl, -⟩) | ⟨n, hl, -⟩)
    · exact Or.inl hfree
    · exact Or.inr ⟨n, hl⟩
    · exact Or.inr ⟨n, hl⟩
  · rintro (hfree | ⟨n, hl⟩)
    · exact Or.inl (Or.inl hfree)
    · by_cases hact : n.pair ∈ active
      · exact Or.inr ⟨n, hl, hact⟩
      · exact Or.inl (Or.inr ⟨n, hl, hact⟩)

end GetNodeStatus

theorem round_end {c : OtClient} {m₁ : OtMonitor} {done : List (Rloc × Ipv6Addr)}
    {iter : List (NodeRcvPort × InternalRegistration)}
    (h : Round m pool children done ⟨m₁, .getNodeStatus⟩) (hi : m₁.nodes.Iter iter)
    (hc : c.getChildIps = .ok children) :
    RoundEffect m (m₁.getNodeStatus c iter).2 pool (OtMonitor.inScope m.addr children) done
      (lost ⟨m₁, .getNodeStatus⟩ (.getNodeStatus c iter)) := by
  have haddr : m₁.addr = m.addr := h.stock.addr
  have ha : m₁.getNodes c = .ok (OtMonitor.inScope m.addr children) :=
    OtMonitor.getNodes_ok.mpr ⟨children, hc, by rw [haddr]⟩
  have hreg : ∀ q, Holds InternalRegistration.pair m₁.nodes q ↔
      Holds InternalRegistration.pair m.nodes q ∨ q ∈ done := h.stock.registered
  have hdone : ∀ q ∈ done, q ∈ OtMonitor.inScope m.addr children := fun q hq =>
    List.mem_of_mem_filter (h.attempts.subset (List.mem_append_left _ hq))
  have hlost : lost ⟨m₁, .getNodeStatus⟩ (.getNodeStatus c iter)
      = (OtMonitor.missingNodes (OtMonitor.inScope m.addr children) iter).map (·.2) := by
    simp only [lost, OtMonitor.getNodeStatus_fst ha]
  refine ⟨?_, ?_, ?_, ?_, ?_, ?_⟩
  · intro q
    rw [holds_getNodeStatus_iff ha hi, hreg]
    have := hdone q
    tauto
  · obtain ⟨hn, -, -⟩ := OtMonitor.getNodeStatus_snd ha hi
    exact h.pairs.registered.of_le fun p n hl => ((hn p n).mp hl).1
  · rw [hlost]
    exact missingNodes_nodup hi h.pairs.registered
  · intro q
    rw [hlost, mem_missingPairs hi, holds_getNodeStatus_iff ha hi, hreg]
    have := hdone q
    tauto
  · intro p
    have hcover : p ∈ pool ↔ p ∈ m₁.ports.ports ∨ p ∈ m₁.nodes ∨ p ∈ none := h.stock.cover p
    rw [hcover, cover_getNodeStatus ha hi]
    simp only [Option.not_mem_none, or_false]
  · exact free_getNodeStatus hi h.ownership.free

theorem round_start (hpart : m.Partitions pool) (hpair : UniqueBy InternalRegistration.pair m.nodes)
    (hnd : children.Nodup) (hfits : (m.newNodes children).length ≤ m.ports.ports.card) :
    Round m pool children [] ⟨m, .omrIp (m.newNodes children)⟩ where
  inRound := trivial
  stock := ⟨rfl, fun p => (hpart.cover p).trans (by simp [PollPc.handedOut]),
    fun q => by simp, hfits⟩
  ownership := ⟨hpart.disjoint, fun p hp => by simp [PollPc.handedOut] at hp⟩
  taken p hp := by simp [PollPc.handedOut] at hp
  pairs := ⟨hpair, (inScope_nodup hnd).filter _, fun q hq => by
    have := List.of_mem_filter hq
    simpa using this⟩
  attempts := List.Sublist.refl _

theorem idle_round (hall : ∀ q, Holds InternalRegistration.pair m.nodes q ↔
      q ∈ OtMonitor.inScope m.addr children) (h : PollRound coap children m ls m') :
    m' = m ∧ outputs (step coap) succeeded ⟨m, .checkNewNode⟩ ls = []
      ∧ outputs (step coap) lost ⟨m, .checkNewNode⟩ ls = [] := by
  have hnew : m.newNodes children = [] := by
    refine List.filter_eq_nil_iff.mpr fun q hq => ?_
    simpa using (hall q).mpr hq
  obtain ⟨ls₁, c, iter, m₁, hrep, hrun, hi, hc, rfl, hsucc, hlost⟩ := h.split
  rw [hnew] at hrun hsucc
  -- the only step left before `GetNodeStatus` asks for the broker's address
  have hshort : m₁ = m ∧ outputs (step coap) succeeded ⟨m, .omrIp []⟩ ls₁ = [] := by
    rcases ls₁ with _ | ⟨e, ls₁⟩
    · simp at hrun
    obtain ⟨t, ht, hrun⟩ := run_cons.mp hrun
    have hpc : t = ⟨m, .getNodeStatus⟩ ∧ succeeded ⟨m, .omrIp []⟩ e = [] := by
      cases Step.of_step ht <;> exact ⟨rfl, rfl⟩
    obtain ⟨rfl, hout⟩ := hpc
    rcases ls₁ with _ | ⟨e', ls₁⟩
    · simp only [run_nil, Option.some.injEq, Poll.mk.injEq, and_true] at hrun
      exact ⟨hrun.symm, by rw [outputs_cons ht, hout, outputs, List.nil_append]⟩
    · obtain ⟨u, hu, -⟩ := run_cons.mp hrun
      cases Step.of_step hu
      exact absurd rfl ((hrep _ (List.mem_cons_of_mem _ List.mem_cons_self)).2.2 _ _)
  obtain ⟨rfl, hnone⟩ := hshort
  have ha : m₁.getNodes c = .ok (OtMonitor.inScope m₁.addr children) :=
    OtMonitor.getNodes_ok.mpr ⟨children, hc, rfl⟩
  have hmissing : OtMonitor.missingNodes (OtMonitor.inScope m₁.addr children) iter = [] := by
    refine List.eq_nil_iff_forall_not_mem.mpr fun e hmem => ?_
    obtain ⟨p, q⟩ := e
    obtain ⟨n, hl, rfl, hnot⟩ := (OtMonitor.mem_missingNodes hi).mp hmem
    exact hnot ((hall _).mp ⟨p, n, hl, rfl⟩)
  refine ⟨?_, hsucc.trans hnone, ?_⟩
  · simp only [OtMonitor.getNodeStatus, ha, hmissing, List.foldl_nil]
  · rw [hlost]
    simp only [lost, OtMonitor.getNodeStatus_fst ha, hmissing, List.map_nil]

/-- A round whose client answers with one child list throughout, and with a free port for each new
node, has the effect above; and if every attempt succeeded, a further round with the same list
registers nothing, loses nothing and changes nothing. -/
theorem poll_round (coap : CoapLite) (m m' : OtMonitor) (pool : Finset NodeRcvPort)
    (children : List (Rloc × Ipv6Addr)) (ls : List PollEvent) (hpart : m.Partitions pool)
    (hpair : UniqueBy InternalRegistration.pair m.nodes) (hnd : children.Nodup)
    (hfits : (m.newNodes children).length ≤ m.ports.ports.card)
    (h : PollRound coap children m ls m') :
    RoundEffect m m' pool (OtMonitor.inScope m.addr children)
        (outputs (step coap) succeeded ⟨m, .checkNewNode⟩ ls)
        (outputs (step coap) lost ⟨m, .checkNewNode⟩ ls)
      ∧ (.returnPort ∉ ls → ∀ ls' m'', PollRound coap children m' ls' m'' →
          m'' = m' ∧ outputs (step coap) succeeded ⟨m', .checkNewNode⟩ ls' = []
            ∧ outputs (step coap) lost ⟨m', .checkNewNode⟩ ls' = []) := by
  have hstart := round_start hpart hpair hnd hfits
  obtain ⟨ls₁, c, iter, m₁, hrep, hrun, hi, hc, rfl, hsucc, hlost⟩ := h.split
  have hround : Round m pool children
      (outputs (step coap) succeeded ⟨m, .omrIp (m.newNodes children)⟩ ls₁) ⟨m₁, .getNodeStatus⟩ :=
    (round_run hnd (fun e he => (hrep e he).2) hstart hrun).resolve_left nofun
  have heffect := round_end hround hi hc
  rw [hsucc, hlost]
  refine ⟨heffect, fun hret ls' m'' h' => idle_round (fun q => ?_) h'⟩
  have hdone := round_run_all hnd
    (fun e he => ⟨(hrep e he).2, fun heq => hret (heq ▸ (hrep e he).1)⟩) hstart rfl hrun
  have haddr : (m₁.getNodeStatus c iter).2.addr = m.addr := by
    have ha : m₁.getNodes c = .ok (OtMonitor.inScope m₁.addr children) :=
      OtMonitor.getNodes_ok.mpr ⟨children, hc, rfl⟩
    exact (OtMonitor.getNodeStatus_snd ha hi).2.2.trans hround.stock.addr
  rw [heffect.registered q, hdone, haddr, OtMonitor.newNodes, List.mem_filter]
  simp only [decide_not, Bool.not_eq_eq_eq_not, Bool.not_true, decide_eq_false_iff_not]
  tauto

end Effect

/-- A node is registered, and it is gone from the child list, where another one is new. -/
def changing : OtMonitor where
  nodes := Finmap.insert 1213 ⟨0x4401, ipOf 1, 1213, .of 0x60 0x55 0xf9 0xf6 0 1⟩ ∅
  ports := ⟨1213, {1214, 1215}⟩
  addr := omrIp

theorem poll_round_changing :
    let children := [(0x4402, ipOf 2)]
    let ls := (roundOf children [(1215, reply 1215 2)]).tail ++ [.getNodeStatus (mesh children)
      [(1213, ⟨0x4401, ipOf 1, 1213, .of 0x60 0x55 0xf9 0xf6 0 1⟩),
        (1215, ⟨0x4402, ipOf 2, 1215, .of 0x60 0x55 0xf9 0xf6 0 2⟩)]]
    ∃ m', PollRound .wire children changing ls m'
      ∧ RoundEffect changing m' {1213, 1214, 1215} children children [(0x4401, ipOf 1)] := by
  intro children ls
  obtain ⟨s, hs, hpc⟩ : ∃ s ∈ run (step .wire) ⟨changing, .checkNewNode⟩ ls, s.pc = .sleep := by
    decide +kernel
  have hround : PollRound .wire children changing ls s.monitor := by
    refine ⟨?_, by simp [ls, roundOf, registerOn], ?_⟩
    · rw [← hpc]
      exact hs
    · intro e he
      simp only [ls, roundOf, registerOn, List.cons_append, List.tail_cons, List.nil_append,
        List.flatMap_cons, List.flatMap_nil, List.append_nil, List.mem_cons, List.not_mem_nil,
        or_false] at he
      rcases he with rfl | rfl | rfl | rfl | rfl | rfl | rfl | rfl | rfl <;>
        simp [PollEvent.Reports, PollEvent.otClient, mesh]
  refine ⟨s.monitor, hround, ?_⟩
  have hpart : changing.Partitions {1213, 1214, 1215} :=
    ⟨fun p => by simp [changing]; tauto, by decide +kernel⟩
  have hpair : UniqueBy InternalRegistration.pair changing.nodes :=
    (uniqueBy_empty _).insert (not_holds_empty _ _)
  exact (poll_round .wire changing s.monitor {1213, 1214, 1215} children ls hpart hpair (by decide)
    (by decide +kernel) hround).1

end Poll

end Pmind
