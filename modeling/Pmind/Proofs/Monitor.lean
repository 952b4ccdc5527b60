import Pmind.Monitor

/-!
# What each monitor message does

The state after a message, field by field. `GetNodeStatus` drops the entries missing from the
active nodes and frees their ports, whatever order it visits them in.
-/

namespace Pmind

namespace OtMonitor

open HashMap

variable {m : OtMonitor} {c : OtClient}

@[simp] theorem registerNode_nodes (n : InternalRegistration) :
    (m.registerNode n).nodes = m.nodes.insert n.port n := rfl

@[simp] theorem registerNode_ports (n : InternalRegistration) :
    (m.registerNode n).ports = m.ports := rfl

@[simp] theorem returnPort_nodes (p : NodeRcvPort) : (m.returnPort p).nodes = m.nodes := rfl

@[simp] theorem returnPort_ports (p : NodeRcvPort) :
    (m.returnPort p).ports.ports = insert p m.ports.ports := rfl

theorem monitorNetworkStatus_snd :
    (m.monitorNetworkStatus c).2.nodes = m.nodes
      ∧ (m.monitorNetworkStatus c).2.ports = m.ports := by
  unfold monitorNetworkStatus
  split
  · exact ⟨rfl, rfl⟩
  · exact ⟨rfl, rfl⟩
  · split
    · exact ⟨rfl, rfl⟩
    · rename_i m' h
      unfold updateAddr at h
      rcases hg : getOmrIp c with e | a <;> rw [hg] at h <;> simp only [Except.map] at h
      · cases h
      · cases h
        exact ⟨rfl, rfl⟩

theorem getFreePort_some {p : NodeRcvPort} (hp : p ∈ m.ports.ports) :
    m.getFreePort (some p)
      = (.ok p, { m with ports := { m.ports with ports := m.ports.ports.erase p } }) := by
  have hne : m.ports.ports ≠ ∅ := Finset.ne_empty_of_mem hp
  simp [getFreePort, Ports.getFreePort, hne]

theorem getFreePort_empty {top : Option NodeRcvPort} (h : m.ports.ports = ∅) :
    m.getFreePort top = (.error (.portError "No free ports available"), m) := by
  simp [getFreePort, Ports.getFreePort, h]

theorem getNodes_ok {active : List (Rloc × Ipv6Addr)} :
    m.getNodes c = .ok active ↔
      ∃ children, c.getChildIps = .ok children ∧ active = inScope m.addr children := by
  unfold getNodes
  rcases c.getChildIps with e | children <;>
    simp [Except.map, Except.mapError, eq_comm]

theorem checkNewNode_ok {nodes : List (Rloc × Ipv6Addr)} :
    m.checkNewNode c = .ok nodes ↔ ∃ active, m.getNodes c = .ok active
      ∧ nodes = active.filter fun node => ¬ Holds InternalRegistration.pair m.nodes node := by
  unfold checkNewNode
  rcases m.getNodes c with e | active <;> simp [Except.map, eq_comm]

/-! ## Evictions -/

@[simp] theorem evictNode_nodes (p : NodeRcvPort) : (m.evictNode p).nodes = m.nodes.erase p := rfl

@[simp] theorem evictNode_ports (p : NodeRcvPort) :
    (m.evictNode p).ports.ports = insert p m.ports.ports := rfl

theorem evict_foldl {β : Type*} : ∀ (ks : List (NodeRcvPort × β)) (m : OtMonitor),
    (∀ p, (ks.foldl (fun m node => m.evictNode node.1) m).nodes.lookup p
        = if p ∈ ks.map Prod.fst then none else m.nodes.lookup p)
      ∧ (∀ p, p ∈ (ks.foldl (fun m node => m.evictNode node.1) m).ports.ports
          ↔ p ∈ m.ports.ports ∨ p ∈ ks.map Prod.fst)
      ∧ (ks.foldl (fun m node => m.evictNode node.1) m).addr = m.addr
  | [], m => by simp
  | k :: ks, m => by
    obtain ⟨h1, h2, h3⟩ := evict_foldl ks (m.evictNode k.1)
    simp only [List.foldl_cons, List.map_cons, List.mem_cons]
    refine ⟨?_, ?_, h3⟩
    · intro p
      rw [h1, evictNode_nodes, lookup_erase_eq]
      by_cases hp : p = k.1
      · simp [hp]
      · simp only [hp, false_or, if_false]
    · intro p
      rw [h2, evictNode_ports, Finset.mem_insert]
      tauto

theorem mem_missingNodes {active : List (Rloc × Ipv6Addr)}
    {iter : List (NodeRcvPort × InternalRegistration)} (hi : m.nodes.Iter iter) {p : NodeRcvPort}
    {q : Rloc × Ipv6Addr} :
    (p, q) ∈ missingNodes active iter ↔
      ∃ n, m.nodes.lookup p = some n ∧ n.pair = q ∧ q ∉ active := by
  simp only [missingNodes, List.mem_filterMap, Prod.exists]
  constructor
  · rintro ⟨k, n, hmem, h⟩
    split_ifs at h with ha
    simp only [Option.some.injEq, Prod.mk.injEq] at h
    obtain ⟨rfl, rfl⟩ := h
    exact ⟨n, hi.mem.mp hmem, rfl, ha⟩
  · rintro ⟨n, hn, rfl, ha⟩
    exact ⟨p, n, hi.mem.mpr hn, by rw [if_neg ha]⟩

theorem mem_missing_keys {active : List (Rloc × Ipv6Addr)}
    {iter : List (NodeRcvPort × InternalRegistration)} (hi : m.nodes.Iter iter) {p : NodeRcvPort} :
    p ∈ (missingNodes active iter).map Prod.fst ↔
      ∃ n, m.nodes.lookup p = some n ∧ n.pair ∉ active := by
  rw [List.mem_map]
  constructor
  · rintro ⟨⟨k, q⟩, hq, rfl⟩
    obtain ⟨n, hn, rfl, ha⟩ := (mem_missingNodes hi).mp hq
    exact ⟨n, hn, ha⟩
  · rintro ⟨n, hn, ha⟩
    exact ⟨(p, n.pair), (mem_missingNodes hi).mpr ⟨n, hn, rfl, ha⟩, rfl⟩

/-- An answered `GetNodeStatus` keeps the nodes that are active and frees the others' ports. -/
theorem getNodeStatus_snd {active : List (Rloc × Ipv6Addr)} (ha : m.getNodes c = .ok active)
    {iter : List (NodeRcvPort × InternalRegistration)} (hi : m.nodes.Iter iter) :
    (∀ p n, (m.getNodeStatus c iter).2.nodes.lookup p = some n ↔
        m.nodes.lookup p = some n ∧ n.pair ∈ active)
      ∧ (∀ p, p ∈ (m.getNodeStatus c iter).2.ports.ports ↔
          p ∈ m.ports.ports ∨ ∃ n, m.nodes.lookup p = some n ∧ n.pair ∉ active)
      ∧ (m.getNodeStatus c iter).2.addr = m.addr := by
  have hk : ∀ p, p ∈ (missingNodes active iter).map Prod.fst ↔
      ∃ n, m.nodes.lookup p = some n ∧ n.pair ∉ active := fun _ => mem_missing_keys hi
  obtain ⟨h1, h2, h3⟩ := evict_foldl (missingNodes active iter) m
  simp only [getNodeStatus, ha]
  refine ⟨fun p n => ?_, fun p => by rw [h2, hk], h3⟩
  rw [h1]
  split_ifs with hp
  · obtain ⟨n', hn', ha'⟩ := (hk p).mp hp
    rw [hn']
    simp only [Option.some.injEq, false_iff, not_and]
    rintro rfl
    exact ha'
  · refine ⟨fun h => ⟨h, ?_⟩, fun h => h.1⟩
    by_contra hn
    exact hp ((hk p).mpr ⟨n, h, hn⟩)

theorem getNodeStatus_error {e : OtMonitorError} (ha : m.getNodes c = .error e)
    (iter : List (NodeRcvPort × InternalRegistration)) :
    m.getNodeStatus c iter = (.error e, m) := by
  simp only [getNodeStatus, ha]

theorem getNodeStatus_fst {active : List (Rloc × Ipv6Addr)} (ha : m.getNodes c = .ok active)
    (iter : List (NodeRcvPort × InternalRegistration)) :
    (m.getNodeStatus c iter).1 = .ok ((missingNodes active iter).map (·.2)) := by
  simp only [getNodeStatus, ha]

end OtMonitor

end Pmind
