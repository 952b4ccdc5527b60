import Pmind.Lib.Run
import Pmind.Proofs.Monitor
import Pmind.Scope

/-!
# Whether the addresses are in the OMR prefix

The monitor compares nothing but the first of the four segments of a prefix. So the address it takes
and those it reports are in the prefix exactly if none of them agrees in the first segment only.
-/

namespace Pmind

open HashMap Transition

namespace Scoped

/-- A status that returns `Ok` leaves the monitor's address in the prefix, and new nodes are
reported with an address in the prefix the monitor is in. -/
def Respected (s : Scoped) : MonitorMessage → Prop
  | .monitorNetworkStatus client later => ∀ p ∈ s.told (.monitorNetworkStatus client later),
      p.Contains (s.monitor.monitorNetworkStatus (client.otClientThen later)).2.addr
  | .checkNewNode client => ∀ p ∈ s.kept (.checkNewNode client),
      ∀ nodes ∈ (s.monitor.checkNewNode client.otClient).toOption, ∀ q ∈ nodes, p.Contains q.2
  | _ => True

/-- An address that counts as the prefix's by its first segment is in it: the monitor's own if it
needs no update, else the first of the broker's; and those of the children not registered. -/
def Decided (s : Scoped) : MonitorMessage → Prop
  | .monitorNetworkStatus client later =>
    match s.monitor.checkAddrUpdateNeeded (client.otClientThen later) with
    | .ok false => ∀ p ∈ client.getOmrPrefixFromCli.toOption, p.Contains s.monitor.addr
    | .ok true => ∀ p ∈ later.getOmrPrefixFromCli.toOption,
        ∀ ips ∈ later.getIpAddrsFromCli.toOption,
          ∀ a ∈ ips.find? fun a => a.segment0 = p.addr.segment0, p.Contains a
    | .error _ => True
  | .checkNewNode client => ∀ p ∈ s.kept (.checkNewNode client),
      ∀ children ∈ client.getChildrenFromCli.toOption, ∀ q ∈ children,
        q.2.segment0 = p.addr.segment0 →
          ¬ Holds InternalRegistration.pair s.monitor.nodes q → p.Contains q.2
  | _ => True

/-- The monitor's address agrees with the prefix it is in, in the first segment. -/
def Aligned (s : Scoped) : Prop :=
  ∀ p ∈ s.scope, s.monitor.addr.segment0 = p.addr.segment0

variable {m : OtMonitor} {c : OtCliClient}

theorem mem_toOption {ε α : Type} {x : Except ε α} {a : α} : a ∈ x.toOption ↔ x = .ok a := by
  rcases x with e | b <;> simp [Except.toOption]

/-! ## `MonitorNetworkStatus` -/

/-- The address is kept only if its first segment is the prefix's. -/
theorem checkAddrUpdateNeeded_false {d : OtClient} (h : m.checkAddrUpdateNeeded d = .ok false) :
    ∃ p, d.getOmrPrefix = .ok p ∧ m.addr.segment0 = p.addr.segment0 := by
  unfold OtMonitor.checkAddrUpdateNeeded at h
  split_ifs at h
  · cases h
  · rcases hp : d.getOmrPrefix with e | p <;> rw [hp] at h
    · cases h
    · refine ⟨p, rfl, ?_⟩
      simpa [Except.mapError, Except.map] using h

theorem getOmrIpAddrFromCli_ok {a : Ipv6Addr} : c.getOmrIpAddrFromCli = .ok a ↔
    ∃ p ips, c.getOmrPrefixFromCli = .ok p ∧ c.getIpAddrsFromCli = .ok ips
      ∧ ips.find? (fun i => i.segment0 = p.addr.segment0) = some a := by
  unfold OtCliClient.getOmrIpAddrFromCli
  rcases c.getOmrPrefixFromCli with e | p
  · simp
  · rcases c.getIpAddrsFromCli with e | ips
    · simp
    · simp only [Except.ok.injEq, exists_and_left, exists_eq_left']
      rcases ips.find? _ with _ | b
      · simp
      · simp only [Except.ok.injEq, Option.some.injEq]

/-- Everything a status can do: fail, keep the monitor's address, or take the broker's. -/
theorem status_cases (m : OtMonitor) (c later : OtCliClient) :
    (∃ e, m.monitorNetworkStatus (c.otClientThen later) = (.error e, m)
      ∧ (m.checkAddrUpdateNeeded (c.otClientThen later) = .ok true →
        ∀ a, later.getOmrIpAddrFromCli ≠ .ok a)
      ∧ m.checkAddrUpdateNeeded (c.otClientThen later) ≠ .ok false)
    ∨ (m.monitorNetworkStatus (c.otClientThen later) = (.ok (), m)
      ∧ m.checkAddrUpdateNeeded (c.otClientThen later) = .ok false)
    ∨ ∃ addr, m.monitorNetworkStatus (c.otClientThen later) = (.ok (), { m with addr })
      ∧ m.checkAddrUpdateNeeded (c.otClientThen later) = .ok true
      ∧ later.getOmrIpAddrFromCli = .ok addr := by
  unfold OtMonitor.monitorNetworkStatus
  rcases hneeded : m.checkAddrUpdateNeeded (c.otClientThen later) with e | needed
  · exact Or.inl ⟨e, rfl, by simp⟩
  · cases needed with
    | false => exact Or.inr (Or.inl ⟨rfl, rfl⟩)
    | true =>
      rcases ha : later.getOmrIpAddrFromCli with e | addr
      · refine Or.inl ⟨.otClientError e, ?_, by simp⟩
        simp [OtMonitor.updateAddr, OtMonitor.getOmrIp, OtCliClient.otClientThen, ha,
          Except.mapError, Except.map]
      · refine Or.inr (Or.inr ⟨addr, ?_, rfl, rfl⟩)
        simp [OtMonitor.updateAddr, OtMonitor.getOmrIp, OtCliClient.otClientThen, ha,
          Except.mapError, Except.map]

theorem respected_status_iff (s : Scoped) (c later : OtCliClient) :
    Respected s (.monitorNetworkStatus c later) ↔ Decided s (.monitorNetworkStatus c later) := by
  rcases status_cases s.monitor c later with
    ⟨e, h, hne, hfalse⟩ | ⟨h, hneeded⟩ | ⟨a, h, hneeded, ha⟩
  · refine iff_of_true (by simp [Respected, told, h]) ?_
    rcases hneeded : s.monitor.checkAddrUpdateNeeded (c.otClientThen later) with e | _ | _
    · simp only [Decided, hneeded]
    · exact absurd hneeded hfalse
    · simp only [Decided, hneeded]
      intro p hp ips hips a ha
      refine absurd (getOmrIpAddrFromCli_ok.mpr ⟨p, ips, ?_, ?_, ha⟩) (hne hneeded a)
      · exact mem_toOption.mp hp
      · exact mem_toOption.mp hips
  · simp only [Respected, Decided, told, h, hneeded]
  · obtain ⟨p, ips, hp, hips, hfind⟩ := getOmrIpAddrFromCli_ok.mp ha
    simp only [Respected, Decided, told, h, hneeded, hp, hips, hfind, Except.toOption,
      Option.mem_some, forall_eq']

/-! ## `CheckNewNode` -/

/-- The nodes a `CheckNewNode` reports. -/
theorem checkNewNode_iff {nodes : List (Rloc × Ipv6Addr)} :
    m.checkNewNode c.otClient = .ok nodes ↔ ∃ children, c.getChildrenFromCli = .ok children
      ∧ nodes = (OtMonitor.inScope m.addr children).filter fun q =>
        ¬ Holds InternalRegistration.pair m.nodes q := by
  rw [OtMonitor.checkNewNode_ok]
  constructor
  · rintro ⟨active, ha, rfl⟩
    obtain ⟨children, hc, rfl⟩ := OtMonitor.getNodes_ok.mp ha
    exact ⟨children, hc, rfl⟩
  · rintro ⟨children, hc, rfl⟩
    exact ⟨_, OtMonitor.getNodes_ok.mpr ⟨children, hc, rfl⟩, rfl⟩

theorem respected_checkNewNode_iff {s : Scoped} (hs : Aligned s) (c : OtCliClient) :
    Respected s (.checkNewNode c) ↔ Decided s (.checkNewNode c) := by
  refine forall₂_congr fun p hp => ?_
  have hseg : s.monitor.addr.segment0 = p.addr.segment0 := hs p (Option.mem_filter_iff.mp hp).1
  constructor
  · intro h children hc q hq hq0 hnew
    have hnodes := (checkNewNode_iff (m := s.monitor)).mpr ⟨children, mem_toOption.mp hc, rfl⟩
    refine h _ (mem_toOption.mpr hnodes) q ?_
    simp only [OtMonitor.inScope, List.mem_filter, decide_eq_true_eq]
    exact ⟨⟨hq, hq0.trans hseg.symm⟩, hnew⟩
  · intro h nodes hnodes q hq
    obtain ⟨children, hc, rfl⟩ := checkNewNode_iff.mp (mem_toOption.mp hnodes)
    simp only [OtMonitor.inScope, List.mem_filter, decide_eq_true_eq] at hq
    obtain ⟨⟨hq, hq0⟩, hnew⟩ := hq
    exact h children (mem_toOption.mpr hc) q hq (hq0.trans hseg) hnew

/-! ## The run -/

theorem respected_iff {s : Scoped} (hs : Aligned s) (msg : MonitorMessage) :
    Respected s msg ↔ Decided s msg := by
  cases msg with
  | monitorNetworkStatus c later => exact respected_status_iff s c later
  | checkNewNode c => exact respected_checkNewNode_iff hs c
  | _ => exact Iff.rfl

theorem aligned_status {s : Scoped} (hs : Aligned s) (c later : OtCliClient) :
    ∀ p ∈ (s.told (.monitorNetworkStatus c later)).or (s.kept (.monitorNetworkStatus c later)),
      (s.monitor.monitorNetworkStatus (c.otClientThen later)).2.addr.segment0
        = p.addr.segment0 := by
  intro p hmem
  rcases status_cases s.monitor c later with ⟨e, h, -⟩ | ⟨h, hneeded⟩ | ⟨a, h, hneeded, ha⟩
  · simp only [told, h, Option.none_or] at hmem
    rw [h]
    exact hs p (Option.mem_filter_iff.mp hmem).1
  · obtain ⟨q, hq, hseg⟩ := checkAddrUpdateNeeded_false hneeded
    have hq : c.getOmrPrefixFromCli = .ok q := hq
    simp only [told, h, hneeded, hq, Except.toOption, Option.some_or, Option.mem_some] at hmem
    rw [h, ← hmem]
    exact hseg
  · obtain ⟨q, ips, hq, -, hfind⟩ := getOmrIpAddrFromCli_ok.mp ha
    simp only [told, h, hneeded, hq, Except.toOption, Option.some_or, Option.mem_some] at hmem
    rw [h, ← hmem]
    simpa using List.find?_some hfind

/-- No other message changes the monitor's address. -/
theorem handle_addr {msg : MonitorMessage} (h : ∀ c later, msg ≠ .monitorNetworkStatus c later)
    (m : OtMonitor) : (m.handle msg).addr = m.addr := by
  cases msg with
  | monitorNetworkStatus c later => exact absurd rfl (h c later)
  | getNodeStatus c iter =>
    rcases hnodes : m.getNodes c.otClient with e | active
    · simp only [OtMonitor.handle, OtMonitor.getNodeStatus, hnodes]
    · simp only [OtMonitor.handle, OtMonitor.getNodeStatus, hnodes]
      exact (OtMonitor.evict_foldl _ m).2.2
  | _ => rfl

theorem aligned_step (s : Scoped) (msg : MonitorMessage) (s' : Scoped) (hs : Aligned s)
    (h : step s msg = some s') : Aligned s' := by
  cases h
  by_cases hstatus : ∃ c later, msg = .monitorNetworkStatus c later
  · obtain ⟨c, later, rfl⟩ := hstatus
    exact aligned_status hs c later
  · have hne : ∀ c later, msg ≠ .monitorNetworkStatus c later := fun c later h =>
      hstatus ⟨c, later, h⟩
    have htold : s.told msg = none := by
      cases msg with
      | monitorNetworkStatus c later => exact absurd rfl (hne c later)
      | _ => rfl
    intro p hp
    simp only [htold, Option.none_or] at hp
    simp only [handle_addr hne]
    exact hs p (Option.mem_filter_iff.mp hp).1

theorem aligned_init (m : OtMonitor) : Aligned (init m) := fun p hp => by cases hp

/-- In every run of the monitor the addresses are in the prefix exactly if the first segment decides
it for every address that is compared with it. -/
theorem respected_everyStep_iff (m : OtMonitor) (msgs : List MonitorMessage) :
    EveryStep step Respected (init m) msgs ↔ EveryStep step Decided (init m) msgs :=
  everyStep_iff_of_invariant (fun s msg s' hs _ => aligned_step s msg s' hs)
    (fun s msg hs => respected_iff hs msg) (aligned_init m)

instance (s : Scoped) : (msg : MonitorMessage) → Decidable (Respected s msg)
  | .monitorNetworkStatus client later => inferInstanceAs (Decidable
      (∀ p ∈ s.told (.monitorNetworkStatus client later),
        p.Contains (s.monitor.monitorNetworkStatus (client.otClientThen later)).2.addr))
  | .checkNewNode client => inferInstanceAs (Decidable (∀ p ∈ s.kept (.checkNewNode client),
      ∀ nodes ∈ (s.monitor.checkNewNode client.otClient).toOption, ∀ q ∈ nodes, p.Contains q.2))
  | .getNodeStatus _ _ | .internalRegistration _ | .omrIp _ | .reserveFreePort _
  | .returnFreePort _ => inferInstanceAs (Decidable True)

/-- The prefix has 64 bits, and the broker an address in it. -/
def Attached (client : OtCliClient) : Prop :=
  ∀ p ∈ client.getOmrPrefixFromCli.toOption, p.prefixLen = 64
    ∧ ∀ ips ∈ client.getIpAddrsFromCli.toOption, ∃ a ∈ ips, p.Contains a

instance (client : OtCliClient) : Decidable (Attached client) :=
  inferInstanceAs (Decidable (∀ p ∈ client.getOmrPrefixFromCli.toOption, p.prefixLen = 64
    ∧ ∀ ips ∈ client.getIpAddrsFromCli.toOption, ∃ a ∈ ips, p.Contains a))

/-- The client's prefix is `fd11:0:0:n::/64`, and the broker's address `fd11:0:0:n::1`. -/
def clientIn (n : UInt16) (childip : List Char) : OtCliClient where
  childip := .ok childip
  omrPrefix := .ok ⟨Ipv6Addr.new 0xfd11 0 0 n 0 0 0 0, 64⟩
  ipaddr := .ok ("fd11:0:0:".toList ++ Ipv6Addr.hex n ++ "::1\r\nDone".toList)

/-- A new prefix with the same first segment is not noticed, and a child's address outside the
prefix is reported. -/
theorem not_respected : (∀ n ∈ [1, 2], ∀ childip, Attached (clientIn n childip))
    ∧ ¬ EveryStep step Respected (init (OtMonitor.new (clientIn 1 []).otClient))
        [.monitorNetworkStatus (clientIn 2 []) (clientIn 2 [])]
    ∧ ¬ EveryStep step Respected (init (OtMonitor.new (clientIn 1 []).otClient))
        [.monitorNetworkStatus (clientIn 1 []) (clientIn 1 []),
          .checkNewNode (clientIn 1 "4401: fd11:0:0:7::5\r\nDone".toList)] := by
  refine ⟨fun n hn childip => ?_, by decide +kernel, by decide +kernel⟩
  have hnil : ∀ n ∈ [1, 2], Attached (clientIn n []) := by decide +kernel
  exact hnil n hn

end Scoped

end Pmind
