import Pmind.Proofs.Minder

/-!
# The history of a device

If no two devices ever register one address, a device's address has an entry throughout, and no
other device's registration touches it. A registration carries the history along, whether or not
the new address has an entry from before; a batch appends what is from the address, and drops 5 only
where 45 remain.
-/

namespace Pmind

open HashMap Transition

theorem Node.took_history {a : Node} {rs data : List NodeSensorReading} (hs : a.history <:+ rs)
    (hlen : min rs.length 45 ≤ a.history.length) :
    (a.took data).history <:+ rs ++ data
      ∧ min (rs ++ data).length 45 ≤ (a.took data).history.length := by
  unfold Node.took Node.received
  split_ifs with hd hfull
  · rw [List.isEmpty_iff.mp hd, List.append_nil]
    exact ⟨hs, hlen⟩
  · simp only [List.length_append, List.length_drop]
    unfold maxWindow at hfull
    refine ⟨?_, by omega⟩
    exact List.suffix_append_inj_of_length_eq rfl |>.mpr ⟨(List.drop_suffix 5 _).trans hs, rfl⟩
  · simp only [List.length_append]
    refine ⟨?_, by omega⟩
    exact List.suffix_append_inj_of_length_eq rfl |>.mpr ⟨hs, rfl⟩

def MinderEvent.registrations : MinderEvent → List Registration
  | .nodeState (.registration reg) => [reg]
  | _ => []

namespace PlantMinder

/-- The address a device was last registered at. -/
def registeredAt (eui : Eui) (ls : List MinderEvent) : Option Ipv6Addr :=
  ((ls.flatMap MinderEvent.registrations).filter fun reg => reg.eui = eui).getLast?.map
    Registration.ip

theorem registeredAt_registration (eui : Eui) (ls : List MinderEvent) (reg : Registration) :
    registeredAt eui (ls ++ [.nodeState (.registration reg)])
      = if eui = reg.eui then some reg.ip else registeredAt eui ls := by
  by_cases h : eui = reg.eui
  · simp [registeredAt, MinderEvent.registrations, h]
  · simp [registeredAt, MinderEvent.registrations, h, Ne.symm h]

theorem registeredAt_other {e : MinderEvent} (he : e.registrations = []) (eui : Eui)
    (ls : List MinderEvent) : registeredAt eui (ls ++ [e]) = registeredAt eui ls := by
  simp [registeredAt, he]

/-- In every run each device's address is the one it was last registered at. -/
theorem nodeAddrs_run {ls : List MinderEvent} {s : PlantMinder} (h : run step new ls = some s)
    (eui : Eui) : s.nodeAddrs.lookup eui = registeredAt eui ls := by
  refine run_induct (Q := fun ls s => s.nodeAddrs.lookup eui = registeredAt eui ls) rfl ?_ h
  intro ls s e s' _ ih hs
  obtain ⟨limit, buffer, keys, rfl, -, ha, -⟩ | ⟨reg, rfl, rfl⟩ | ⟨-, hreg, -, ha⟩ := step_cases hs
  · rw [ha, ih, registeredAt_other rfl]
  · rw [nodeRegistration_nodeAddrs, ih, registeredAt_registration]
  · have hnone : e.registrations = [] := by
      unfold MinderEvent.registrations
      split
      · exact absurd rfl (hreg _)
      · rfl
    rw [ha, ih, registeredAt_other hnone]

/-- No two devices register one address. -/
def UniqueAddrs (ls : List MinderEvent) : Prop :=
  ∀ reg reg', .nodeState (.registration reg) ∈ ls → .nodeState (.registration reg') ∈ ls →
    reg.ip = reg'.ip → reg.eui = reg'.eui

/-- The readings a step processes from the address the device is registered at. -/
def processed (eui : Eui) (s : PlantMinder) : MinderEvent → List NodeSensorReading
  | .recvMany _ buffer _ => buffer.filter fun r => s.nodeAddrs.lookup eui = some r.addr.ip
  | _ => []

/-- How far a run of `ls` has come, with `rs` what it has processed of the device. -/
structure Follows (ls : List MinderEvent) (eui : Eui) (rs : List NodeSensorReading)
    (s : PlantMinder) : Prop where
  registered : ∀ e a, s.nodeAddrs.lookup e = some a →
    ∃ reg, .nodeState (.registration reg) ∈ ls ∧ reg.eui = e ∧ reg.ip = a
  node : ∀ e a, s.nodeAddrs.lookup e = some a → ∃ n, s.nodes.lookup a = some n
  unknown : s.nodeAddrs.lookup eui = none → rs = []
  history : ∀ a n, s.nodeAddrs.lookup eui = some a → s.nodes.lookup a = some n →
    n.history <:+ rs ∧ min rs.length 45 ≤ n.history.length

theorem follows_new (ls : List MinderEvent) (eui : Eui) : Follows ls eui [] new :=
  ⟨fun e a h => by simp [new] at h, fun e a h => by simp [new] at h, fun _ => rfl,
    fun a n h => by simp [new] at h⟩

variable {ls : List MinderEvent} {eui : Eui} {rs : List NodeSensorReading} {s s' : PlantMinder}

theorem follows_batch {limit : ℕ} {buffer : List NodeSensorReading} {keys : List Ipv6Addr}
    (h : Follows ls eui rs s) (ha : s'.nodeAddrs = s.nodeAddrs)
    (hn : ∀ k, s'.nodes.lookup k = (s.nodes.lookup k).map fun a => a.took (readingsOf buffer k)) :
    Follows ls eui (rs ++ processed eui s (.recvMany limit buffer keys)) s' := by
  refine ⟨by rw [ha]; exact h.registered, ?_, ?_, ?_⟩
  · intro e a hl
    rw [ha] at hl
    obtain ⟨n, hna⟩ := h.node e a hl
    exact ⟨n.took (readingsOf buffer a), by rw [hn, hna, Option.map_some]⟩
  · intro hl
    rw [ha] at hl
    simp [h.unknown hl, processed, hl]
  · intro a n hl hna
    rw [ha] at hl
    rw [hn, Option.map_eq_some_iff] at hna
    obtain ⟨n, hna, rfl⟩ := hna
    obtain ⟨hs, hlen⟩ := h.history a n hl hna
    have heq : processed eui s (.recvMany limit buffer keys) = readingsOf buffer a := by
      simp only [processed, readingsOf, hl, Option.some.injEq, eq_comm]
    rw [heq]
    exact Node.took_history hs hlen

theorem follows_registration (hu : UniqueAddrs ls) {reg : Registration}
    (hreg : .nodeState (.registration reg) ∈ ls) (h : Follows ls eui rs s) :
    Follows ls eui rs (s.nodeRegistration reg) := by
  -- another device's address is not the registered one, and is not evicted
  have hother : ∀ e a, e ≠ reg.eui → s.nodeAddrs.lookup e = some a →
      (s.nodeRegistration reg).nodes.lookup a = s.nodes.lookup a := by
    intro e a hne hl
    obtain ⟨reg', hreg', rfl, rfl⟩ := h.registered e a hl
    have hk : reg'.ip ≠ reg.ip := fun heq => hne (hu reg' reg hreg' hreg heq)
    have hev : ¬ s.Evicts reg.eui reg'.ip := by
      rintro ⟨-, hp⟩
      obtain ⟨reg'', hreg'', heui, hip⟩ := h.registered _ _ hp
      exact hne (by rw [hu reg' reg'' hreg' hreg'' hip.symm, heui])
    rw [nodeRegistration_nodes, if_neg hk, if_neg hev]
  refine ⟨?_, ?_, ?_, ?_⟩
  · intro e a hl
    rw [nodeRegistration_nodeAddrs] at hl
    split_ifs at hl with heq
    · cases hl
      exact ⟨reg, hreg, heq.symm, rfl⟩
    · exact h.registered e a hl
  · intro e a hl
    rw [nodeRegistration_nodeAddrs] at hl
    split_ifs at hl with heq
    · cases hl
      exact ⟨_, by rw [nodeRegistration_nodes, if_pos rfl]⟩
    · rw [hother e a heq hl]
      exact h.node e a hl
  · intro hl
    rw [nodeRegistration_nodeAddrs] at hl
    split_ifs at hl
    exact h.unknown hl
  · intro a n hl hna
    rw [nodeRegistration_nodeAddrs] at hl
    split_ifs at hl with heq
    · cases hl
      rw [nodeRegistration_nodes, if_pos rfl, Option.some.injEq] at hna
      rw [← hna, entry_history, ← heq]
      rcases hp : s.nodeAddrs.lookup eui with _ | p
      · simp [previousHistory_unknown hp, h.unknown hp]
      · obtain ⟨n', hn'⟩ := h.node eui p hp
        rw [previousHistory_known hp hn']
        exact h.history p n' hp hn'
    · rw [hother eui a heq hl] at hna
      exact h.history a n hl hna

theorem follows_step (hu : UniqueAddrs ls) {e : MinderEvent} (he : e ∈ ls)
    (h : Follows ls eui rs s) (hs : step s e = some s') :
    Follows ls eui (rs ++ processed eui s e) s' := by
  obtain ⟨limit, buffer, keys, rfl, -, ha, hn⟩ | ⟨reg, rfl, rfl⟩ | ⟨hbatch, -, hn, ha⟩ :=
    step_cases hs
  · exact follows_batch h ha hn
  · simp only [processed, List.append_nil]
    exact follows_registration hu he h
  · have hnone : processed eui s e = [] := by
      rcases e with ⟨limit, buffer, keys⟩ | cmd | status
      · exact absurd rfl (hbatch limit buffer keys)
      · rfl
      · rfl
    rw [hnone, List.append_nil]
    exact ⟨by rw [ha]; exact h.registered, by rw [ha, hn]; exact h.node,
      by rw [ha]; exact h.unknown, by rw [ha, hn]; exact h.history⟩

theorem follows_run (hu : UniqueAddrs ls) (h : run step new ls = some s) (eui : Eui) :
    Follows ls eui (outputs step (processed eui) new ls) s :=
  run_outputs_induct (processed eui) (C := fun e => e ∈ ls) (Q := Follows ls eui)
    (follows_new ls eui) (fun _ _ _ _ he hQ ht => follows_step hu he hQ ht) (fun _ he => he) h

/-- In every run with unique addresses, each device that was registered has its last address, the
entry of that address has the end of what was processed of the device, at least 45 readings of it if
there were, and no batch of at most 20 readings panics. -/
theorem history_follows (ls : List MinderEvent) (hu : UniqueAddrs ls) (s : PlantMinder)
    (h : run step new ls = some s) :
    (∀ eui, s.nodeAddrs.lookup eui = registeredAt eui ls)
      ∧ (∀ eui a, s.nodeAddrs.lookup eui = some a → ∃ n, s.nodes.lookup a = some n
        ∧ n.history <:+ outputs step (processed eui) new ls
        ∧ min (outputs step (processed eui) new ls).length 45 ≤ n.history.length)
      ∧ ∀ buffer keys, buffer.length ≤ 20 → s.recvMany buffer keys ≠ none := by
  refine ⟨nodeAddrs_run h, ?_, ?_⟩
  · intro eui a hl
    have hf := follows_run hu h eui
    obtain ⟨n, hn⟩ := hf.node eui a hl
    exact ⟨n, hn, hf.history a n hl hn⟩
  · intro buffer keys hb hnone
    obtain ⟨s', hs'⟩ := recvMany_isSome (by omega : buffer.length ≤ 45) s keys
    rw [hnone] at hs'
    cases hs'

/-- Device 1 takes its reading along from address 1 to address 2, where it has another. -/
def followedRun : List MinderEvent :=
  [register 1 1, .recvMany 20 [readingFrom 1, readingFrom 2] [ipOf 1], register 1 2,
    .recvMany 20 [readingFrom 2, readingFrom 1] [ipOf 2]]

theorem history_follows_moved : ∃ s, run step new followedRun = some s
    ∧ (∀ eui, s.nodeAddrs.lookup eui = registeredAt eui followedRun)
    ∧ (∀ eui a, s.nodeAddrs.lookup eui = some a → ∃ n, s.nodes.lookup a = some n
        ∧ n.history <:+ outputs step (processed eui) new followedRun
        ∧ min (outputs step (processed eui) new followedRun).length 45 ≤ n.history.length)
    ∧ ∀ buffer keys, buffer.length ≤ 20 → s.recvMany buffer keys ≠ none := by
  obtain ⟨s, hs⟩ := Option.isSome_iff_exists.mp
    (by decide +kernel : (run step new followedRun).isSome)
  have hu : UniqueAddrs followedRun := by
    intro reg reg' h h' _
    simp only [followedRun, register, List.mem_cons, MinderEvent.nodeState.injEq,
      NodeStatus.registration.injEq, reduceCtorEq, List.not_mem_nil, or_false, false_or] at h h'
    rcases h with rfl | rfl <;> rcases h' with rfl | rfl <;> rfl
  exact ⟨s, hs, history_follows followedRun hu s hs⟩

end PlantMinder

end Pmind
