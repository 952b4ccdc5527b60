import Pmind.Lib.Run
import Pmind.Minder

/-!
# The index of the devices

A batch of readings only changes histories, one address's after another's. A registration gives the
device's old history to the address it registers; the entry of the old address goes if its history
was not empty, and stays otherwise. So the two maps stay inverse as long as no registered address is
another device's and no device moves before its first reading is in.
-/

namespace Pmind

open HashMap Transition

def Node.took (a : Node) (data : List NodeSensorReading) : Node :=
  if data.isEmpty then a else a.received data

@[simp] theorem Node.took_eui (a : Node) (data : List NodeSensorReading) :
    (a.took data).eui = a.eui := by
  unfold Node.took Node.received
  split_ifs <;> rfl

@[simp] theorem Node.took_name (a : Node) (data : List NodeSensorReading) :
    (a.took data).name = a.name := by
  unfold Node.took Node.received
  split_ifs <;> rfl

namespace PlantMinder

/-! ## A batch -/

def readingsOf (buffer : List NodeSensorReading) (key : Ipv6Addr) : List NodeSensorReading :=
  buffer.filter fun e => e.addr.ip = key

theorem newDataOf_some {buffer : List NodeSensorReading} {s s' : PlantMinder} {key : Ipv6Addr}
    {a : Node} (ha : s.nodes.lookup key = some a) (h : s.newDataOf buffer key = some s') :
    s' = { s with nodes := s'.nodes }
      ∧ ∀ k, s'.nodes.lookup k =
        if k = key then some (a.took (readingsOf buffer key)) else s.nodes.lookup k := by
  unfold newDataOf newData at h
  simp only [ha] at h
  unfold Node.took readingsOf
  split_ifs at h ⊢ with hd hf
  · cases h
    refine ⟨rfl, fun k => ?_⟩
    split_ifs with hk
    · rw [hk, ha]
    · rfl
  · cases h
    exact ⟨rfl, fun k => lookup_insert_eq⟩

/-- Each address the loop has still to come to takes its readings, and nothing else changes. -/
theorem foldlM_newDataOf {buffer : List NodeSensorReading} : ∀ {keys : List Ipv6Addr}
    {s s' : PlantMinder}, keys.Nodup → (∀ k ∈ keys, k ∈ s.nodes) →
    keys.foldlM (newDataOf buffer) s = some s' →
      s' = { s with nodes := s'.nodes }
        ∧ ∀ k, s'.nodes.lookup k = if k ∈ keys
          then (s.nodes.lookup k).map fun a => a.took (readingsOf buffer k) else s.nodes.lookup k
  | [], s, s', _, _, h => by
    simp only [List.foldlM_nil] at h
    cases h
    simp
  | key :: keys, s, s', hnd, hmem, h => by
    rw [List.foldlM_cons] at h
    obtain ⟨t, ht, h⟩ := Option.bind_eq_some_iff.mp h
    obtain ⟨hkey, hnd⟩ := List.nodup_cons.mp hnd
    obtain ⟨a, ha⟩ := Finmap.mem_iff.mp (hmem key List.mem_cons_self)
    obtain ⟨hts, htn⟩ := newDataOf_some ha ht
    have hmem' : ∀ k ∈ keys, k ∈ t.nodes := fun k hk => by
      obtain ⟨b, hb⟩ := Finmap.mem_iff.mp (hmem k (List.mem_cons_of_mem _ hk))
      have hne : k ≠ key := fun heq => hkey (heq ▸ hk)
      exact Finmap.mem_of_lookup_eq_some (by rw [htn, if_neg hne, hb])
    obtain ⟨hs', hn'⟩ := foldlM_newDataOf hnd hmem' h
    refine ⟨by rw [hs', hts], fun k => ?_⟩
    rw [hn', htn]
    by_cases hk : k = key
    · subst hk
      simp [hkey, ha]
    · simp [hk]

theorem recvMany_some {buffer : List NodeSensorReading} {keys : List Ipv6Addr} {s s' : PlantMinder}
    (hkeys : (keys : Multiset Ipv6Addr) = s.nodes.keys.val) (h : s.recvMany buffer keys = some s') :
    s' = { s with nodes := s'.nodes }
      ∧ ∀ k, s'.nodes.lookup k =
        (s.nodes.lookup k).map fun a => a.took (readingsOf buffer k) := by
  have hmem : ∀ k, k ∈ keys ↔ k ∈ s.nodes := fun k => by
    rw [← Multiset.mem_coe, hkeys, Finset.mem_val, Finmap.mem_keys]
  have hnd : keys.Nodup := by
    rw [← Multiset.coe_nodup, hkeys]
    exact s.nodes.keys.nodup
  unfold recvMany at h
  split_ifs at h with hb
  · obtain ⟨hs, hn⟩ := foldlM_newDataOf hnd (fun k hk => (hmem k).mp hk) h
    refine ⟨hs, fun k => ?_⟩
    rw [hn]
    split_ifs with hk
    · rfl
    · rw [Finmap.lookup_eq_none.mpr (fun hk' => hk ((hmem k).mpr hk')), Option.map_none]
  · cases h
    have hnil : buffer = [] := List.length_eq_zero_iff.mp (not_not.mp hb)
    refine ⟨rfl, fun k => ?_⟩
    simp [hnil, readingsOf, Node.took]

theorem newDataOf_isSome {buffer : List NodeSensorReading} (hb : buffer.length ≤ 45)
    (s : PlantMinder) (key : Ipv6Addr) : ∃ s', s.newDataOf buffer key = some s' := by
  have hlen : (buffer.filter fun e => e.addr.ip = key).length ≤ buffer.length :=
    List.length_filter_le _ _
  unfold newDataOf newData
  simp only []
  split_ifs with hd
  · exact ⟨s, rfl⟩
  · rcases s.nodes.lookup key with _ | a
    · exact ⟨_, rfl⟩
    · have hfull : ¬ (maxWindow ≤ a.history.length + (buffer.filter fun e => e.addr.ip = key).length
          ∧ a.history.length < 5) := by
        unfold maxWindow
        omega
      exact ⟨_, if_neg hfull⟩

theorem recvMany_isSome {buffer : List NodeSensorReading} (hb : buffer.length ≤ 45)
    (s : PlantMinder) (keys : List Ipv6Addr) : ∃ s', s.recvMany buffer keys = some s' := by
  unfold recvMany
  split_ifs with hne
  · induction keys generalizing s with
    | nil => exact ⟨s, rfl⟩
    | cons key keys ih =>
      obtain ⟨t, ht⟩ := newDataOf_isSome hb s key
      obtain ⟨s', hs'⟩ := ih t
      exact ⟨s', by rw [List.foldlM_cons, ht]; exact hs'⟩
  · exact ⟨s, rfl⟩

/-! ## A registration -/

def Evicts (s : PlantMinder) (eui : Eui) (k : Ipv6Addr) : Prop :=
  s.previousHistory eui ≠ [] ∧ s.nodeAddrs.lookup eui = some k

instance (s : PlantMinder) (eui : Eui) (k : Ipv6Addr) : Decidable (s.Evicts eui k) :=
  inferInstanceAs (Decidable (_ ∧ _))

theorem evict_nodes (s : PlantMinder) (eui : Eui) (k : Ipv6Addr) :
    (s.evict eui).nodes.lookup k = if s.Evicts eui k then none else s.nodes.lookup k := by
  unfold evict
  split_ifs with hh hev hev
  · exact absurd (List.isEmpty_iff.mp hh) hev.1
  · rfl
  · simp only [hev.2, Finmap.lookup_erase]
  · rcases hp : s.nodeAddrs.lookup eui with _ | p
    · rfl
    · have hne : k ≠ p := by
        rintro rfl
        exact hev ⟨fun h => hh (List.isEmpty_iff.mpr h), hp⟩
      simp only [Finmap.lookup_erase_ne hne]

theorem evict_nodeAddrs (s : PlantMinder) {eui eui' : Eui} (h : eui' ≠ eui) :
    (s.evict eui).nodeAddrs.lookup eui' = s.nodeAddrs.lookup eui' := by
  unfold evict
  split_ifs with hh
  · rfl
  · simp only [lookup_erase_eq, if_neg h]

theorem nodeRegistration_nodes (s : PlantMinder) (reg : Registration) (k : Ipv6Addr) :
    (s.nodeRegistration reg).nodes.lookup k =
      if k = reg.ip then
        some (entry reg (s.previousHistory reg.eui) ((s.evict reg.eui).nodes.lookup reg.ip))
      else if s.Evicts reg.eui k then none else s.nodes.lookup k := by
  simp only [nodeRegistration, lookup_insert_eq]
  rw [evict_nodes s reg.eui k]

theorem nodeRegistration_nodeAddrs (s : PlantMinder) (reg : Registration) (eui : Eui) :
    (s.nodeRegistration reg).nodeAddrs.lookup eui =
      if eui = reg.eui then some reg.ip else s.nodeAddrs.lookup eui := by
  simp only [nodeRegistration, lookup_insert_eq]
  split_ifs with heq
  · rfl
  · exact evict_nodeAddrs s heq

theorem entry_history (reg : Registration) (history : List NodeSensorReading)
    (node : Option Node) : (entry reg history node).history = history := by
  rcases node with _ | a <;> rfl

theorem previousHistory_known {s : PlantMinder} {eui : Eui} {p : Ipv6Addr} {n : Node}
    (hp : s.nodeAddrs.lookup eui = some p) (hn : s.nodes.lookup p = some n) :
    s.previousHistory eui = n.history := by
  simp only [previousHistory, hp, hn]

theorem previousHistory_unknown {s : PlantMinder} {eui : Eui}
    (h : s.nodeAddrs.lookup eui = none) : s.previousHistory eui = [] := by
  simp only [previousHistory, h]

theorem step_cases {s s' : PlantMinder} {e : MinderEvent} (h : step s e = some s') :
    (∃ limit buffer keys, e = .recvMany limit buffer keys ∧ buffer.length ≤ limit
        ∧ s'.nodeAddrs = s.nodeAddrs ∧ ∀ k, s'.nodes.lookup k =
          (s.nodes.lookup k).map fun a => a.took (readingsOf buffer k))
      ∨ (∃ reg, e = .nodeState (.registration reg) ∧ s' = s.nodeRegistration reg)
      ∨ ((∀ limit buffer keys, e ≠ .recvMany limit buffer keys)
        ∧ (∀ reg, e ≠ .nodeState (.registration reg))
        ∧ s'.nodes = s.nodes ∧ s'.nodeAddrs = s.nodeAddrs) := by
  unfold step at h
  split_ifs at h
  rcases e with ⟨limit, buffer, keys⟩ | cmd | reg | ⟨addr, state⟩
  · simp only [] at h
    split_ifs at h with hb
    obtain ⟨hs, hn⟩ := recvMany_some hb.2 h
    exact Or.inl ⟨limit, buffer, keys, rfl, hb.1, by rw [hs], hn⟩
  · cases h
    refine Or.inr (Or.inr ⟨by simp, by simp, ?_⟩)
    rcases cmd <;> exact ⟨rfl, rfl⟩
  · cases h
    exact Or.inr (Or.inl ⟨reg, rfl, rfl⟩)
  · cases h
    exact Or.inr (Or.inr ⟨by simp, by simp, rfl, rfl⟩)

/-! ## The two maps -/

/-- `nodes` and `node_addrs` are mutually inverse. -/
structure Indexed (s : PlantMinder) : Prop where
  node : ∀ eui ip, s.nodeAddrs.lookup eui = some ip → ∃ n ∈ s.nodes.lookup ip, n.eui = eui
  addr : ∀ ip n, s.nodes.lookup ip = some n → s.nodeAddrs.lookup n.eui = some ip

theorem Indexed.card_eq {s : PlantMinder} (h : Indexed s) :
    s.nodes.keys.card = s.nodeAddrs.keys.card := by
  have hkeys : ∀ ip ∈ s.nodes.keys, ∃ n, s.nodes.lookup ip = some n := fun ip hip =>
    Finmap.mem_iff.mp (Finmap.mem_keys.mp hip)
  refine Finset.card_nbij (fun ip => (s.nodes.lookup ip).elim Node.unset.eui Node.eui)
    ?_ ?_ ?_
  · intro ip hip
    obtain ⟨n, hn⟩ := hkeys ip hip
    simp only [hn, Option.elim_some]
    exact Finmap.mem_keys.mpr (Finmap.mem_of_lookup_eq_some (h.addr ip n hn))
  · intro ip hip ip' hip' heq
    obtain ⟨n, hn⟩ := hkeys ip hip
    obtain ⟨n', hn'⟩ := hkeys ip' hip'
    simp only [hn, hn', Option.elim_some] at heq
    exact Option.some.inj ((h.addr ip n hn).symm.trans (heq ▸ h.addr ip' n' hn'))
  · intro eui he
    obtain ⟨ip, hip⟩ := Finmap.mem_iff.mp (Finmap.mem_keys.mp he)
    obtain ⟨n, hn, hne⟩ := h.node eui ip hip
    refine ⟨ip, Finmap.mem_keys.mpr (Finmap.mem_of_lookup_eq_some hn), ?_⟩
    simp only [Option.mem_def.mp hn, Option.elim_some, hne]

/-- A registered address is no other device's, and the device's old address, if it is another, has
a history. -/
def Moves (s : PlantMinder) : MinderEvent → Prop
  | .nodeState (.registration reg) => (∀ n ∈ s.nodes.lookup reg.ip, n.eui = reg.eui)
    ∧ ∀ p ∈ s.nodeAddrs.lookup reg.eui, p ≠ reg.ip → ∀ n ∈ s.nodes.lookup p, n.history ≠ []
  | _ => True

theorem indexed_registration {s : PlantMinder} {reg : Registration} (h : Indexed s)
    (hm : Moves s (.nodeState (.registration reg))) : Indexed (s.nodeRegistration reg) := by
  obtain ⟨hip, hold⟩ := hm
  -- the entry the registration finds at its address is the device's own, if there is one
  have heui : (entry reg (s.previousHistory reg.eui)
      ((s.evict reg.eui).nodes.lookup reg.ip)).eui = reg.eui := by
    rw [evict_nodes]
    split_ifs with hev
    · rfl
    · rcases hl : s.nodes.lookup reg.ip with _ | a
      · rfl
      · exact hip a hl
  -- another address that is left is no address of the device
  have hother : ∀ k n, k ≠ reg.ip → ¬ s.Evicts reg.eui k → s.nodes.lookup k = some n →
      n.eui ≠ reg.eui := by
    intro k n hk hev hn heq
    have hk' := h.addr k n hn
    rw [heq] at hk'
    refine hev ⟨?_, hk'⟩
    rw [previousHistory_known hk' hn]
    exact hold k hk' hk n hn
  refine ⟨?_, ?_⟩
  · intro eui ip hl
    rw [nodeRegistration_nodeAddrs] at hl
    split_ifs at hl with heq
    · cases hl
      refine ⟨_, by rw [nodeRegistration_nodes, if_pos rfl]; exact rfl, ?_⟩
      rw [heui, heq]
    · obtain ⟨n, hn, hne⟩ := h.node eui ip hl
      have hk : ip ≠ reg.ip := by
        rintro rfl
        exact heq (hne ▸ hip n hn)
      have hev : ¬ s.Evicts reg.eui ip := by
        rintro ⟨-, hp⟩
        obtain ⟨n', hn', hne'⟩ := h.node reg.eui ip hp
        have := Option.mem_unique hn hn'
        exact heq (by rw [← hne, ← hne', this])
      exact ⟨n, by rw [nodeRegistration_nodes, if_neg hk, if_neg hev]; exact hn, hne⟩
  · intro ip n hl
    rw [nodeRegistration_nodes] at hl
    rw [nodeRegistration_nodeAddrs]
    split_ifs at hl with hk hev
    · cases hl
      rw [if_pos heui, hk]
    · rw [if_neg (hother ip n hk hev hl)]
      exact h.addr ip n hl

theorem moves_of_indexed {s : PlantMinder} {reg : Registration} (h : Indexed s)
    (h' : Indexed (s.nodeRegistration reg)) : Moves s (.nodeState (.registration reg)) := by
  refine ⟨?_, ?_⟩
  · intro n hn
    by_contra hne
    have hev : ¬ s.Evicts reg.eui reg.ip := by
      rintro ⟨-, hp⟩
      obtain ⟨n', hn', hne'⟩ := h.node reg.eui reg.ip hp
      exact hne (by rw [Option.mem_unique hn hn', hne'])
    have hl := nodeRegistration_nodes s reg reg.ip
    rw [if_pos rfl, evict_nodes, if_neg hev, Option.mem_def.mp hn] at hl
    have ha := h'.addr reg.ip _ hl
    -- the entry keeps the other device's EUI
    have hself := nodeRegistration_nodeAddrs s reg reg.eui
    rw [if_pos rfl] at hself
    obtain ⟨n', hn', hne'⟩ := h'.node reg.eui reg.ip hself
    rw [hl] at hn'
    cases hn'
    exact hne hne'
  · intro p hp hne n hn hh
    have hev : ¬ s.Evicts reg.eui p := by
      rintro ⟨hne', -⟩
      exact hne' (by rw [previousHistory_known hp hn, hh])
    have hl := nodeRegistration_nodes s reg p
    rw [if_neg hne, if_neg hev, Option.mem_def.mp hn] at hl
    have ha := h'.addr p n hl
    obtain ⟨n', hn', hne'⟩ := h.node reg.eui p hp
    rw [Option.mem_unique hn hn', hne', nodeRegistration_nodeAddrs, if_pos rfl] at ha
    cases ha
    exact hne rfl

theorem indexed_of_maps {s s' : PlantMinder} (h : Indexed s) (ha : s'.nodeAddrs = s.nodeAddrs)
    (hn : ∀ k, (s'.nodes.lookup k).map Node.eui = (s.nodes.lookup k).map Node.eui) :
    Indexed s' := by
  refine ⟨?_, ?_⟩
  · intro eui ip hl
    rw [ha] at hl
    obtain ⟨n, hn', hne⟩ := h.node eui ip hl
    have hm := hn ip
    rw [Option.mem_def.mp hn', Option.map_some, Option.map_eq_some_iff] at hm
    obtain ⟨n', hn'', hne'⟩ := hm
    exact ⟨n', hn'', by rw [hne', hne]⟩
  · intro ip n hl
    have hm := hn ip
    rw [hl, Option.map_some, eq_comm, Option.map_eq_some_iff] at hm
    obtain ⟨n', hn', hne'⟩ := hm
    rw [ha, ← hne']
    exact h.addr ip n' hn'

theorem indexed_step (s : PlantMinder) (e : MinderEvent) (s' : PlantMinder) (h : Indexed s)
    (hs : step s e = some s') : Indexed s' ↔ Moves s e := by
  obtain ⟨limit, buffer, keys, rfl, -, ha, hn⟩ | ⟨reg, rfl, rfl⟩ | ⟨-, hreg, hn, ha⟩ :=
    step_cases hs
  · refine ⟨fun _ => trivial, fun _ => indexed_of_maps h ha fun k => ?_⟩
    rw [hn, Option.map_map]
    rcases s.nodes.lookup k with _ | a
    · rfl
    · simp
  · exact ⟨moves_of_indexed h, indexed_registration h⟩
  · refine ⟨fun _ => ?_, fun _ => indexed_of_maps h ha fun k => by rw [hn]⟩
    rcases e with ⟨limit, buffer, keys⟩ | cmd | reg | ⟨addr, state⟩
    · trivial
    · trivial
    · exact absurd rfl (hreg reg)
    · trivial

theorem indexed_new : Indexed new :=
  ⟨fun eui ip h => by simp [new] at h, fun ip n h => by simp [new] at h⟩

/-- In every run the two maps stay inverse exactly if each registration's address is no other
device's and no device leaves an address with no history. -/
theorem indexed_iff (ls : List MinderEvent) (s : PlantMinder) (h : run step new ls = some s) :
    EveryState step Indexed new ls ↔ EveryStep step Moves new ls :=
  everyState_iff_of_step indexed_step indexed_new h

instance (s : PlantMinder) : (e : MinderEvent) → Decidable (Moves s e)
  | .nodeState (.registration reg) => inferInstanceAs (Decidable
      ((∀ n ∈ s.nodes.lookup reg.ip, n.eui = reg.eui)
        ∧ ∀ p ∈ s.nodeAddrs.lookup reg.eui, p ≠ reg.ip →
          ∀ n ∈ s.nodes.lookup p, n.history ≠ []))
  | .nodeState (.termination _ _) => inferInstanceAs (Decidable True)
  | .appCmd _ => inferInstanceAs (Decidable True)
  | .recvMany _ _ _ => inferInstanceAs (Decidable True)

def ipOf (m : UInt16) : Ipv6Addr := .new 0xfd00 0 0 0 0 0 0 m

def register (n : UInt8) (m : UInt16) : MinderEvent :=
  .nodeState (.registration ⟨.of 0x60 0x55 0xf9 0xf6 0 n, ipOf m, "mint"⟩)

def readingFrom (m : UInt16) : NodeSensorReading := ⟨⟨ipOf m, 49152⟩, ⟨⟨700, 0⟩, none, none, 0⟩⟩

/-- Device 1 leaves address 1 with a reading, and device 2 comes there. -/
def movedRun : List MinderEvent :=
  [register 1 1, .recvMany 20 [readingFrom 1, readingFrom 2] [ipOf 1], register 1 2, register 2 1]

theorem indexed_moved : EveryState step Indexed new movedRun := by
  obtain ⟨s, hs⟩ := Option.isSome_iff_exists.mp
    (by decide +kernel : (run step new movedRun).isSome)
  exact (indexed_iff movedRun s hs).mpr (by decide +kernel)

/-- Device 1 moves to address 2 before its first reading is in, and its old entry stays. -/
theorem not_indexed : (∃ s, run step new [register 1 1, register 1 2] = some s)
    ∧ ¬ EveryState step Indexed new [register 1 1, register 1 2] := by
  obtain ⟨s, hs, n, hn, ha⟩ : ∃ s, run step new [register 1 1, register 1 2] = some s
      ∧ ∃ n, s.nodes.lookup (ipOf 1) = some n ∧ s.nodeAddrs.lookup n.eui = some (ipOf 2) :=
    ⟨_, rfl, _, rfl, by decide +kernel⟩
  refine ⟨⟨s, hs⟩, fun h => ?_⟩
  have hi := (h.last hs).addr (ipOf 1) n hn
  rw [ha] at hi
  exact absurd hi (by decide)

end PlantMinder

end Pmind
