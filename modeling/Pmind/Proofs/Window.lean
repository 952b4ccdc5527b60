import Pmind.Proofs.Minder

/-!
# How long a history can get

A full window is trimmed by 5 readings before new ones are added, however many they are. So it stays
within its bound exactly as long as no node gets more than 5 readings over it at once.
-/

namespace Pmind

open HashMap Transition

namespace PlantMinder

/-- Every node's history is within the window. -/
def Bounded (s : PlantMinder) : Prop :=
  ∀ k n, s.nodes.lookup k = some n → n.history.length ≤ maxWindow

/-- What a batch has for a node is at most 5 more than there is room for. -/
def Fits (s : PlantMinder) : MinderEvent → Prop
  | .recvMany _ buffer _ => ∀ k n, s.nodes.lookup k = some n →
    n.history.length + (readingsOf buffer k).length ≤ maxWindow + 5
  | _ => True

instance (s : PlantMinder) : (e : MinderEvent) → Decidable (Fits s e)
  | .recvMany _ buffer _ => inferInstanceAs (Decidable (∀ k n, s.nodes.lookup k = some n →
      n.history.length + (readingsOf buffer k).length ≤ maxWindow + 5))
  | .nodeState _ => inferInstanceAs (Decidable True)
  | .appCmd _ => inferInstanceAs (Decidable True)

/-! ## `drain(..5)` -/

/-- A turn that does not panic finds 5 readings to trim, if it trims. -/
theorem five_le_of_newDataOf {buffer : List NodeSensorReading} {s s' : PlantMinder}
    {key : Ipv6Addr} {a : Node} (ha : s.nodes.lookup key = some a)
    (h : s.newDataOf buffer key = some s') (hne : readingsOf buffer key ≠ [])
    (hfull : maxWindow ≤ a.history.length + (readingsOf buffer key).length) :
    5 ≤ a.history.length := by
  unfold newDataOf newData at h
  simp only [ha] at h
  split_ifs at h with hd hf
  · exact absurd (List.isEmpty_iff.mp hd) hne
  · by_contra hlt
    exact hf ⟨hfull, Nat.not_le.mp hlt⟩

theorem newDataOf_of_ne {buffer : List NodeSensorReading} {s s' : PlantMinder} {key k : Ipv6Addr}
    (hk : k ≠ key) (h : s.newDataOf buffer key = some s') :
    s'.nodes.lookup k = s.nodes.lookup k := by
  unfold newDataOf newData at h
  simp only [] at h
  split_ifs at h with hd
  · cases h
    rfl
  · rcases hl : s.nodes.lookup key with _ | a <;> rw [hl] at h <;> simp only [] at h
    · cases h
      exact lookup_insert_eq.trans (if_neg hk)
    · split_ifs at h
      cases h
      exact lookup_insert_eq.trans (if_neg hk)

theorem five_le_of_foldlM {buffer : List NodeSensorReading} : ∀ {keys : List Ipv6Addr}
    {s s' : PlantMinder}, keys.Nodup → keys.foldlM (newDataOf buffer) s = some s' →
    ∀ k ∈ keys, ∀ a, s.nodes.lookup k = some a → readingsOf buffer k ≠ [] →
      maxWindow ≤ a.history.length + (readingsOf buffer k).length → 5 ≤ a.history.length
  | key :: keys, s, s', hnd, h, k, hk, a, ha, hne, hfull => by
    rw [List.foldlM_cons] at h
    obtain ⟨t, ht, h⟩ := Option.bind_eq_some_iff.mp h
    obtain ⟨hkey, hnd⟩ := List.nodup_cons.mp hnd
    rcases List.mem_cons.mp hk with rfl | hk
    · exact five_le_of_newDataOf ha ht hne hfull
    · have hkk : k ≠ key := fun heq => hkey (heq ▸ hk)
      exact five_le_of_foldlM hnd h k hk a ((newDataOf_of_ne hkk ht).trans ha) hne hfull

theorem five_le_of_step {s s' : PlantMinder} {limit : ℕ} {buffer : List NodeSensorReading}
    {keys : List Ipv6Addr} (h : step s (.recvMany limit buffer keys) = some s') {k : Ipv6Addr}
    {a : Node} (ha : s.nodes.lookup k = some a) (hne : readingsOf buffer k ≠ [])
    (hfull : maxWindow ≤ a.history.length + (readingsOf buffer k).length) :
    5 ≤ a.history.length := by
  unfold step at h
  split_ifs at h with hrun
  simp only [] at h
  split_ifs at h with hkeys
  unfold recvMany at h
  split_ifs at h with hbuf
  · have hnd : keys.Nodup := by
      rw [← Multiset.coe_nodup, hkeys.2]
      exact s.nodes.keys.nodup
    have hk : k ∈ keys := by
      rw [← Multiset.mem_coe, hkeys.2, Finset.mem_val, Finmap.mem_keys]
      exact Finmap.mem_of_lookup_eq_some ha
    exact five_le_of_foldlM hnd h k hk a ha hne hfull
  · have hnil : buffer = [] := List.length_eq_zero_iff.mp (not_not.mp hbuf)
    exact absurd (by simp [hnil, readingsOf]) hne

/-! ## The window -/

theorem length_took_le_iff {a : Node} {data : List NodeSensorReading}
    (ha : a.history.length ≤ maxWindow)
    (hfive : data ≠ [] → maxWindow ≤ a.history.length + data.length → 5 ≤ a.history.length) :
    (a.took data).history.length ≤ maxWindow ↔ a.history.length + data.length ≤ maxWindow + 5 := by
  unfold Node.took Node.received
  split_ifs with hd hfull
  · rw [List.isEmpty_iff.mp hd, List.length_nil]
    omega
  · have h5 := hfive (fun hnil => hd (List.isEmpty_iff.mpr hnil)) hfull
    simp only [List.length_append, List.length_drop]
    omega
  · simp only [List.length_append]
    omega

theorem bounded_new : Bounded new := fun k n h => by simp [new] at h

theorem bounded_registration {s : PlantMinder} {reg : Registration} (h : Bounded s) :
    Bounded (s.nodeRegistration reg) := by
  have hprev : (s.previousHistory reg.eui).length ≤ maxWindow := by
    unfold previousHistory
    rcases s.nodeAddrs.lookup reg.eui with _ | p
    · simp
    · simp only []
      rcases hn : s.nodes.lookup p with _ | n
      · simp
      · exact h p n hn
  intro k n hl
  rw [nodeRegistration_nodes] at hl
  split_ifs at hl with hk hev
  · cases hl
    rw [entry_history]
    exact hprev
  · exact h k n hl

theorem bounded_step (s : PlantMinder) (e : MinderEvent) (s' : PlantMinder) (h : Bounded s)
    (hs : step s e = some s') : Bounded s' ↔ Fits s e := by
  obtain ⟨limit, buffer, keys, rfl, -, -, hn⟩ | ⟨reg, rfl, rfl⟩ | ⟨hmany, -, hn, -⟩ := step_cases hs
  · have hiff : ∀ k n, s.nodes.lookup k = some n →
        ((n.took (readingsOf buffer k)).history.length ≤ maxWindow
          ↔ n.history.length + (readingsOf buffer k).length ≤ maxWindow + 5) := fun k n hl =>
      length_took_le_iff (h k n hl) fun hne => five_le_of_step hs hl hne
    refine ⟨fun h' k n hl => (hiff k n hl).mp (h' k _ (by rw [hn, hl, Option.map_some])), ?_⟩
    intro hf k n' hl
    rw [hn, Option.map_eq_some_iff] at hl
    obtain ⟨n, hl, rfl⟩ := hl
    exact (hiff k n hl).mpr (hf k n hl)
  · exact iff_of_true (bounded_registration h) trivial
  · refine iff_of_true (fun k n hl => h k n (hn ▸ hl)) ?_
    rcases e with ⟨limit, buffer, keys⟩ | cmd | status
    · exact absurd rfl (hmany limit buffer keys)
    · trivial
    · trivial

/-- In every run the histories stay within the window exactly if no batch has for a node more than
5 readings over what there is room for. -/
theorem bounded_iff (ls : List MinderEvent) (s : PlantMinder) (h : run step new ls = some s) :
    EveryState step Bounded new ls ↔ EveryStep step Fits new ls :=
  everyState_iff_of_step bounded_step bounded_new h

/-- A tick with a batch of readings from the first node. -/
def tick (n : ℕ) : MinderEvent := .recvMany 20 (List.replicate n (readingFrom 1)) [ipOf 1]

theorem bounded_small :
    EveryState step Bounded new [register 1 1, tick 20, tick 20, tick 10, tick 5, tick 5] := by
  obtain ⟨s, hs⟩ := Option.isSome_iff_exists.mp (by decide +kernel :
    (run step new [register 1 1, tick 20, tick 20, tick 10, tick 5, tick 5]).isSome)
  exact (bounded_iff _ s hs).mpr (by decide +kernel)

/-- Three ticks with a batch of 20 make it 55. -/
theorem not_bounded : ∃ s, run step new [register 1 1, tick 20, tick 20, tick 20] = some s
    ∧ ∃ n, s.nodes.lookup (ipOf 1) = some n ∧ n.history.length = 55 := by
  decide +kernel

end PlantMinder

end Pmind
