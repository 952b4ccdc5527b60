import Pmind.Proofs.Minder

/-!
# What a registration changes

`node_registration` gives the entry it finds at the address a new history, and leaves its EUI and
name as they are: only where there is no entry does it write them. So it does what it should exactly
where there is none, or the device's own, under the same name.
-/

namespace Pmind

open HashMap Transition

namespace PlantMinder

/-- The history of the device's entry, empty if it has none. -/
def historyOf (s : PlantMinder) (eui : Eui) : List NodeSensorReading :=
  ((s.nodeAddrs.lookup eui).bind fun ip => s.nodes.lookup ip).elim [] Node.history

/-- The registration has changed the device's entry and address, and no other device's. -/
structure Updated (s : PlantMinder) (reg : Registration) (s' : PlantMinder) : Prop where
  node : ∃ n, s'.nodes.lookup reg.ip = some n ∧ n.eui = reg.eui ∧ n.name = reg.name
    ∧ n.history = s.historyOf reg.eui
  addr : s'.nodeAddrs.lookup reg.eui = some reg.ip
  others : ∀ k n, s.nodes.lookup k = some n → n.eui ≠ reg.eui → k ≠ reg.ip →
    s'.nodes.lookup k = some n
  otherAddrs : ∀ eui, eui ≠ reg.eui → s'.nodeAddrs.lookup eui = s.nodeAddrs.lookup eui

def UpdatesOne (s : PlantMinder) : MinderEvent → Prop
  | .nodeState (.registration reg) => Updated s reg (s.nodeRegistration reg)
  | _ => True

/-- If the address has an entry, it is the device's own with the name it has now, or the device's
last one that has a history, which is evicted first. -/
def Unoccupied (s : PlantMinder) : MinderEvent → Prop
  | .nodeState (.registration reg) => ∀ n ∈ s.nodes.lookup reg.ip,
    s.Evicts reg.eui reg.ip ∨ n.eui = reg.eui ∧ n.name = reg.name
  | _ => True

/-- The entry a device's address leads to is its own. -/
def OwnEntry (s : PlantMinder) : Prop :=
  ∀ eui ip, s.nodeAddrs.lookup eui = some ip → ∃ n, s.nodes.lookup ip = some n ∧ n.eui = eui

theorem historyOf_eq (s : PlantMinder) (eui : Eui) : s.historyOf eui = s.previousHistory eui := by
  unfold historyOf previousHistory
  rcases s.nodeAddrs.lookup eui with _ | ip
  · rfl
  · rcases hn : s.nodes.lookup ip with _ | n <;> simp [hn]

/-- The entry that is there after the registration. -/
theorem lookup_registered (s : PlantMinder) (reg : Registration) :
    (s.nodeRegistration reg).nodes.lookup reg.ip = some (entry reg (s.previousHistory reg.eui)
      (if s.Evicts reg.eui reg.ip then none else s.nodes.lookup reg.ip)) := by
  rw [nodeRegistration_nodes, if_pos rfl, evict_nodes]

theorem unoccupied_of_updatesOne {s : PlantMinder} {e : MinderEvent} (h : UpdatesOne s e) :
    Unoccupied s e := by
  rcases e with ⟨limit, buffer, keys⟩ | cmd | reg | ⟨addr, state⟩
  · trivial
  · trivial
  · intro n hn
    by_cases hev : s.Evicts reg.eui reg.ip
    · exact Or.inl hev
    · obtain ⟨n', hn', heui, hname, -⟩ := h.node
      rw [lookup_registered, if_neg hev, Option.mem_def.mp hn, Option.some.injEq] at hn'
      subst hn'
      exact Or.inr ⟨heui, hname⟩
  · trivial

theorem updatesOne_of_unoccupied {s : PlantMinder} {e : MinderEvent} (h : Unoccupied s e)
    (hown : OwnEntry s) : UpdatesOne s e := by
  rcases e with ⟨limit, buffer, keys⟩ | cmd | reg | ⟨addr, state⟩
  · trivial
  · trivial
  · refine ⟨?_, ?_, ?_, ?_⟩
    · refine ⟨_, lookup_registered s reg, ?_⟩
      rw [historyOf_eq, entry_history]
      split_ifs with hev
      · exact ⟨rfl, rfl, rfl⟩
      · rcases hn : s.nodes.lookup reg.ip with _ | n
        · exact ⟨rfl, rfl, rfl⟩
        · obtain ⟨heui, hname⟩ := (h n hn).resolve_left hev
          exact ⟨heui, hname, rfl⟩
    · rw [nodeRegistration_nodeAddrs, if_pos rfl]
    · intro k n hk hne hkip
      have hev : ¬ s.Evicts reg.eui k := by
        rintro ⟨-, hp⟩
        obtain ⟨n', hn', heui⟩ := hown reg.eui k hp
        rw [hk, Option.some.injEq] at hn'
        exact hne (hn' ▸ heui)
      rw [nodeRegistration_nodes, if_neg hkip, if_neg hev, hk]
    · intro eui hne
      rw [nodeRegistration_nodeAddrs, if_neg hne]
  · trivial

theorem ownEntry_new : OwnEntry new := fun eui ip h => by simp [new] at h

theorem ownEntry_step (s : PlantMinder) (e : MinderEvent) (s' : PlantMinder) (hown : OwnEntry s)
    (h : Unoccupied s e) (hs : step s e = some s') : OwnEntry s' := by
  obtain ⟨limit, buffer, keys, rfl, -, ha, hn⟩ | ⟨reg, rfl, rfl⟩ | ⟨-, -, hn, ha⟩ := step_cases hs
  · intro eui ip hl
    rw [ha] at hl
    obtain ⟨n, hnl, heui⟩ := hown eui ip hl
    exact ⟨n.took (readingsOf buffer ip), by rw [hn, hnl, Option.map_some], by simp [heui]⟩
  · have hup := updatesOne_of_unoccupied h hown
    intro eui ip hl
    by_cases heq : eui = reg.eui
    · rw [heq, hup.addr, Option.some.injEq] at hl
      obtain ⟨n, hn, heui, -⟩ := hup.node
      exact ⟨n, hl ▸ hn, heui.trans heq.symm⟩
    · rw [hup.otherAddrs eui heq] at hl
      obtain ⟨n, hn, heui⟩ := hown eui ip hl
      have hne : n.eui ≠ reg.eui := by
        rw [heui]
        exact heq
      refine ⟨n, hup.others ip n hn hne ?_, heui⟩
      -- an entry at the address registered now would be the device's
      rintro rfl
      rcases h n hn with ⟨-, hp⟩ | ⟨hreg, -⟩
      · obtain ⟨n', hn', heui'⟩ := hown reg.eui reg.ip hp
        rw [hn, Option.some.injEq] at hn'
        exact hne (hn' ▸ heui')
      · exact hne hreg
  · intro eui ip hl
    rw [hn]
    exact hown eui ip (ha ▸ hl)

/-- In every run each registration updates its device and no other, exactly if each finds its
address with no entry, with the device's own under the same name, or with the device's last one. -/
theorem updatesOne_iff (ls : List MinderEvent) :
    EveryStep step UpdatesOne new ls ↔ EveryStep step Unoccupied new ls := by
  refine everyStep_iff_of_invariant ownEntry_step (fun s e hown => ?_) ownEntry_new
  exact ⟨unoccupied_of_updatesOne, fun h => updatesOne_of_unoccupied h hown⟩

instance (s : PlantMinder) : (e : MinderEvent) → Decidable (Unoccupied s e)
  | .nodeState (.registration reg) => inferInstanceAs (Decidable (∀ n ∈ s.nodes.lookup reg.ip,
      s.Evicts reg.eui reg.ip ∨ n.eui = reg.eui ∧ n.name = reg.name))
  | .nodeState (.termination _ _) => inferInstanceAs (Decidable True)
  | .appCmd _ => inferInstanceAs (Decidable True)
  | .recvMany _ _ _ => inferInstanceAs (Decidable True)

/-- Device 1 registers again, under another name. -/
def rename : MinderEvent :=
  .nodeState (.registration ⟨.of 0x60 0x55 0xf9 0xf6 0 1, ipOf 1, "basil"⟩)

/-- After device 1 has registered, neither device 2 at its address nor a new name for device 1 gets
into the entry. -/
theorem not_updatesOne : ∃ s, run step new [register 1 1] = some s
    ∧ ¬ UpdatesOne s (register 2 1) ∧ ¬ UpdatesOne s rename := by
  obtain ⟨s, hs, hother, hname⟩ : ∃ s, run step new [register 1 1] = some s
      ∧ ¬ Unoccupied s (register 2 1) ∧ ¬ Unoccupied s rename := by
    decide +kernel
  exact ⟨s, hs, fun h => hother (unoccupied_of_updatesOne h),
    fun h => hname (unoccupied_of_updatesOne h)⟩

end PlantMinder

end Pmind
