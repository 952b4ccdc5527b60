import Pmind.NodeHistory
import Pmind.Proofs.Minder

/-!
# The selected row

The views take the active row modulo the number of nodes, and `Down` and `Up` move it by one, but
for `Up` at row 0: that goes to the last of the addresses in `node_addrs`. It is the row before 0 in
the views exactly if the number of nodes divides that of the addresses (`cyclic_iff`), so as long as
the two maps are inverse.
-/

namespace Pmind

open HashMap Transition

namespace PlantMinder

/-- The number of nodes a view has rows for. -/
def rows (s : PlantMinder) : ℕ := s.nodes.keys.card

/-- The row that the views select. -/
def sel (s : PlantMinder) : ℕ := s.row % s.rows

theorem row_of_iter {s : PlantMinder} {iter : List (Ipv6Addr × Node)} (h : s.nodes.Iter iter)
    (hrows : 1 ≤ s.rows) (view : HistoryView) :
    (NodeHistory.new (.new iter) s.row view).row = s.sel := by
  have hlen : (NodeHistoryState.new iter).nodes.length = s.rows := by
    rw [NodeHistoryState.new, List.length_map, h.length_eq, rows]
  simp only [NodeHistory.row, NodeHistory.new, hlen, sel]
  rw [if_neg (by omega)]

/-! ## One command -/

@[simp] theorem rows_handleAppCmd (s : PlantMinder) (cmd : AppCmd) :
    (s.handleAppCmd cmd).rows = s.rows := by
  rcases cmd <;> rfl

@[simp] theorem down_row (s : PlantMinder) : (s.handleAppCmd .down).row = s.row + 1 := rfl

theorem up_row_pos {s : PlantMinder} (h : s.row ≠ 0) :
    (s.handleAppCmd .up).row = s.row - 1 := by
  simp only [handleAppCmd, if_neg h]

theorem up_row_zero {s : PlantMinder} (h : s.row = 0) (ha : s.nodeAddrs ≠ ∅) :
    (s.handleAppCmd .up).row = s.nodeAddrs.keys.card - 1 := by
  simp only [handleAppCmd, if_pos h, if_pos ha]

/-- What a step of a row does to it modulo the rows there are. -/
theorem sel_eq (s : PlantMinder) : (s.sel : ℤ) = (s.row : ℤ) % s.rows := Int.natCast_mod _ _

theorem sel_down (s : PlantMinder) :
    ((s.handleAppCmd .down).sel : ℤ) = ((s.sel : ℤ) + 1) % s.rows := by
  rw [sel_eq, sel_eq, down_row, rows_handleAppCmd, Int.emod_add_emod, Nat.cast_succ]

theorem sel_up_pos {s : PlantMinder} (h : s.row ≠ 0) :
    ((s.handleAppCmd .up).sel : ℤ) = ((s.sel : ℤ) - 1) % s.rows := by
  rw [sel_eq, sel_eq, up_row_pos h, rows_handleAppCmd, Int.emod_sub_emod,
    Nat.cast_pred (Nat.pos_of_ne_zero h)]

theorem sel_up_zero {s : PlantMinder} (h : s.row = 0) (ha : s.nodeAddrs ≠ ∅) :
    ((s.handleAppCmd .up).sel : ℤ) = ((s.sel : ℤ) - 1) % s.rows
      ↔ s.rows ∣ s.nodeAddrs.keys.card := by
  rw [sel_eq, sel_eq, up_row_zero h ha, rows_handleAppCmd, Int.emod_sub_emod,
    Nat.cast_pred (card_keys_pos.mpr ha), h, Int.emod_eq_emod_iff_emod_sub_eq_zero]
  simp only [Nat.cast_zero, sub_sub_sub_cancel_right, sub_zero]
  rw [← Int.dvd_iff_emod_eq_zero, Int.natCast_dvd_natCast]

/-- The selection goes round the rows of the views. -/
structure Cyclic (s : PlantMinder) : Prop where
  shown : ∀ iter view, s.nodes.Iter iter → (NodeHistory.new (.new iter) s.row view).row = s.sel
  down : ((s.handleAppCmd .down).sel : ℤ) = ((s.sel : ℤ) + 1) % s.rows
  up : ((s.handleAppCmd .up).sel : ℤ) = ((s.sel : ℤ) - 1) % s.rows
  upDown : ((s.handleAppCmd .down).handleAppCmd .up).sel = s.sel
  downUp : ((s.handleAppCmd .up).handleAppCmd .down).sel = s.sel

theorem cyclic_of_up {s : PlantMinder} (hrows : 1 ≤ s.rows)
    (hup : ((s.handleAppCmd .up).sel : ℤ) = ((s.sel : ℤ) - 1) % s.rows) : Cyclic s := by
  refine ⟨fun iter view h => row_of_iter h hrows view, sel_down s, hup, rfl, ?_⟩
  have hround : (((s.handleAppCmd .up).handleAppCmd .down).sel : ℤ) = s.sel := by
    rw [sel_down, hup, rows_handleAppCmd, Int.emod_add_emod, sub_add_cancel, sel_eq,
      Int.emod_emod_of_dvd _ (dvd_refl _)]
  exact Int.natCast_inj.mp hround

/-- `Up` at row 0 finds as many addresses as there are rows, or a multiple of that. -/
def Aligned (s : PlantMinder) : Prop := s.row = 0 → 1 ≤ s.rows → s.rows ∣ s.nodeAddrs.keys.card

theorem cyclic_iff {s : PlantMinder} (hrows : 1 ≤ s.rows) (ha : s.nodeAddrs ≠ ∅) :
    Cyclic s ↔ Aligned s := by
  by_cases h : s.row = 0
  · constructor
    · exact fun hc _ _ => (sel_up_zero h ha).mp hc.up
    · exact fun hal => cyclic_of_up hrows ((sel_up_zero h ha).mpr (hal h hrows))
  · exact iff_of_true (cyclic_of_up hrows (sel_up_pos h)) fun h0 => absurd h0 h

/-! ## A run -/

/-- Where there is a node there is an address. -/
def Addressed (s : PlantMinder) : Prop := s.nodes ≠ ∅ → s.nodeAddrs ≠ ∅

theorem addressed_step (s : PlantMinder) (e : MinderEvent) (s' : PlantMinder) (h : Addressed s)
    (hs : step s e = some s') : Addressed s' := by
  intro hne
  obtain ⟨limit, buffer, keys, rfl, -, ha, hn⟩ | ⟨reg, rfl, rfl⟩ | ⟨-, -, hn, ha⟩ :=
    step_cases hs
  · obtain ⟨k, n, hk⟩ := ne_empty_iff.mp hne
    rw [hn, Option.map_eq_some_iff] at hk
    obtain ⟨n', hk, -⟩ := hk
    rw [ha]
    exact h (ne_empty_iff.mpr ⟨k, n', hk⟩)
  · exact ne_empty_iff.mpr ⟨reg.eui, reg.ip, by rw [nodeRegistration_nodeAddrs, if_pos rfl]⟩
  · rw [hn] at hne
    rw [ha]
    exact h hne

def Navigable (s : PlantMinder) : Prop := 1 ≤ s.rows → Cyclic s

theorem navigable_iff {s : PlantMinder} (h : Addressed s) : Navigable s ↔ Aligned s := by
  by_cases hrows : 1 ≤ s.rows
  · have ha : s.nodeAddrs ≠ ∅ := h (card_keys_pos.mp hrows)
    rw [← cyclic_iff hrows ha]
    exact ⟨fun hn => hn hrows, fun hc _ => hc⟩
  · exact iff_of_true (fun h1 => absurd h1 hrows) fun _ h1 => absurd h1 hrows

theorem Indexed.aligned {s : PlantMinder} (h : Indexed s) : Aligned s := by
  intro _ _
  rw [rows, h.card_eq]

/-- In every run the selection goes round the rows in every state exactly if, wherever the active
row is 0, the number of nodes divides that of the addresses; and so it does if each registration's
address is no other device's and no device leaves an address with no history. -/
theorem navigable_run_iff (ls : List MinderEvent) :
    (EveryState step Navigable new ls ↔ EveryState step Aligned new ls)
      ∧ (EveryStep step Moves new ls → EveryState step Navigable new ls) := by
  have hiff : EveryState step Navigable new ls ↔ EveryState step Aligned new ls :=
    everyState_congr addressed_step (fun _ => navigable_iff) fun h => absurd rfl h
  refine ⟨hiff, fun hmoves => hiff.mpr ?_⟩
  have hindexed : EveryState step Indexed new ls :=
    everyStep_invariant (fun s e s' h hm hs => (indexed_step s e s' h hs).mpr hm) indexed_new hmoves
  exact hindexed.imp fun _ h => h.aligned

theorem navigable_moved : EveryState step Navigable new movedRun :=
  (navigable_run_iff movedRun).2 (by decide +kernel)

/-- A device moves before its first reading is in, so that there are two nodes and one address:
`Up` goes to row 0 again. -/
theorem not_navigable : ∃ s, run step new [register 1 1, register 1 2] = some s
    ∧ s.rows = 2 ∧ s.sel = 0 ∧ (s.handleAppCmd .up).sel = 0
    ∧ ¬ EveryState step Navigable new [register 1 1, register 1 2] := by
  obtain ⟨s, hs, hrows, hsel, hup⟩ : ∃ s, run step new [register 1 1, register 1 2] = some s
      ∧ s.rows = 2 ∧ s.sel = 0 ∧ (s.handleAppCmd .up).sel = 0 :=
    ⟨_, rfl, by decide +kernel⟩
  refine ⟨s, hs, hrows, hsel, hup, fun h => ?_⟩
  have hc := (h.last hs (by omega)).up
  rw [hsel, hup, hrows] at hc
  exact absurd hc (by decide)

end PlantMinder

end Pmind
