import Pmind.Lib.RunningMin
import Pmind.NodeHistory

/-!
# Whether a graph's extents cover its points

Both extents are running minima that take zero for a bound not set yet (`extents_eq`). So `min_t` is
the least timestamp unless one was zero and a later one is not, and all are positive otherwise. The
other should have been a maximum: `max_l` is the greatest full-spectrum value only where every
reading since the last dark one is the brightest there is.
-/

namespace Pmind

open RunningMin

namespace NodeHistory

def ts (h : NodeSensorReading) : ℤ := h.data.ts.toInt

def fs (h : NodeSensorReading) : ℤ := h.data.lightOrDefault.fs.toNat

theorem next_eq (e : Extents) (h : NodeSensorReading) :
    e.next h = ⟨next e.minT (ts h), next e.maxL (fs h)⟩ := rfl

theorem foldl_next (history : List NodeSensorReading) (e : Extents) :
    history.foldl Extents.next e
      = ⟨(history.map ts).foldl next e.minT, (history.map fs).foldl next e.maxL⟩ := by
  induction history generalizing e with
  | nil => rfl
  | cons h history ih => rw [List.foldl_cons, ih, next_eq, List.map_cons, List.map_cons]; rfl

theorem extents_eq (history : List NodeSensorReading) :
    extents history = ⟨lowest (history.map ts), lowest (history.map fs)⟩ :=
  foldl_next history ⟨0, 0⟩

theorem fs_nonneg (history : List NodeSensorReading) : ∀ l ∈ history.map fs, 0 ≤ l := by
  intro l hl
  obtain ⟨h, -, rfl⟩ := List.mem_map.mp hl
  exact Int.natCast_nonneg _

/-! ## The extents -/

/-- `min_t` and `max_l` are the extrema, so the Lumens graph has no point above it or left of it. -/
structure Covers (history : List NodeSensorReading) : Prop where
  minT : IsLeast {t | t ∈ history.map ts} (extents history).minT
  maxL : IsGreatest {l | l ∈ history.map fs} (extents history).maxL
  above : ∀ x y, (x, .ofInt y) ∈ (graph .lumens history).points →
    y ≤ (graph .lumens history).yBounds.2
  left : ∀ p ∈ (graph .lumens history).points, (graph .lumens history).minX ≤ p.1

/-- No timestamp is zero, or that does not matter for the least of them: one is negative, or the
last one is zero. -/
def Timed (history : List NodeSensorReading) : Prop :=
  (∃ t ∈ history.map ts, t < 0) ∨ 0 ∉ history.map ts ∨ (history.map ts).getLast? = some 0

/-- Every reading after the last dark one is the brightest, and if there is none after it all are
dark. -/
def Levelled (history : List NodeSensorReading) : Prop :=
  ((history.map fs).getLast? = some 0 → ∀ l ∈ history.map fs, l = 0)
    ∧ ∀ l ∈ (history.map fs).rtakeWhile (· ≠ 0), ∀ l' ∈ history.map fs, l' ≤ l

theorem covers_of_extrema {history : List NodeSensorReading}
    (hmin : IsLeast {t | t ∈ history.map ts} (extents history).minT)
    (hmax : IsGreatest {l | l ∈ history.map fs} (extents history).maxL) : Covers history := by
  refine ⟨hmin, hmax, ?_, ?_⟩
  · intro x y hp
    obtain ⟨h, hh, heq⟩ := List.mem_map.mp hp
    cases heq
    have hle : fs h ≤ (extents history).maxL := hmax.2 (List.mem_map_of_mem hh)
    exact hle.trans (Int.le_add_of_nonneg_right (by decide))
  · intro p hp
    obtain ⟨h, hh, rfl⟩ := List.mem_map.mp hp
    have hle : (extents history).minT ≤ ts h := hmin.2 (List.mem_map_of_mem hh)
    exact hle

/-- The extents cover the history exactly if zero is not taken for an unset bound before a later
timestamp, and the light did not vary since it was last dark, nor was brighter before. -/
theorem covers_iff (history : List NodeSensorReading) (hne : history ≠ []) :
    Covers history ↔ Timed history ∧ Levelled history := by
  have hts : history.map ts ≠ [] := by simpa using hne
  have hfs : history.map fs ≠ [] := by simpa using hne
  have hmin := isLeast_lowest_iff hts
  have hmax := isGreatest_lowest_iff hfs (fs_nonneg history)
  have hminT : (extents history).minT = lowest (history.map ts) := by rw [extents_eq]
  have hmaxL : (extents history).maxL = lowest (history.map fs) := by rw [extents_eq]
  rw [← hminT] at hmin
  rw [← hmaxL] at hmax
  constructor
  · intro h
    exact ⟨hmin.mp h.minT, hmax.mp h.maxL⟩
  · rintro ⟨htimed, hlevelled⟩
    exact covers_of_extrema (hmin.mpr htimed) (hmax.mpr hlevelled)

def reading (t : Int64) (l : UInt16) : NodeSensorReading :=
  ⟨⟨.localhost, 1212⟩, ⟨⟨0, 0⟩, some ⟨l, 0⟩, none, t⟩⟩

theorem covers_steady : Covers [reading 70 0, reading 50 30, reading 60 30] :=
  (covers_iff _ (by simp)).mpr ⟨Or.inr (Or.inl (by decide)), by decide, by decide⟩

/-- It gets brighter, and the graph ends at 110. -/
theorem not_covers : (60, .ofInt 500) ∈ (graph .lumens [reading 50 10, reading 60 500]).points
    ∧ (graph .lumens [reading 50 10, reading 60 500]).yBounds.2 = 110
    ∧ ¬ Covers [reading 50 10, reading 60 500] := by
  have hmem : (60, .ofInt 500) ∈ (graph .lumens [reading 50 10, reading 60 500]).points :=
    List.mem_cons_of_mem _ (List.mem_singleton.mpr rfl)
  have hbound : (graph .lumens [reading 50 10, reading 60 500]).yBounds.2 = 110 := by decide
  refine ⟨hmem, hbound, fun h => ?_⟩
  have hle := h.above 60 500 hmem
  rw [hbound] at hle
  exact absurd hle (by decide)

end NodeHistory

end Pmind
