import Mathlib.Data.List.DropRight
import Mathlib.Order.Bounds.Basic
import Mathlib.Order.MinMax

/-!
# A running minimum with zero for none

A fold that keeps the least element so far, and takes zero to say that there is none so far. A
negative element makes it the minimum from then on. Among elements that are not negative each zero
starts the fold anew, so it ends with the least element after the last zero
(`isLeast_rtakeWhile`), or with zero right after one.
-/

namespace RunningMin

variable {α : Type*} [LinearOrder α] [Zero α]

def next (m x : α) : α :=
  let m := if m = 0 then x else m
  if x < m then x else m

def lowest (xs : List α) : α := xs.foldl next 0

theorem next_zero (x : α) : next 0 x = x := by simp [next]

theorem next_of_ne {m : α} (h : m ≠ 0) (x : α) : next m x = min m x := by
  simp only [next, if_neg h]
  split_ifs with hx
  · rw [min_eq_right hx.le]
  · rw [min_eq_left (not_lt.mp hx)]

theorem lowest_concat (xs : List α) (x : α) : lowest (xs ++ [x]) = next (lowest xs) x := by
  simp [lowest]

variable {xs : List α}

omit [Zero α] in
theorem isLeast_concat {m x : α} (h : IsLeast {y | y ∈ xs} m) :
    IsLeast {y | y ∈ xs ++ [x]} (min m x) := by
  have hset : {y | y ∈ xs ++ [x]} = {y | y ∈ xs} ∪ {x} := by
    ext y
    simp [or_comm]
  rw [hset]
  exact h.union isLeast_singleton

/-! ## Elements that are not negative -/

theorem lowest_nonneg (h : ∀ x ∈ xs, 0 ≤ x) : 0 ≤ lowest xs := by
  induction xs using List.reverseRecOn with
  | nil => exact le_rfl
  | append_singleton xs x ih =>
    rw [List.forall_mem_append, List.forall_mem_singleton] at h
    rw [lowest_concat]
    by_cases hm : lowest xs = 0
    · rw [hm, next_zero]
      exact h.2
    · rw [next_of_ne hm]
      exact le_min (ih h.1) h.2

theorem lowest_eq_zero_iff (h : ∀ x ∈ xs, 0 ≤ x) (hne : xs ≠ []) :
    lowest xs = 0 ↔ xs.getLast? = some 0 := by
  obtain ⟨xs, x, rfl⟩ := (List.eq_nil_or_concat' xs).resolve_left hne
  rw [List.forall_mem_append, List.forall_mem_singleton] at h
  rw [lowest_concat, List.getLast?_concat, Option.some.injEq]
  by_cases hm : lowest xs = 0
  · rw [hm, next_zero]
  · have hpos : 0 < lowest xs := lt_of_le_of_ne (lowest_nonneg h.1) (Ne.symm hm)
    rw [next_of_ne hm]
    constructor
    · intro hmin
      exact le_antisymm (by_contra fun hx => (lt_min hpos (not_le.mp hx)).ne' hmin) h.2
    · rintro rfl
      exact min_eq_right hpos.le

theorem rtakeWhile_eq_nil (h : xs = [] ∨ xs.getLast? = some 0) :
    xs.rtakeWhile (· ≠ 0) = [] := by
  rcases h with rfl | h
  · rfl
  · obtain ⟨ys, rfl⟩ := List.getLast?_eq_some_iff.mp h
    exact List.rtakeWhile_concat_neg _ _ _ (by simp)

theorem isLeast_rtakeWhile (h : ∀ x ∈ xs, 0 ≤ x) (hm : lowest xs ≠ 0) :
    IsLeast {x | x ∈ xs.rtakeWhile (· ≠ 0)} (lowest xs) := by
  induction xs using List.reverseRecOn with
  | nil => exact absurd rfl hm
  | append_singleton xs x ih =>
    have hx : x ≠ 0 := by
      rintro rfl
      exact hm ((lowest_eq_zero_iff h (by simp)).mpr (by simp))
    rw [List.forall_mem_append] at h
    rw [lowest_concat] at hm ⊢
    rw [List.rtakeWhile_concat_pos _ _ _ (by simpa using hx)]
    by_cases hz : lowest xs = 0
    · have hnil : xs.rtakeWhile (· ≠ 0) = [] := by
        rcases eq_or_ne xs [] with rfl | hne
        · exact rtakeWhile_eq_nil (Or.inl rfl)
        · exact rtakeWhile_eq_nil (Or.inr ((lowest_eq_zero_iff h.1 hne).mp hz))
      rw [hz, next_zero, hnil]
      simp
    · rw [next_of_ne hz]
      exact isLeast_concat (ih h.1 hz)

/-! ## The least element -/

theorem isLeast_of_neg (h : ∃ x ∈ xs, x < 0) :
    lowest xs < 0 ∧ IsLeast {x | x ∈ xs} (lowest xs) := by
  induction xs using List.reverseRecOn with
  | nil => simp at h
  | append_singleton xs x ih =>
    rw [lowest_concat]
    by_cases hneg : ∃ y ∈ xs, y < 0
    · obtain ⟨hlt, hleast⟩ := ih hneg
      rw [next_of_ne hlt.ne]
      exact ⟨min_lt_iff.mpr (Or.inl hlt), isLeast_concat hleast⟩
    · -- `x` is the first that is negative
      have hnonneg : ∀ y ∈ xs, 0 ≤ y := fun y hy => not_lt.mp fun hlt => hneg ⟨y, hy, hlt⟩
      have hx : x < 0 := by
        obtain ⟨y, hy, hlt⟩ := h
        rcases List.mem_append.mp hy with hy | hy
        · exact absurd ⟨y, hy, hlt⟩ hneg
        · rwa [← List.mem_singleton.mp hy]
      have hnext : next (lowest xs) x = x := by
        by_cases hm : lowest xs = 0
        · rw [hm, next_zero]
        · rw [next_of_ne hm, min_eq_right (hx.le.trans (lowest_nonneg hnonneg))]
      rw [hnext]
      refine ⟨hx, by simp, fun y hy => ?_⟩
      rcases List.mem_append.mp hy with hy | hy
      · exact hx.le.trans (hnonneg y hy)
      · exact (List.mem_singleton.mp hy).ge

theorem isLeast_lowest_iff (hne : xs ≠ []) : IsLeast {x | x ∈ xs} (lowest xs) ↔
    (∃ x ∈ xs, x < 0) ∨ 0 ∉ xs ∨ xs.getLast? = some 0 := by
  by_cases hneg : ∃ x ∈ xs, x < 0
  · exact iff_of_true (isLeast_of_neg hneg).2 (Or.inl hneg)
  have hnonneg : ∀ x ∈ xs, 0 ≤ x := fun x hx => not_lt.mp fun hlt => hneg ⟨x, hx, hlt⟩
  constructor
  · intro hleast
    by_cases hz : (0 : α) ∈ xs
    · have hlow : lowest xs = 0 := le_antisymm (hleast.2 hz) (lowest_nonneg hnonneg)
      exact Or.inr (Or.inr ((lowest_eq_zero_iff hnonneg hne).mp hlow))
    · exact Or.inr (Or.inl hz)
  · rintro (h | hz | hlast)
    · exact absurd h hneg
    · have hall : xs.rtakeWhile (· ≠ 0) = xs := by
        refine List.rtakeWhile_eq_self_iff.mpr fun x hx => ?_
        simpa using ne_of_mem_of_not_mem hx hz
      have hlow : lowest xs ≠ 0 := fun h0 =>
        hz (List.mem_of_getLast? ((lowest_eq_zero_iff hnonneg hne).mp h0))
      have hleast := isLeast_rtakeWhile hnonneg hlow
      rwa [hall] at hleast
    · rw [(lowest_eq_zero_iff hnonneg hne).mpr hlast]
      exact ⟨List.mem_of_getLast? hlast, hnonneg⟩

/-! ## The greatest element -/

theorem isGreatest_lowest_iff (hne : xs ≠ []) (h : ∀ x ∈ xs, 0 ≤ x) :
    IsGreatest {x | x ∈ xs} (lowest xs) ↔ (xs.getLast? = some 0 → ∀ y ∈ xs, y = 0)
      ∧ ∀ x ∈ xs.rtakeWhile (· ≠ 0), ∀ y ∈ xs, y ≤ x := by
  by_cases hlow : lowest xs = 0
  · have hlast := (lowest_eq_zero_iff h hne).mp hlow
    rw [hlow, rtakeWhile_eq_nil (Or.inr hlast)]
    constructor
    · intro hgreat
      exact ⟨fun _ y hy => le_antisymm (hgreat.2 hy) (h y hy), by simp⟩
    · rintro ⟨hzero, -⟩
      exact ⟨List.mem_of_getLast? hlast, fun y hy => (hzero hlast y hy).le⟩
  · have hleast := isLeast_rtakeWhile h hlow
    constructor
    · intro hgreat
      refine ⟨fun hlast => absurd ((lowest_eq_zero_iff h hne).mpr hlast) hlow, ?_⟩
      intro x hx y hy
      exact (hgreat.2 hy).trans (hleast.2 hx)
    · rintro ⟨-, htop⟩
      have hmem : lowest xs ∈ xs := (List.rtakeWhile_suffix _ _).subset hleast.1
      exact ⟨hmem, fun y hy => htop _ hleast.1 y hy⟩

end RunningMin
