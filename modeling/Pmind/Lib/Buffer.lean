import Mathlib.Data.List.Basic

/-!
# A buffer written and read in slices

A slice that is not within the buffer is none. What is copied to a slice is what the slice then
holds, and the buffer keeps its length.
-/

namespace Buffer

variable {α : Type*}

/-- The elements from `start` up to `stop`. -/
def slice (buffer : List α) (start stop : ℕ) : Option (List α) :=
  if start ≤ stop ∧ stop ≤ buffer.length then some ((buffer.take stop).drop start) else none

/-- The buffer with `bytes` copied to it at `start`. -/
def copyAt (buffer : List α) (start : ℕ) (bytes : List α) : Option (List α) :=
  if start + bytes.length ≤ buffer.length then
    some (buffer.take start ++ bytes ++ buffer.drop (start + bytes.length))
  else none

variable {buffer buffer' bytes : List α} {start : ℕ}

theorem copyAt_eq_some : copyAt buffer start bytes = some buffer' ↔
    start + bytes.length ≤ buffer.length
      ∧ buffer.take start ++ bytes ++ buffer.drop (start + bytes.length) = buffer' := by
  unfold copyAt
  split_ifs with h
  · simp [h]
  · simp [h]

theorem copyAt_eq_none : copyAt buffer start bytes = none ↔
    buffer.length < start + bytes.length := by
  unfold copyAt
  split_ifs with h
  · simp [Nat.not_lt.mpr h]
  · simpa using h

theorem exists_copyAt (h : start + bytes.length ≤ buffer.length) :
    ∃ buffer', copyAt buffer start bytes = some buffer' :=
  ⟨_, copyAt_eq_some.mpr ⟨h, rfl⟩⟩

theorem length_copyAt (h : copyAt buffer start bytes = some buffer') :
    buffer'.length = buffer.length := by
  obtain ⟨hroom, rfl⟩ := copyAt_eq_some.mp h
  simp only [List.length_append, List.length_take, List.length_drop]
  omega

theorem slice_copyAt (h : copyAt buffer start bytes = some buffer') :
    slice buffer' start (start + bytes.length) = some bytes := by
  have hlen := length_copyAt h
  obtain ⟨hroom, rfl⟩ := copyAt_eq_some.mp h
  have hstart : (buffer.take start).length = start := by
    rw [List.length_take]
    omega
  have hstop : (buffer.take start ++ bytes).length = start + bytes.length := by
    rw [List.length_append, hstart]
  rw [slice, if_pos ⟨Nat.le_add_right _ _, hlen ▸ hroom⟩, List.take_left' hstop,
    List.drop_left' hstart]

end Buffer
