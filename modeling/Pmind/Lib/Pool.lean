import Mathlib.Data.Finset.Card

/-!
# What a pool has and what is out of it

Elements are taken out of a pool and given back. Those in it and those out split the set it began
with, whatever is taken and given back: so what is taken was not out, and there is nothing to take
exactly if as many are out as there were.
-/

namespace Pool

variable {α : Type*} [DecidableEq α]

/-- What is free and what is out make up `all`, and nothing is both. -/
structure Splits (all free out : Finset α) : Prop where
  disjoint : Disjoint free out
  union : free ∪ out = all

namespace Splits

variable {all free out : Finset α} {a : α}

theorem init (all : Finset α) : Splits all all ∅ :=
  ⟨Finset.disjoint_empty_right all, Finset.union_empty all⟩

theorem take (h : Splits all free out) (ha : a ∈ free) :
    Splits all (free.erase a) (insert a out) := by
  refine ⟨?_, ?_⟩
  · rw [Finset.disjoint_insert_right]
    exact ⟨Finset.notMem_erase a free, h.disjoint.mono_left (Finset.erase_subset a free)⟩
  · rw [Finset.union_insert, ← Finset.insert_union, Finset.insert_erase ha]
    exact h.union

theorem give (h : Splits all free out) (ha : a ∈ out) :
    Splits all (insert a free) (out.erase a) := by
  refine ⟨?_, ?_⟩
  · rw [Finset.disjoint_insert_left]
    exact ⟨Finset.notMem_erase a out, h.disjoint.mono_right (Finset.erase_subset a out)⟩
  · rw [Finset.insert_union, ← Finset.union_insert, Finset.insert_erase ha]
    exact h.union

theorem mem_all_of_free (h : Splits all free out) (ha : a ∈ free) : a ∈ all :=
  h.union ▸ Finset.mem_union_left out ha

theorem notMem_out (h : Splits all free out) (ha : a ∈ free) : a ∉ out :=
  Finset.disjoint_left.mp h.disjoint ha

theorem free_eq_empty_iff (h : Splits all free out) : free = ∅ ↔ out.card = all.card := by
  have hcard : free.card + out.card = all.card := by
    rw [← h.union, Finset.card_union_of_disjoint h.disjoint]
  rw [← Finset.card_eq_zero]
  omega

end Splits

end Pool
