import Mathlib.Data.Finmap

/-!
# Hash maps

A hash map is a `Finmap` with one type of values. An iteration over it visits each entry once, in
an order of its own (`Iter`). What a map holds under a view `f` of its values (`Holds`), and
whether no two keys hold the same (`UniqueBy`), is followed through `insert` and `erase`.
-/

section Bounded

variable {α : Type*}

/-! A bounded quantifier is decided by going through the bound, also over a type that has few
enough values to go through them all. -/

instance (priority := high) decidableForallMemFinset (s : Finset α) (P : α → Prop)
    [DecidablePred P] : Decidable (∀ a ∈ s, P a) :=
  Finset.decidableDforallFinset

instance (priority := high) decidableForallMemOption (o : Option α) (P : α → Prop)
    [DecidablePred P] : Decidable (∀ a ∈ o, P a) :=
  Option.decidableForallMem o

instance (priority := high) decidableForallMemList (l : List α) (P : α → Prop)
    [DecidablePred P] : Decidable (∀ a ∈ l, P a) :=
  List.decidableBAll P l

end Bounded

/-- Finitely many keys, each with one value. -/
abbrev HashMap (K V : Type*) := Finmap fun _ : K => V

namespace HashMap

variable {K V β : Type*}

/-- `l` visits each entry of `m` once: an order an iteration over `m` can take. -/
def Iter (m : HashMap K V) (l : List (K × V)) : Prop :=
  ((l.map fun e => (⟨e.1, e.2⟩ : Σ _ : K, V) : List _) : Multiset (Σ _ : K, V)) = m.entries

instance [DecidableEq K] [DecidableEq V] (m : HashMap K V) (l : List (K × V)) :
    Decidable (m.Iter l) := by
  unfold Iter
  infer_instance

/-- What `iter().next()` can give: some key's entry, and nothing only of an empty set. -/
def IterNext (s : Finset K) : Option K → Prop
  | none => s = ∅
  | some k => k ∈ s

instance [DecidableEq K] (s : Finset K) : (k : Option K) → Decidable (IterNext s k)
  | none => inferInstanceAs (Decidable (s = ∅))
  | some k => inferInstanceAs (Decidable (k ∈ s))

variable [DecidableEq K]

theorem Iter.mem {m : HashMap K V} {l : List (K × V)} (h : m.Iter l) {k : K} {v : V} :
    (k, v) ∈ l ↔ m.lookup k = some v := by
  rw [Finmap.lookup_eq_some_iff, ← h]
  simp only [Multiset.mem_coe, List.mem_map, Sigma.mk.injEq, heq_eq_eq, Prod.exists]
  constructor
  · intro hl
    exact ⟨k, v, hl, rfl, rfl⟩
  · rintro ⟨k', v', hl, rfl, rfl⟩
    exact hl

omit [DecidableEq K] in
theorem Iter.nodup {m : HashMap K V} {l : List (K × V)} (h : m.Iter l) :
    (l.map Prod.fst).Nodup := by
  have hk := m.nodupKeys
  rw [← h, Multiset.coe_nodupKeys] at hk
  simpa [List.NodupKeys, List.keys, List.map_map, Function.comp_def] using hk

omit [DecidableEq K] in
theorem Iter.length_eq {m : HashMap K V} {l : List (K × V)} (h : m.Iter l) :
    l.length = m.keys.card := by
  have hcard : m.keys.card = Multiset.card m.entries := Multiset.card_map _ _
  rw [hcard, ← h, Multiset.coe_card, List.length_map]

omit [DecidableEq K] in
theorem exists_iter (m : HashMap K V) : ∃ l, m.Iter l := by
  obtain ⟨l, hl⟩ := Quot.exists_rep m.entries
  refine ⟨l.map fun e => (e.1, e.2), ?_⟩
  simp only [Iter, List.map_map, Function.comp_def, List.map_id']
  exact hl

omit [DecidableEq K] in
theorem exists_iterNext (s : Finset K) : ∃ k, IterNext s k := by
  rcases s.eq_empty_or_nonempty with rfl | ⟨k, hk⟩
  · exact ⟨none, rfl⟩
  · exact ⟨some k, hk⟩

omit [DecidableEq K] in
theorem IterNext.mem {s : Finset K} {k : Option K} (h : IterNext s k) (hs : s ≠ ∅) :
    ∃ a ∈ s, k = some a := by
  cases k with
  | none => exact absurd h hs
  | some a => exact ⟨a, h, rfl⟩

omit [DecidableEq K] in
theorem IterNext.of_empty : ∀ {k : Option K}, IterNext ∅ k → k = none
  | none, _ => rfl
  | some a, h => absurd h (Finset.notMem_empty a)

theorem forall_lookup {m : HashMap K V} {P : K → V → Prop} :
    (∀ k v, m.lookup k = some v → P k v) ↔ ∀ k ∈ m.keys, ∀ v ∈ m.lookup k, P k v :=
  ⟨fun h k _ v hv => h k v hv,
    fun h k v hv => h k (Finmap.mem_keys.mpr (Finmap.mem_of_lookup_eq_some hv)) v hv⟩

instance (priority := high) (m : HashMap K V) (P : K → V → Prop) [∀ k v, Decidable (P k v)] :
    Decidable (∀ k v, m.lookup k = some v → P k v) :=
  decidable_of_iff _ forall_lookup.symm

theorem ne_empty_iff {m : HashMap K V} : m ≠ ∅ ↔ ∃ k v, m.lookup k = some v := by
  constructor
  · intro h
    by_contra hno
    refine h (Finmap.ext_lookup fun k => ?_)
    rw [Finmap.lookup_empty]
    exact Option.eq_none_iff_forall_ne_some.mpr fun v hv => hno ⟨k, v, hv⟩
  · rintro ⟨k, v, h⟩ rfl
    simp at h

theorem card_keys_pos {m : HashMap K V} : 0 < m.keys.card ↔ m ≠ ∅ := by
  rw [ne_empty_iff, Finset.card_pos, Finset.Nonempty]
  simp only [Finmap.mem_keys, Finmap.mem_iff]

/-! ## What a map holds -/

/-- Some key of `m` holds a value that `f` sends to `b`. -/
def Holds (f : V → β) (m : HashMap K V) (b : β) : Prop := ∃ k v, m.lookup k = some v ∧ f v = b

instance [DecidableEq β] (f : V → β) (m : HashMap K V) (b : β) : Decidable (Holds f m b) :=
  decidable_of_iff (∃ k ∈ m.keys, ∃ v ∈ m.lookup k, f v = b) <| by
    constructor
    · rintro ⟨k, -, v, hv, hb⟩
      exact ⟨k, v, hv, hb⟩
    · rintro ⟨k, v, hv, hb⟩
      exact ⟨k, Finmap.mem_keys.mpr (Finmap.mem_of_lookup_eq_some hv), v, hv, hb⟩

def count [DecidableEq β] (f : V → β) (m : HashMap K V) (b : β) : ℕ :=
  (m.entries.map fun e => f e.2).count b

/-- No two keys of `m` hold values that `f` sends to the same. -/
def UniqueBy (f : V → β) (m : HashMap K V) : Prop :=
  ∀ k k' v v', m.lookup k = some v → m.lookup k' = some v' → f v = f v' → k = k'

@[simp] theorem not_holds_empty (f : V → β) (b : β) : ¬ Holds f (∅ : HashMap K V) b := by
  rintro ⟨k, v, h, -⟩
  simp at h

theorem uniqueBy_empty (f : V → β) : UniqueBy f (∅ : HashMap K V) := by
  intro k k' v v' h
  simp at h

omit [DecidableEq K] in
theorem Iter.count_eq [DecidableEq β] {m : HashMap K V} {l : List (K × V)} (h : m.Iter l)
    (f : V → β) (b : β) : (l.map fun e => f e.2).count b = count f m b := by
  rw [count, ← h, Multiset.map_coe, Multiset.coe_count, List.map_map]
  rfl

theorem count_eq_zero [DecidableEq β] {f : V → β} {m : HashMap K V} {b : β}
    (h : ¬ Holds f m b) : count f m b = 0 := by
  refine Multiset.count_eq_zero.mpr fun hb => ?_
  obtain ⟨⟨k, v⟩, he, hv⟩ := Multiset.mem_map.mp hb
  exact h ⟨k, v, Finmap.lookup_eq_some_iff.mpr he, hv⟩

theorem count_eq_one [DecidableEq β] {f : V → β} {m : HashMap K V} {k : K} {v : V}
    (hk : m.lookup k = some v) (h : ∀ k' v', m.lookup k' = some v' → f v' = f v → k' = k) :
    count f m (f v) = 1 := by
  obtain ⟨l, hl⟩ := exists_iter m
  have hcongr : (l.map fun e => f e.2).count (f v) = (l.map Prod.fst).count k := by
    rw [List.count_eq_countP, List.count_eq_countP, List.countP_map, List.countP_map]
    refine List.countP_congr fun ⟨k', v'⟩ he => ?_
    have hk' := hl.mem.mp he
    simp only [Function.comp_apply, beq_iff_eq]
    refine ⟨h k' v' hk', fun heq => ?_⟩
    rw [heq, hk, Option.some.injEq] at hk'
    rw [hk']
  rw [← hl.count_eq, hcongr]
  exact List.count_eq_one_of_mem hl.nodup (List.mem_map.mpr ⟨(k, v), hl.mem.mpr hk, rfl⟩)

/-- Where one key at most holds a value, it is there once at most. -/
theorem count_le_one [DecidableEq β] {f : V → β} {m : HashMap K V} {b : β}
    (h : ∀ k k' v v', m.lookup k = some v → m.lookup k' = some v' → f v = b → f v' = b → k = k') :
    count f m b ≤ 1 := by
  by_cases hb : Holds f m b
  · obtain ⟨k, v, hk, rfl⟩ := hb
    exact (count_eq_one hk fun k' v' hk' hv => h k' k v' v hk' hk hv rfl).le
  · rw [count_eq_zero hb]
    exact Nat.zero_le 1

theorem lookup_insert_eq {m : HashMap K V} {k k' : K} {v : V} :
    (m.insert k v).lookup k' = if k' = k then some v else m.lookup k' := by
  split_ifs with h
  · rw [h, Finmap.lookup_insert]
  · rw [Finmap.lookup_insert_of_ne _ h]

theorem lookup_erase_eq {m : HashMap K V} {k k' : K} :
    (m.erase k).lookup k' = if k' = k then none else m.lookup k' := by
  split_ifs with h
  · rw [h, Finmap.lookup_erase]
  · rw [Finmap.lookup_erase_ne h]

theorem Holds.insert_self (f : V → β) (m : HashMap K V) (k : K) (v : V) :
    Holds f (m.insert k v) (f v) :=
  ⟨k, v, Finmap.lookup_insert m, rfl⟩

theorem Holds.of_insert {f : V → β} {m : HashMap K V} {k : K} {v : V} {b : β}
    (h : Holds f (m.insert k v) b) : f v = b ∨ Holds f m b := by
  obtain ⟨k', v', h, rfl⟩ := h
  rw [lookup_insert_eq] at h
  split_ifs at h with hkk
  · simp only [Option.some.injEq] at h
    exact Or.inl (by rw [h])
  · exact Or.inr ⟨k', v', h, rfl⟩

theorem holds_insert_of_notMem {f : V → β} {m : HashMap K V} {k : K} {v : V} (hk : k ∉ m) {b : β} :
    Holds f (m.insert k v) b ↔ f v = b ∨ Holds f m b := by
  constructor
  · exact Holds.of_insert
  · rintro (rfl | ⟨k', v', h, rfl⟩)
    · exact Holds.insert_self f m k v
    · refine ⟨k', v', ?_, rfl⟩
      have hne : k' ≠ k := by
        rintro rfl
        exact hk (Finmap.mem_of_lookup_eq_some h)
      rw [lookup_insert_eq, if_neg hne, h]

/-- An insert keeps the values apart exactly if no other key holds what is inserted. -/
theorem UniqueBy.insert_iff {f : V → β} {m : HashMap K V} (hm : UniqueBy f m) {k : K} {v : V} :
    UniqueBy f (m.insert k v) ↔ ∀ k' v', m.lookup k' = some v' → f v' = f v → k' = k := by
  refine ⟨?_, ?_⟩
  · intro h k' v' hl hf
    by_contra hne
    refine hne (h k' k v' v ?_ (Finmap.lookup_insert m) hf)
    rw [Finmap.lookup_insert_of_ne _ hne]
    exact hl
  · intro h k₁ k₂ v₁ v₂ h₁ h₂ hf
    rw [lookup_insert_eq] at h₁ h₂
    split_ifs at h₁ with hk₁ <;> split_ifs at h₂ with hk₂
    · rw [hk₁, hk₂]
    · simp only [Option.some.injEq] at h₁
      rw [hk₁, h k₂ v₂ h₂ (by rw [← hf, h₁])]
    · simp only [Option.some.injEq] at h₂
      rw [hk₂, h k₁ v₁ h₁ (by rw [hf, h₂])]
    · exact hm k₁ k₂ v₁ v₂ h₁ h₂ hf

theorem UniqueBy.insert {f : V → β} {m : HashMap K V} (hm : UniqueBy f m) {k : K} {v : V}
    (hv : ¬ Holds f m (f v)) : UniqueBy f (m.insert k v) :=
  hm.insert_iff.mpr fun k' v' hl hf => absurd ⟨k', v', hl, hf⟩ hv

theorem UniqueBy.of_le {f : V → β} {m m' : HashMap K V} (hm : UniqueBy f m)
    (h : ∀ k v, m'.lookup k = some v → m.lookup k = some v) : UniqueBy f m' :=
  fun k₁ k₂ v₁ v₂ h₁ h₂ hf => hm k₁ k₂ v₁ v₂ (h k₁ v₁ h₁) (h k₂ v₂ h₂) hf

end HashMap
