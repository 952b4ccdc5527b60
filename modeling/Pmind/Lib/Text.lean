import Mathlib.Data.List.Basic

/-!
# Numerals and separated lists

The digits of a number in a base up to sixteen determine it, and they are digits. A list of texts
printed with a separator none of them contains determines the list.
-/

namespace Text

section Numerals

variable {b : ℕ}

theorem digitChar_injective : ∀ {i j : ℕ}, i < 16 → j < 16 → i.digitChar = j.digitChar → i = j := by
  have h : ∀ i j : Fin 16, i.val.digitChar = j.val.digitChar → i = j := by decide
  intro i j hi hj hij
  exact congrArg Fin.val (h ⟨i, hi⟩ ⟨j, hj⟩ hij)

theorem toDigits_injective (hb : 1 < b) (hb' : b ≤ 16) {n m : ℕ}
    (h : Nat.toDigits b n = Nat.toDigits b m) : n = m := by
  induction n using Nat.strongRecOn generalizing m with
  | ind n ih =>
    rw [Nat.toDigits_eq_if hb, Nat.toDigits_eq_if hb (n := m)] at h
    have hmod : n % b < b ∧ m % b < b := ⟨Nat.mod_lt _ (by omega), Nat.mod_lt _ (by omega)⟩
    split_ifs at h with hn hm hm
    · exact digitChar_injective (by omega) (by omega) (List.singleton_injective h)
    · have hlen := congrArg List.length h
      have hpos := Nat.length_toDigits_pos (b := b) (n := m / b)
      simp only [List.length_cons, List.length_append, List.length_nil] at hlen
      omega
    · have hlen := congrArg List.length h
      have hpos := Nat.length_toDigits_pos (b := b) (n := n / b)
      simp only [List.length_cons, List.length_append, List.length_nil] at hlen
      omega
    · obtain ⟨hdiv, hlast⟩ := List.append_inj' h rfl
      have hd := ih (n / b) (Nat.div_lt_self (by omega) hb) hdiv
      have hr := digitChar_injective (by omega) (by omega) (List.singleton_injective hlast)
      rw [← Nat.div_add_mod n b, ← Nat.div_add_mod m b, hd, hr]

theorem mem_toDigits (hb : 1 < b) (hb' : b ≤ 16) {n : ℕ} {c : Char} (h : c ∈ Nat.toDigits b n) :
    ∃ d < 16, c = d.digitChar := by
  induction n using Nat.strongRecOn with
  | ind n ih =>
    have hmod : n % b < b := Nat.mod_lt _ (by omega)
    rw [Nat.toDigits_eq_if hb] at h
    split_ifs at h with hn
    · exact ⟨n, by omega, List.mem_singleton.mp h⟩
    · rcases List.mem_append.mp h with h | h
      · exact ih (n / b) (Nat.div_lt_self (by omega) hb) h
      · exact ⟨n % b, by omega, List.mem_singleton.mp h⟩

/-- A character that is no digit is not in a numeral. -/
theorem notMem_toDigits (hb : 1 < b) (hb' : b ≤ 16) {c : Char}
    (hc : ∀ d : Fin 16, d.val.digitChar ≠ c) (n : ℕ) : c ∉ Nat.toDigits b n := fun h => by
  obtain ⟨d, hd, rfl⟩ := mem_toDigits hb hb' h
  exact hc ⟨d, hd⟩ rfl

end Numerals

section Separated

variable {α : Type*} {x : α}

theorem intercalate_append : ∀ {ls ls' : List (List α)}, ls ≠ [] → ls' ≠ [] →
    [x].intercalate (ls ++ ls') = [x].intercalate ls ++ x :: [x].intercalate ls'
  | [], _, h, _ => absurd rfl h
  | [l], ls', _, h' => by
    rw [List.singleton_append, List.intercalate_cons_of_ne_nil h', List.intercalate_singleton]
    simp
  | l :: l' :: ls, ls', _, h' => by
    have ih := intercalate_append (List.cons_ne_nil l' ls) h'
    rw [List.cons_append, List.cons_append, List.intercalate_cons_cons, ← List.cons_append, ih,
      List.intercalate_cons_cons]
    simp

theorem intercalate_injective [DecidableEq α] {ls ls' : List (List α)} (h : ∀ l ∈ ls, x ∉ l)
    (h' : ∀ l ∈ ls', x ∉ l) (hne : ls ≠ []) (hne' : ls' ≠ [])
    (heq : [x].intercalate ls = [x].intercalate ls') : ls = ls' := by
  rw [← List.splitOn_intercalate x h hne, heq, List.splitOn_intercalate x h' hne']

end Separated

end Text
