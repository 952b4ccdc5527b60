import Mathlib.Algebra.Order.Monoid.Unbundled.Basic

/-!
# Watchdogs

A timer that is armed for a duration `d` when it starts, and again at each beat. It fires `d` after
the first start or beat that no other beat follows by then (`expiry_le_iff`).
-/

namespace Watchdog

variable {T : Type*} [LinearOrder T] [Add T]

/-- When the timer fires that was last armed at `since`, if these are the beats to come. -/
def expiry (d : T) : (since : T) → (beats : List T) → T
  | since, [] => since + d
  | since, b :: beats => if since + d < b then since + d else expiry d b beats

/-- From `u` on, `d` passes without a beat. -/
def Quiet (d : T) (beats : List T) (u : T) : Prop := ∀ b ∈ beats, u < b → u + d < b

instance (d : T) (beats : List T) (u : T) : Decidable (Quiet d beats u) :=
  inferInstanceAs (Decidable (∀ b ∈ beats, u < b → u + d < b))

theorem expiry_cons_of_le {d since b : T} {beats : List T} (h : b ≤ since + d) :
    expiry d since (b :: beats) = expiry d b beats := by
  rw [expiry, if_neg (not_lt.mpr h)]

theorem expiry_eq_of_quiet {d since : T} : ∀ {beats : List T}, (∀ b ∈ beats, since + d < b) →
    expiry d since beats = since + d
  | [], _ => rfl
  | b :: _, h => by rw [expiry, if_pos (h b List.mem_cons_self)]

variable [AddRightMono T] {d : T}

theorem add_le_expiry : ∀ {since : T} {beats : List T}, (since :: beats).Pairwise (· < ·) →
    since + d ≤ expiry d since beats
  | since, [], _ => le_rfl
  | since, b :: beats, h => by
    obtain ⟨hsince, hbeats⟩ := List.pairwise_cons.mp h
    unfold expiry
    split_ifs
    · exact le_rfl
    · have hb : since + d ≤ b + d := by
        gcongr
        exact (hsince b List.mem_cons_self).le
      exact hb.trans (add_le_expiry hbeats)

/-- The timer has fired by `x` exactly if a quiet stretch of the length `d` has ended by then. -/
theorem expiry_le_iff {x : T} : ∀ {since : T} {beats : List T},
    (since :: beats).Pairwise (· < ·) →
      (expiry d since beats ≤ x ↔ ∃ u ∈ since :: beats, Quiet d beats u ∧ u + d ≤ x)
  | since, [], _ => by simp [expiry, Quiet]
  | since, b :: beats, h => by
    obtain ⟨hsince, hbeats⟩ := List.pairwise_cons.mp h
    obtain ⟨hb, -⟩ := List.pairwise_cons.mp hbeats
    by_cases hlt : since + d < b
    · rw [expiry, if_pos hlt]
      refine ⟨fun hx => ⟨since, List.mem_cons_self, ?_, hx⟩, ?_⟩
      · intro c hc _
        rcases List.mem_cons.mp hc with rfl | hc
        · exact hlt
        · exact hlt.trans (hb c hc)
      · rintro ⟨u, hu, -, hux⟩
        have hle : since ≤ u := by
          rcases List.mem_cons.mp hu with rfl | hu
          · exact le_rfl
          · exact (hsince u hu).le
        calc since + d ≤ u + d := by gcongr
          _ ≤ x := hux
    · rw [expiry_cons_of_le (not_lt.mp hlt), expiry_le_iff hbeats]
      refine ⟨?_, ?_⟩
      · rintro ⟨u, hu, hq, hux⟩
        refine ⟨u, List.mem_cons_of_mem _ hu, fun c hc huc => ?_, hux⟩
        rcases List.mem_cons.mp hc with rfl | hc
        · -- the first beat is before every later one
          rcases List.mem_cons.mp hu with rfl | hu
          · exact absurd huc (lt_irrefl _)
          · exact absurd (hb u hu) (lt_asymm huc)
        · exact hq c hc huc
      · rintro ⟨u, hu, hq, hux⟩
        rcases List.mem_cons.mp hu with rfl | hu
        · exact absurd (hq b List.mem_cons_self (hsince b List.mem_cons_self)) hlt
        · exact ⟨u, hu, fun c hc => hq c (List.mem_cons_of_mem _ hc), hux⟩

end Watchdog
