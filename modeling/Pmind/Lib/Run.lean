import Mathlib.Data.List.Basic
import Mathlib.Data.List.Infix
import Mathlib.Data.Option.Basic

/-!
# Runs of a partial step function

A system is a partial function `step` from a state and a label to the next state: the label says
what the environment chose, and `none` that the choice is not there to make. A run is a list of
labels. An invariant is carried from step to run (`run_invariant`), with what the run puts out if
need be (`run_outputs_induct`), or as long as each step meets a condition (`everyStep_invariant`).
Where the condition is exactly what one step needs, it is exactly what the run needs
(`everyState_iff_everyStep`, `everyStep_iff_of_invariant`). A system whose every step is a run of a
smaller one has its runs there too (`run_project`, `run_project_outputs`). Where each step takes
from the front of a queue and puts at its end, a run gives out what was put there, in its order
(`outputs_conserved`). What a run's steps cost is bounded by what the others bring in
(`cost_le_of_potential`).
-/

namespace Transition

variable {σ τ ℓ κ β : Type*}

section Defs

variable (step : σ → ℓ → Option σ)

/-- The state a list of labels leads to, `none` if some label is not possible where it comes. -/
def run : σ → List ℓ → Option σ
  | s, [] => some s
  | s, l :: ls => (step s l).bind fun s' => run s' ls

def outputs (out : σ → ℓ → List β) : σ → List ℓ → List β
  | _, [] => []
  | s, l :: ls => out s l ++ ((step s l).elim [] fun s' => outputs out s' ls)

def EveryState (P : σ → Prop) : σ → List ℓ → Prop
  | s, [] => P s
  | s, l :: ls => P s ∧ ∀ s' ∈ step s l, EveryState P s' ls

def EveryStep (C : σ → ℓ → Prop) : σ → List ℓ → Prop
  | _, [] => True
  | s, l :: ls => C s l ∧ ∀ s' ∈ step s l, EveryStep C s' ls

instance decidableEveryState (P : σ → Prop) [DecidablePred P] :
    ∀ s ls, Decidable (EveryState step P s ls)
  | s, [] => inferInstanceAs (Decidable (P s))
  | s, l :: ls =>
    have := fun s' => decidableEveryState P s' ls
    inferInstanceAs (Decidable (P s ∧ ∀ s' ∈ step s l, EveryState step P s' ls))

instance decidableEveryStep (C : σ → ℓ → Prop) [∀ s l, Decidable (C s l)] :
    ∀ s ls, Decidable (EveryStep step C s ls)
  | _, [] => inferInstanceAs (Decidable True)
  | s, l :: ls =>
    have := fun s' => decidableEveryStep C s' ls
    inferInstanceAs (Decidable (C s l ∧ ∀ s' ∈ step s l, EveryStep step C s' ls))

end Defs

variable {step : σ → ℓ → Option σ}

/-! ## Runs -/

@[simp] theorem run_nil (s : σ) : run step s [] = some s := rfl

theorem run_cons {s s' : σ} {l : ℓ} {ls : List ℓ} :
    run step s (l :: ls) = some s' ↔ ∃ t, step s l = some t ∧ run step t ls = some s' :=
  Option.bind_eq_some_iff

theorem run_append : ∀ (s : σ) (ls ls' : List ℓ),
    run step s (ls ++ ls') = (run step s ls).bind fun t => run step t ls'
  | _, [], _ => rfl
  | s, l :: ls, ls' => by
    simp only [List.cons_append, run]
    rcases step s l with _ | t
    · rfl
    · exact run_append t ls ls'

theorem run_append_some {s s' : σ} {ls ls' : List ℓ} :
    run step s (ls ++ ls') = some s' ↔ ∃ t, run step s ls = some t ∧ run step t ls' = some s' := by
  rw [run_append]
  exact Option.bind_eq_some_iff

theorem run_concat {s s' : σ} {ls : List ℓ} {l : ℓ} :
    run step s (ls ++ [l]) = some s' ↔ ∃ t, run step s ls = some t ∧ step t l = some s' := by
  rw [run_append_some]
  refine exists_congr fun t => and_congr_right fun _ => ?_
  rw [run_cons]
  simp

/-! ## What a run puts out -/

theorem outputs_cons {out : σ → ℓ → List β} {s t : σ} {l : ℓ} {ls : List ℓ}
    (h : step s l = some t) :
    outputs step out s (l :: ls) = out s l ++ outputs step out t ls := by
  simp [outputs, h]

theorem outputs_concat {out : σ → ℓ → List β} : ∀ {s t : σ} {ls : List ℓ} {l : ℓ},
    run step s ls = some t →
      outputs step out s (ls ++ [l]) = outputs step out s ls ++ out t l
  | s, t, [], l, h => by
    simp only [run_nil, Option.some.injEq] at h
    subst h
    rcases hs : step s l with _ | u <;> simp [outputs, hs]
  | s, t, k :: ls, l, h => by
    obtain ⟨u, hu, h⟩ := run_cons.mp h
    rw [List.cons_append, outputs_cons hu, outputs_cons hu, outputs_concat h, List.append_assoc]

theorem outputs_eq_nil {out : σ → ℓ → List β} : ∀ {s : σ} {ls : List ℓ},
    (∀ t, ∀ l ∈ ls, out t l = []) → outputs step out s ls = []
  | _, [], _ => rfl
  | s, l :: ls, h => by
    rw [outputs, h s l List.mem_cons_self]
    rcases step s l with _ | t
    · rfl
    · exact outputs_eq_nil fun u k hk => h u k (List.mem_cons_of_mem _ hk)

/-! ## Invariants -/

/-- What holds of the labels so far and the state, initially and after each step, holds of a run. -/
theorem run_induct {Q : List ℓ → σ → Prop} {s : σ} (h0 : Q [] s)
    (hstep : ∀ ls t l t', run step s ls = some t → Q ls t → step t l = some t' → Q (ls ++ [l]) t')
    {ls : List ℓ} {s' : σ} (h : run step s ls = some s') : Q ls s' := by
  induction ls using List.reverseRecOn generalizing s' with
  | nil =>
    simp only [run_nil, Option.some.injEq] at h
    exact h ▸ h0
  | append_singleton ls l ih =>
    obtain ⟨t, ht, hl⟩ := run_concat.mp h
    exact hstep ls t l s' ht (ih ht) hl

/-- What holds of the outputs so far and the state, initially and after each step whose label
meets `C`, holds of a run of such labels. -/
theorem run_outputs_induct {C : ℓ → Prop} (out : σ → ℓ → List β) {Q : List β → σ → Prop} {s : σ}
    (h0 : Q [] s)
    (hstep : ∀ bs t l t', C l → Q bs t → step t l = some t' → Q (bs ++ out t l) t')
    {ls : List ℓ} (hC : ∀ l ∈ ls, C l) {s' : σ} (h : run step s ls = some s') :
    Q (outputs step out s ls) s' := by
  refine run_induct (Q := fun ls t => (∀ l ∈ ls, C l) → Q (outputs step out s ls) t) (fun _ => h0)
    (fun ls t l t' ht ih hl hC => ?_) h hC
  rw [outputs_concat ht]
  have hQ := ih fun k hk => hC k (List.mem_append_left _ hk)
  exact hstep _ t l t' (hC l (List.mem_append_right _ (List.mem_singleton_self l))) hQ hl

theorem run_invariant {C : ℓ → Prop} {Inv : σ → Prop}
    (hstep : ∀ t l t', C l → Inv t → step t l = some t' → Inv t') :
    ∀ {s s' : σ} {ls : List ℓ}, Inv s → (∀ l ∈ ls, C l) → run step s ls = some s' → Inv s'
  | s, s', [], h0, _, h => by
    simp only [run_nil, Option.some.injEq] at h
    exact h ▸ h0
  | s, s', l :: ls, h0, hC, h => by
    obtain ⟨t, ht, h⟩ := run_cons.mp h
    exact run_invariant hstep (hstep s l t (hC l List.mem_cons_self) h0 ht)
      (fun k hk => hC k (List.mem_cons_of_mem _ hk)) h

/-! ## Conditions on the steps -/

theorem EveryState.head {P : σ → Prop} : ∀ {s : σ} {ls : List ℓ}, EveryState step P s ls → P s
  | _, [], h => h
  | _, _ :: _, h => h.1

theorem EveryState.imp {P Q : σ → Prop} (hPQ : ∀ t, P t → Q t) : ∀ {s : σ} {ls : List ℓ},
    EveryState step P s ls → EveryState step Q s ls
  | _, [], h => hPQ _ h
  | _, _ :: _, h => ⟨hPQ _ h.1, fun t ht => (h.2 t ht).imp hPQ⟩

theorem everyState_iff {P : σ → Prop} : ∀ {s : σ} {ls : List ℓ},
    EveryState step P s ls ↔ ∀ pre, pre <+: ls → ∀ s', run step s pre = some s' → P s'
  | s, [] => by
    simp only [EveryState, List.prefix_nil, forall_eq, run_nil, Option.some.injEq, forall_eq']
  | s, l :: ls => by
    simp only [EveryState]
    refine ⟨?_, fun h => ⟨?_, ?_⟩⟩
    · rintro ⟨hs, h⟩ pre hpre s' hrun
      rcases pre with _ | ⟨k, pre⟩
      · simp only [run_nil, Option.some.injEq] at hrun
        exact hrun ▸ hs
      · obtain ⟨rfl, hpre'⟩ := List.cons_prefix_cons.mp hpre
        obtain ⟨t, ht, hrun⟩ := run_cons.mp hrun
        exact everyState_iff.mp (h t ht) pre hpre' s' hrun
    · exact h [] List.nil_prefix s rfl
    · intro t ht
      refine everyState_iff.mpr fun pre hpre s' hrun => ?_
      exact h (l :: pre) (List.cons_prefix_cons.mpr ⟨rfl, hpre⟩) s' (run_cons.mpr ⟨t, ht, hrun⟩)

theorem EveryState.last {P : σ → Prop} {s s' : σ} {ls : List ℓ} (h : EveryState step P s ls)
    (hrun : run step s ls = some s') : P s' :=
  everyState_iff.mp h ls List.prefix_rfl s' hrun

theorem everyState_of_forall {P : σ → Prop} (h : ∀ t, P t) : ∀ {s : σ} {ls : List ℓ},
    EveryState step P s ls
  | s, [] => h s
  | s, _ :: _ => ⟨h s, fun _ _ => everyState_of_forall h⟩

theorem EveryStep.imp {C D : σ → ℓ → Prop} (hCD : ∀ t l, C t l → D t l) : ∀ {s : σ} {ls : List ℓ},
    EveryStep step C s ls → EveryStep step D s ls
  | _, [], _ => trivial
  | _, _ :: _, h => ⟨hCD _ _ h.1, fun t ht => (h.2 t ht).imp hCD⟩

theorem everyStep_of_forall {C : σ → ℓ → Prop} (h : ∀ t l, C t l) : ∀ {s : σ} {ls : List ℓ},
    EveryStep step C s ls
  | _, [] => trivial
  | s, l :: _ => ⟨h s l, fun _ _ => everyStep_of_forall h⟩

theorem everyStep_of_mem {C : σ → ℓ → Prop} : ∀ {s : σ} {ls : List ℓ},
    (∀ t, ∀ l ∈ ls, C t l) → EveryStep step C s ls
  | _, [], _ => trivial
  | s, l :: _, h => ⟨h s l List.mem_cons_self, fun _ _ =>
      everyStep_of_mem fun t k hk => h t k (List.mem_cons_of_mem _ hk)⟩

theorem EveryStep.and {C D : σ → ℓ → Prop} : ∀ {s : σ} {ls : List ℓ},
    EveryStep step C s ls → EveryStep step D s ls → EveryStep step (fun s l => C s l ∧ D s l) s ls
  | _, [], _, _ => trivial
  | _, _ :: _, hC, hD => ⟨⟨hC.1, hD.1⟩, fun t ht => (hC.2 t ht).and (hD.2 t ht)⟩

/-- A condition on the steps is one on the steps that come after each start of a run. -/
theorem everyStep_iff {C : σ → ℓ → Prop} : ∀ {s : σ} {ls : List ℓ},
    EveryStep step C s ls ↔ ∀ pre l, pre ++ [l] <+: ls → ∀ t, run step s pre = some t → C t l
  | s, [] => by simp [EveryStep]
  | s, k :: ls => by
    simp only [EveryStep]
    refine ⟨?_, fun h => ⟨?_, ?_⟩⟩
    · rintro ⟨hs, h⟩ pre l hpre t hrun
      rcases pre with _ | ⟨k', pre⟩
      · simp only [run_nil, Option.some.injEq] at hrun
        obtain ⟨rfl, -⟩ := List.cons_prefix_cons.mp hpre
        exact hrun ▸ hs
      · obtain ⟨rfl, hpre'⟩ := List.cons_prefix_cons.mp hpre
        obtain ⟨u, hu, hrun⟩ := run_cons.mp hrun
        exact everyStep_iff.mp (h u hu) pre l hpre' t hrun
    · exact h [] k (List.cons_prefix_cons.mpr ⟨rfl, List.nil_prefix⟩) s rfl
    · intro u hu
      refine everyStep_iff.mpr fun pre l hpre t hrun => ?_
      exact h (k :: pre) l (List.cons_prefix_cons.mpr ⟨rfl, hpre⟩) t (run_cons.mpr ⟨u, hu, hrun⟩)

/-- In a run, conditions that agree on the steps that are possible where an invariant holds, hold
of the same runs. -/
theorem everyStep_congr_of_invariant {J : σ → Prop} {C D : σ → ℓ → Prop}
    (hJ : ∀ t l t', J t → step t l = some t' → J t')
    (hCD : ∀ t l t', J t → step t l = some t' → (C t l ↔ D t l)) : ∀ {s s' : σ} {ls : List ℓ},
    J s → run step s ls = some s' → (EveryStep step C s ls ↔ EveryStep step D s ls)
  | _, _, [], _, _ => Iff.rfl
  | s, _, l :: _, hs, h => by
    obtain ⟨t, ht, h⟩ := run_cons.mp h
    simp only [EveryStep, ht, Option.mem_some, forall_eq']
    exact and_congr (hCD s l t hs ht) (everyStep_congr_of_invariant hJ hCD (hJ s l t hs ht) h)

theorem everyStep_congr {C D : σ → ℓ → Prop}
    (hCD : ∀ t l t', step t l = some t' → (C t l ↔ D t l)) {s s' : σ} {ls : List ℓ}
    (h : run step s ls = some s') : EveryStep step C s ls ↔ EveryStep step D s ls :=
  everyStep_congr_of_invariant (J := fun _ => True) (fun _ _ _ _ _ => trivial)
    (fun t l t' _ => hCD t l t') trivial h

theorem forall_mem_outputs {out : σ → ℓ → List β} {P : β → Prop} : ∀ {s : σ} {ls : List ℓ},
    (∀ b ∈ outputs step out s ls, P b) ↔ EveryStep step (fun t l => ∀ b ∈ out t l, P b) s ls
  | _, [] => by simp [outputs, EveryStep]
  | s, l :: ls => by
    simp only [outputs, List.forall_mem_append, EveryStep]
    refine and_congr_right fun _ => ?_
    rcases step s l with _ | t
    · simp
    · have hrest := @forall_mem_outputs out P t ls
      simp [hrest]

theorem EveryState.everyStep {P : σ → Prop} {C : σ → ℓ → Prop} (hPC : ∀ t l, P t → C t l) :
    ∀ {s : σ} {ls : List ℓ}, EveryState step P s ls → EveryStep step C s ls
  | _, [], _ => trivial
  | s, l :: _, h => ⟨hPC s l h.1, fun t ht => (h.2 t ht).everyStep hPC⟩

/-- What agrees wherever an invariant holds, holds throughout the same runs. -/
theorem everyState_congr {J P Q : σ → Prop} (hJ : ∀ t l t', J t → step t l = some t' → J t')
    (hPQ : ∀ t, J t → (P t ↔ Q t)) : ∀ {s : σ} {ls : List ℓ}, J s →
      (EveryState step P s ls ↔ EveryState step Q s ls)
  | s, [], hs => hPQ s hs
  | s, l :: _, hs => and_congr (hPQ s hs) (forall₂_congr fun t ht =>
      everyState_congr hJ hPQ (hJ s l t hs ht))

/-- An invariant of the steps that meet `C` holds in every state of a run whose steps all do. -/
theorem everyStep_invariant {C : σ → ℓ → Prop} {Inv : σ → Prop}
    (hstep : ∀ t l t', Inv t → C t l → step t l = some t' → Inv t') :
    ∀ {s : σ} {ls : List ℓ}, Inv s → EveryStep step C s ls → EveryState step Inv s ls
  | _, [], h0, _ => h0
  | s, l :: _, h0, hC =>
    ⟨h0, fun t ht => everyStep_invariant hstep (hstep s l t h0 hC.1 ht) (hC.2 t ht)⟩

/-- A step from a state where `P` holds keeps `P` exactly when it meets `C`: then `P` holds
throughout a run exactly when every step of it meets `C`. `J` is what the steps keep anyway. -/
theorem everyState_iff_everyStep {J P : σ → Prop} {C : σ → ℓ → Prop}
    (hJ : ∀ t l t', J t → step t l = some t' → J t')
    (hstep : ∀ t l t', J t → P t → step t l = some t' → (P t' ↔ C t l)) :
    ∀ {s s' : σ} {ls : List ℓ}, J s → P s → run step s ls = some s' →
      (EveryState step P s ls ↔ EveryStep step C s ls)
  | s, s', [], _, hP, _ => by simp [EveryState, EveryStep, hP]
  | s, s', l :: ls, hJs, hP, h => by
    obtain ⟨t, ht, h⟩ := run_cons.mp h
    have hPC := hstep s l t hJs hP ht
    have ih := fun hPt => everyState_iff_everyStep hJ hstep (hJ s l t hJs ht) hPt h
    simp only [EveryState, EveryStep, ht, Option.mem_some, forall_eq', hP, true_and]
    exact ⟨fun hE => ⟨hPC.mp hE.head, (ih hE.head).mp hE⟩,
      fun ⟨hc, hE⟩ => (ih (hPC.mpr hc)).mpr hE⟩

theorem everyState_iff_of_step {P : σ → Prop} {C : σ → ℓ → Prop}
    (hstep : ∀ t l t', P t → step t l = some t' → (P t' ↔ C t l)) {s s' : σ} {ls : List ℓ}
    (hP : P s) (h : run step s ls = some s') :
    EveryState step P s ls ↔ EveryStep step C s ls :=
  everyState_iff_everyStep (J := fun _ => True) (fun _ _ _ _ _ => trivial)
    (fun t l t' _ => hstep t l t') trivial hP h

/-- Conditions that agree wherever an invariant holds, which one of them keeps, hold of the same
runs. -/
theorem everyStep_iff_of_invariant {C D : σ → ℓ → Prop} {Inv : σ → Prop}
    (hstep : ∀ t l t', Inv t → D t l → step t l = some t' → Inv t')
    (hCD : ∀ t l, Inv t → (C t l ↔ D t l)) : ∀ {s : σ} {ls : List ℓ}, Inv s →
      (EveryStep step C s ls ↔ EveryStep step D s ls)
  | _, [], _ => Iff.rfl
  | s, l :: ls, hs => by
    have ih : D s l → ∀ t ∈ step s l, (EveryStep step C t ls ↔ EveryStep step D t ls) :=
      fun hD t ht => everyStep_iff_of_invariant hstep hCD (hstep s l t hs hD ht)
    constructor
    · rintro ⟨hC, hrest⟩
      have hD := (hCD s l hs).mp hC
      exact ⟨hD, fun t ht => (ih hD t ht).mp (hrest t ht)⟩
    · rintro ⟨hD, hrest⟩
      exact ⟨(hCD s l hs).mpr hD, fun t ht => (ih hD t ht).mpr (hrest t ht)⟩

/-! ## Projections -/

/-- A system each step of which is a run of a smaller one, seen through `f` and `g`, has its runs
there. -/
theorem run_project {step' : τ → κ → Option τ} {f : σ → τ} {g : ℓ → List κ}
    (hstep : ∀ t l t', step t l = some t' → run step' (f t) (g l) = some (f t')) :
    ∀ {s s' : σ} {ls : List ℓ}, run step s ls = some s' →
      run step' (f s) (ls.flatMap g) = some (f s')
  | s, s', [], h => by
    simp only [run_nil, Option.some.injEq] at h
    simp [h]
  | s, s', l :: ls, h => by
    obtain ⟨t, ht, h⟩ := run_cons.mp h
    rw [List.flatMap_cons, run_append_some]
    exact ⟨f t, hstep s l t ht, run_project hstep h⟩

/-- The same where the state has a say in what a step is in the smaller system. -/
theorem run_project_outputs {step' : τ → κ → Option τ} {f : σ → τ} {out : σ → ℓ → List κ}
    {P : σ → Prop}
    (hstep : ∀ t l t', P t → step t l = some t' → run step' (f t) (out t l) = some (f t')) :
    ∀ {s s' : σ} {ls : List ℓ}, EveryState step P s ls → run step s ls = some s' →
      run step' (f s) (outputs step out s ls) = some (f s')
  | s, s', [], _, h => by
    simp only [run_nil, Option.some.injEq] at h
    simp [outputs, h]
  | s, s', l :: ls, hP, h => by
    obtain ⟨t, ht, h⟩ := run_cons.mp h
    rw [outputs_cons ht, run_append_some]
    exact ⟨f t, hstep s l t hP.head ht, run_project_outputs hstep (hP.2 t ht) h⟩

theorem outputs_append {out : σ → ℓ → List β} : ∀ {s t : σ} {ls : List ℓ} (ls' : List ℓ),
    run step s ls = some t →
      outputs step out s (ls ++ ls') = outputs step out s ls ++ outputs step out t ls'
  | s, t, [], ls', h => by
    simp only [run_nil, Option.some.injEq] at h
    rw [h]
    rfl
  | s, t, l :: ls, ls', h => by
    obtain ⟨u, hu, h⟩ := run_cons.mp h
    rw [List.cons_append, outputs_cons hu, outputs_cons hu, outputs_append ls' h, List.append_assoc]

/-- What the smaller system puts out in the run it has there. -/
theorem outputs_project {step' : τ → κ → Option τ} {f : σ → τ} {out : σ → ℓ → List κ}
    {out' : τ → κ → List β} {P : σ → Prop}
    (hstep : ∀ t l t', P t → step t l = some t' → run step' (f t) (out t l) = some (f t')) :
    ∀ {s s' : σ} {ls : List ℓ}, EveryState step P s ls → run step s ls = some s' →
      outputs step' out' (f s) (outputs step out s ls)
        = outputs step (fun t l => outputs step' out' (f t) (out t l)) s ls
  | _, _, [], _, _ => rfl
  | s, s', l :: ls, hP, h => by
    obtain ⟨t, ht, h⟩ := run_cons.mp h
    rw [outputs_cons ht, outputs_cons ht, outputs_append _ (hstep s l t hP.head ht),
      outputs_project hstep (hP.2 t ht) h]

theorem outputs_congr {out out' : σ → ℓ → List β}
    (hout : ∀ t l t', step t l = some t' → out t l = out' t l) : ∀ {s s' : σ} {ls : List ℓ},
    run step s ls = some s' → outputs step out s ls = outputs step out' s ls
  | _, _, [], _ => rfl
  | s, s', l :: ls, h => by
    obtain ⟨t, ht, h⟩ := run_cons.mp h
    rw [outputs_cons ht, outputs_cons ht, hout s l t ht, outputs_congr hout h]

/-! ## Queues -/

theorem outputs_flatMap {out : σ → ℓ → List κ} (f : κ → List β) : ∀ (s : σ) (ls : List ℓ),
    (outputs step out s ls).flatMap f = outputs step (fun t l => (out t l).flatMap f) s ls
  | _, [] => rfl
  | s, l :: ls => by
    simp only [outputs, List.flatMap_append]
    rcases step s l with _ | t
    · rfl
    · rw [Option.elim_some, Option.elim_some, outputs_flatMap f t ls]

theorem outputs_map {γ : Type*} {out : σ → ℓ → List κ} (f : κ → γ) (s : σ) (ls : List ℓ) :
    outputs step (fun t l => (out t l).map f) s ls = (outputs step out s ls).map f := by
  simp only [List.map_eq_flatMap]
  exact (outputs_flatMap _ s ls).symm

theorem outputs_filterMap {out : σ → ℓ → List κ} (f : κ → Option β) (s : σ) (ls : List ℓ) :
    (outputs step out s ls).filterMap f = outputs step (fun t l => (out t l).filterMap f) s ls := by
  simp only [List.filterMap_eq_flatMap_toList]
  exact outputs_flatMap _ s ls

/-- What no step brings about holds throughout a run that ends with it. -/
theorem everyState_of_last {P : σ → Prop} (hP : ∀ t l t', step t l = some t' → P t' → P t) :
    ∀ {s s' : σ} {ls : List ℓ}, run step s ls = some s' → P s' → EveryState step P s ls
  | s, s', [], h, hs' => by
    simp only [run_nil, Option.some.injEq] at h
    exact h ▸ hs'
  | s, s', l :: ls, h, hs' => by
    obtain ⟨t, ht, h⟩ := run_cons.mp h
    have hrest := everyState_of_last hP h hs'
    refine ⟨hP s l t ht hrest.head, fun t' ht' => ?_⟩
    rw [Option.mem_def, ht, Option.some.injEq] at ht'
    exact ht' ▸ hrest

/-- What was in a queue and what was put there came out in this order, up to what is left. -/
theorem outputs_conserved {q : σ → List β} {ins outs : σ → ℓ → List β} {P : σ → Prop}
    (hstep : ∀ t l t', P t → P t' → step t l = some t' →
      q t ++ ins t l = outs t l ++ q t') :
    ∀ {s s' : σ} {ls : List ℓ}, EveryState step P s ls → run step s ls = some s' →
      q s ++ outputs step ins s ls = outputs step outs s ls ++ q s'
  | s, s', [], _, h => by
    simp only [run_nil, Option.some.injEq] at h
    simp [outputs, h]
  | s, s', l :: ls, hP, h => by
    obtain ⟨t, ht, h⟩ := run_cons.mp h
    have hPt := hP.2 t ht
    rw [outputs_cons ht, outputs_cons ht, ← List.append_assoc, hstep s l t hP.head hPt.head ht,
      List.append_assoc, outputs_conserved hstep hPt h, List.append_assoc]

/-- What each step adds at the end is what the run adds. -/
theorem outputs_accumulated {q : σ → List β} {ins : σ → ℓ → List β}
    (hstep : ∀ t l t', step t l = some t' → q t ++ ins t l = q t') :
    ∀ {s s' : σ} {ls : List ℓ}, run step s ls = some s' → q s ++ outputs step ins s ls = q s'
  | s, s', [], h => by
    simp only [run_nil, Option.some.injEq] at h
    simp [outputs, h]
  | s, s', l :: ls, h => by
    obtain ⟨t, ht, h⟩ := run_cons.mp h
    rw [outputs_cons ht, ← List.append_assoc, hstep s l t ht, outputs_accumulated hstep h]

/-- A queue that may lose what is on it gives out part of what was put there, in its order. -/
theorem outputs_sublist {q : σ → List β} {ins outs : σ → ℓ → List β}
    (hstep : ∀ t l t', step t l = some t' → (outs t l ++ q t').Sublist (q t ++ ins t l)) :
    ∀ {s s' : σ} {ls : List ℓ}, run step s ls = some s' →
      (outputs step outs s ls ++ q s').Sublist (q s ++ outputs step ins s ls)
  | s, s', [], h => by
    simp only [run_nil, Option.some.injEq] at h
    simp [outputs, h]
  | s, s', l :: ls, h => by
    obtain ⟨t, ht, h⟩ := run_cons.mp h
    rw [outputs_cons ht, outputs_cons ht, List.append_assoc, ← List.append_assoc (q s)]
    refine ((outputs_sublist hstep h).append_left (outs s l)).trans ?_
    rw [← List.append_assoc]
    exact (hstep s l t ht).append_right _

/-- What the labels alone say is put out. -/
theorem outputs_eq_flatMap {f : ℓ → List β} : ∀ {s s' : σ} {ls : List ℓ}, run step s ls = some s' →
    outputs step (fun _ l => f l) s ls = ls.flatMap f
  | _, _, [], _ => rfl
  | s, s', l :: ls, h => by
    obtain ⟨t, ht, h⟩ := run_cons.mp h
    rw [outputs_cons ht, outputs_eq_flatMap h, List.flatMap_cons]

/-! ## Potentials -/

def cost (c : ℓ → ℕ) : List ℓ → ℕ
  | [] => 0
  | l :: ls => c l + cost c ls

theorem cost_eq_countP (p : ℓ → Bool) (k : ℕ) : ∀ ls : List ℓ,
    cost (fun l => if p l then k else 0) ls = k * ls.countP p
  | [] => rfl
  | l :: ls => by
    rw [cost, cost_eq_countP p k ls, List.countP_cons, Nat.mul_add, Nat.add_comm]
    split_ifs <;> simp

theorem cost_add (c d : ℓ → ℕ) : ∀ ls : List ℓ,
    cost (fun l => c l + d l) ls = cost c ls + cost d ls
  | [] => rfl
  | l :: ls => by
    rw [cost, cost, cost, cost_add c d ls]
    omega

theorem cost_const (k : ℕ) : ∀ ls : List ℓ, cost (fun _ => k) ls = k * ls.length
  | [] => rfl
  | _ :: ls => by rw [cost, cost_const k ls, List.length_cons, Nat.mul_succ, Nat.add_comm]

theorem cost_append (c : ℓ → ℕ) : ∀ ls ls' : List ℓ, cost c (ls ++ ls') = cost c ls + cost c ls'
  | [], ls' => (Nat.zero_add _).symm
  | l :: ls, ls' => by
    rw [List.cons_append, cost, cost, cost_append c ls ls']
    omega

theorem cost_map (c : ℓ → ℕ) (f : β → ℓ) : ∀ ls : List β,
    cost c (ls.map f) = cost (fun b => c (f b)) ls
  | [] => rfl
  | b :: ls => by rw [List.map_cons, cost, cost, cost_map c f ls]

theorem cost_set (c : ℓ → ℕ) : ∀ {ls : List ℓ} {i : ℕ} {l : ℓ}, ls[i]? = some l → ∀ l' : ℓ,
    cost c (ls.set i l') + c l = cost c ls + c l'
  | [], i, l, h, _ => by cases h
  | k :: ls, 0, l, h, l' => by
    cases h
    rw [List.set_cons_zero, cost, cost]
    omega
  | k :: ls, i + 1, l, h, l' => by
    have hset := cost_set c (show ls[i]? = some l from h) l'
    rw [List.set_cons_succ, cost, cost]
    omega

theorem cost_modify {c : ℓ → ℕ} {f : ℓ → ℓ} (hf : ∀ l, c (f l) = c l) : ∀ (ls : List ℓ) (i : ℕ),
    cost c (ls.modify i f) = cost c ls
  | [], i => by simp
  | l :: ls, 0 => by
    rw [List.modify_zero_cons, cost, cost, hf]
  | l :: ls, i + 1 => by
    rw [List.modify_succ_cons, cost, cost, cost_modify hf ls i]

/-- Where no step costs more than the potential falls and the step brings in, no run does. -/
theorem cost_le_of_potential {C : ℓ → Prop} {J : σ → Prop} {f : σ → ℕ} {p g : ℓ → ℕ}
    (hstep : ∀ t l t', C l → J t → step t l = some t' → J t' ∧ f t' + p l ≤ f t + g l) :
    ∀ {s s' : σ} {ls : List ℓ}, J s → (∀ l ∈ ls, C l) → run step s ls = some s' →
      J s' ∧ f s' + cost p ls ≤ f s + cost g ls
  | s, s', [], hs, _, h => by
    simp only [run_nil, Option.some.injEq] at h
    subst h
    exact ⟨hs, le_rfl⟩
  | s, s', l :: ls, hs, hC, h => by
    obtain ⟨t, ht, h⟩ := run_cons.mp h
    obtain ⟨hJ, hle⟩ := hstep s l t (hC l List.mem_cons_self) hs ht
    obtain ⟨hJ', hle'⟩ :=
      cost_le_of_potential hstep hJ (fun k hk => hC k (List.mem_cons_of_mem _ hk)) h
    refine ⟨hJ', ?_⟩
    rw [cost, cost]
    omega

theorem countP_le_of_potential {C : ℓ → Prop} {J : σ → Prop} {f : σ → ℕ} {p : ℓ → Bool}
    (hstep : ∀ t l t', C l → J t → step t l = some t' →
      J t' ∧ f t' + (if p l then 1 else 0) ≤ f t)
    {s s' : σ} {ls : List ℓ} (hs : J s) (hC : ∀ l ∈ ls, C l) (h : run step s ls = some s') :
    J s' ∧ f s' + ls.countP p ≤ f s := by
  have hcost := cost_le_of_potential (g := fun _ => if false then 1 else 0) hstep hs hC h
  rw [cost_eq_countP, cost_eq_countP (fun _ => false)] at hcost
  simpa using hcost

/-- Steps that can always be taken make a run, and the potential grows by what they bring in. -/
theorem exists_run {J : σ → Prop} {f : σ → ℕ} {c : ℓ → ℕ} : ∀ {ls : List ℓ} {s : σ},
    (∀ t, J t → ∀ l ∈ ls, ∃ t', step t l = some t' ∧ J t' ∧ f t' = f t + c l) → J s →
      ∃ s', run step s ls = some s' ∧ f s' = f s + cost c ls
  | [], s, _, _ => ⟨s, rfl, rfl⟩
  | l :: ls, s, hstep, hs => by
    obtain ⟨t, ht, hJ, hf⟩ := hstep s hs l List.mem_cons_self
    obtain ⟨s', hs', hf'⟩ :=
      exists_run (fun u hu k hk => hstep u hu k (List.mem_cons_of_mem _ hk)) hJ
    refine ⟨s', run_cons.mpr ⟨t, ht, hs'⟩, ?_⟩
    rw [hf', hf, cost, Nat.add_assoc]

/-- Where each step of some kind lowers a potential, such steps lead to where none is left. -/
theorem exists_run_to_rest {C : ℓ → Prop} {J : σ → Prop} {f : σ → ℕ}
    (hstep : ∀ t l t', C l → J t → step t l = some t' → J t' ∧ f t' < f t) {s : σ} (hs : J s) :
    ∃ ls s', (∀ l ∈ ls, C l) ∧ run step s ls = some s' ∧ ∀ l, C l → step s' l = none := by
  induction hn : f s using Nat.strong_induction_on generalizing s with
  | h n ih =>
    by_cases hrest : ∀ l, C l → step s l = none
    · exact ⟨[], s, fun l hl => absurd hl List.not_mem_nil, rfl, hrest⟩
    · push Not at hrest
      obtain ⟨l, hl, hne⟩ := hrest
      obtain ⟨t, ht⟩ := Option.ne_none_iff_exists'.mp hne
      obtain ⟨hJ, hlt⟩ := hstep s l t hl hs ht
      obtain ⟨ls, s', hls, hrun, hend⟩ := ih (f t) (hn ▸ hlt) hJ rfl
      refine ⟨l :: ls, s', fun k hk => ?_, run_cons.mpr ⟨t, ht, hrun⟩, hend⟩
      rcases List.mem_cons.mp hk with rfl | hk
      · exact hl
      · exact hls k hk

theorem length_outputs_le {out : σ → ℓ → List β} {p : ℓ → Bool}
    (hout : ∀ t l, (out t l).length ≤ if p l then 1 else 0) : ∀ {s : σ} {ls : List ℓ},
    (outputs step out s ls).length ≤ ls.countP p
  | _, [] => le_rfl
  | s, l :: ls => by
    rw [outputs, List.length_append, List.countP_cons, Nat.add_comm]
    refine Nat.add_le_add ?_ (hout s l)
    rcases step s l with _ | t
    · exact Nat.zero_le _
    · exact length_outputs_le hout

end Transition
