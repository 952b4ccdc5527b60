import Pmind.Proofs.Frontend

/-!
# How the front end ends

The main loop ends where the app is given a quit, or drawing fails, and nowhere else. A quit is at
the end of a queue of events, of which a tick takes two steps of the loop and any other takes one:
so the loop is over at most two steps after each event before it.
-/

namespace Pmind

open Transition

namespace PlantMinder

theorem newDataOf_running {buffer : List NodeSensorReading} {m m' : PlantMinder} {key : Ipv6Addr}
    (h : newDataOf buffer m key = some m') : m'.running = m.running := by
  simp only [newDataOf, newData] at h
  split_ifs at h
  · cases h
    rfl
  · split at h
    · split_ifs at h
      cases h
      rfl
    · cases h
      rfl

theorem recvMany_running {buffer : List NodeSensorReading} {m m' : PlantMinder}
    {keys : List Ipv6Addr} (h : m.recvMany buffer keys = some m') : m'.running = m.running := by
  unfold recvMany at h
  split_ifs at h
  · induction keys generalizing m with
    | nil =>
      cases h
      rfl
    | cons key keys ih =>
      rw [List.foldlM_cons] at h
      obtain ⟨t, ht, h⟩ := Option.bind_eq_some_iff.mp h
      rw [ih h, newDataOf_running ht]
  · cases h
    rfl

theorem handleAppCmd_running (m : PlantMinder) (cmd : AppCmd) :
    (m.handleAppCmd cmd).running = (m.running && cmd ≠ .quit) := by
  cases cmd <;> simp [handleAppCmd]

theorem handleNodeStateChange_running (m : PlantMinder) (status : NodeStatus) :
    (m.handleNodeStateChange status).running = m.running := by
  rcases status with reg | _
  · simp only [handleNodeStateChange, nodeRegistration, evict]
    split_ifs <;> rfl
  · rfl

end PlantMinder

/-- A step of the main loop, not of the other task or the broker. -/
def FrontendStep.ofMain : FrontendStep → Bool
  | .next | .drawError | .recvMany _ _ => true
  | _ => false

def Event.isQuit : Event → Bool
  | .appCmd .quit => true
  | _ => false

namespace Frontend

/-! ## When the loop is over -/

theorem exited_loop (s : Frontend) : s.loop.main = .exited ↔ s.app.running = false := by
  unfold loop
  rcases s.app.running <;> simp

theorem exited_step {s s' : Frontend} {e : FrontendStep} (h : Sound s) (hs : step s e = some s') :
    s'.main = .exited ↔ s.main = .exited ∨ e = .drawError
      ∨ .quit ∈ (s.turns e).flatMap MinderEvent.cmds := by
  cases Step.of_step hs with
  | panics hr he =>
    rw [he]
    have hne : e ≠ .drawError := by
      rintro rfl
      simp only [step] at hs
      split_ifs at hs with hm
      exact hr (.inl hm)
    simp [hne]
  | tick hm hev => simp [turns, hev, hm]
  | @appCmd cmd _ hm hev =>
    have hrun := h.running (.inl hm)
    rw [exited_loop, PlantMinder.handleAppCmd_running, hrun]
    rcases cmd <;> simp [turns, hev, hm, MinderEvent.cmds]
  | @nodeState status _ hm hev =>
    have hrun := h.running (.inl hm)
    rw [exited_loop, PlantMinder.handleNodeStateChange_running]
    simp [turns, hev, hm, hrun, MinderEvent.cmds]
  | recvMany hm _ _ happ =>
    have hrun := h.running (.inr hm)
    rw [exited_loop, PlantMinder.recvMany_running happ]
    simp [turns, hm, hrun, MinderEvent.cmds]
  | drawError => simp
  | _ => simp [turns]

theorem exited_run {ls : List FrontendStep} {s : Frontend} (h : run step new ls = some s) :
    s.main = .exited ↔ .drawError ∈ ls
      ∨ .quit ∈ (outputs step turns new ls).flatMap MinderEvent.cmds := by
  refine run_induct (Q := fun ls s => s.main = .exited ↔ .drawError ∈ ls
      ∨ .quit ∈ (outputs step turns new ls).flatMap MinderEvent.cmds) ?_ ?_ h
  · simp [new, outputs]
  · intro ls t e t' hrun ih hs
    rw [exited_step (sound_run hrun) hs, ih, outputs_concat hrun]
    simp only [List.mem_append, List.mem_singleton, List.flatMap_append, eq_comm]
    tauto

/-! ## How long it takes -/

/-- The steps the loop takes at most until it has taken the first quit that is queued. -/
def stepsLeft (s : Frontend) : ℕ :=
  match s.main with
  | .next => 2 * s.events.findIdx Event.isQuit + 1
  | .tick => 2 * s.events.findIdx Event.isQuit + 2
  | .exited | .panicked => 0

/-- The loop is over, or a quit is queued. -/
structure Quitting (s : Frontend) : Prop extends Sound s where
  queued : s.receiving → ∃ e ∈ s.events, e.isQuit

theorem stepsLeft_exited {s : Frontend} (h : s.main = .exited) : s.stepsLeft = 0 := by
  rw [stepsLeft, h]

theorem stepsLeft_append {s : Frontend} (h : s.receiving → ∃ e ∈ s.events, e.isQuit)
    (es : List Event) : { s with events := s.events ++ es }.stepsLeft = s.stepsLeft := by
  unfold stepsLeft
  rcases hm : s.main
  case exited | panicked => rfl
  all_goals
    have hlt := List.findIdx_lt_length.mpr (h (by simp [receiving, hm]))
    rw [List.findIdx_append, if_pos hlt]

theorem stepsLeft_loop (s : Frontend) :
    s.loop.stepsLeft ≤ 2 * s.events.findIdx Event.isQuit + 1 := by
  unfold loop stepsLeft
  rcases s.app.running <;> simp

theorem quitting_append {s : Frontend} (h : Quitting s) (es : List Event) :
    s.receiving → ∃ e ∈ s.events ++ es, e.isQuit := by
  intro hr
  obtain ⟨e, he, hq⟩ := h.queued hr
  exact ⟨e, List.mem_append_left _ he, hq⟩

/-- A step that takes the first event, which is no quit, leaves the first quit where it was. -/
theorem quitting_taken {s : Frontend} (h : Quitting s) (hm : s.main = .next) {e : Event}
    {rest : List Event} (hev : s.events = e :: rest) (he : e.isQuit = false) :
    (∃ e ∈ rest, e.isQuit) ∧ s.stepsLeft = 2 * rest.findIdx Event.isQuit + 3 := by
  obtain ⟨e', he', hq⟩ := h.queued (.inl hm)
  rw [hev] at he'
  refine ⟨⟨e', (List.mem_cons.mp he').resolve_left ?_, hq⟩, ?_⟩
  · rintro rfl
    rw [he] at hq
    cases hq
  · simp only [stepsLeft, hm, hev, List.findIdx_cons, he, cond_false]
    omega

theorem quitting_step {s s' : Frontend} {e : FrontendStep} (h : Quitting s)
    (hs : step s e = some s') :
    Quitting s' ∧ s'.stepsLeft + (if e.ofMain then 1 else 0) ≤ s.stepsLeft := by
  have hsound := sound_step s e s' h.toSound hs
  cases Step.of_step hs with
  | sensorReading | nodeStatus | closed | nodeDataStream => exact ⟨⟨hsound, h.queued⟩, le_rfl⟩
  | panics hr =>
    have hover : s.main = .exited := by
      rcases hm : s.main
      case exited => rfl
      case panicked => exact absurd hm h.main
      all_goals exact absurd (by simp [receiving, hm]) hr
    have hmain : e.ofMain = false := by
      rcases e <;> simp_all [step, FrontendStep.ofMain]
    exact ⟨⟨hsound, fun hr' => absurd hr' hr⟩, by simp [stepsLeft, hmain]⟩
  | tickDelay | crosstermEvent | nodeStateStream =>
    exact ⟨⟨hsound, quitting_append h _⟩, (stepsLeft_append h.queued _).le⟩
  | tick hm hev =>
    obtain ⟨hq, hleft⟩ := quitting_taken h hm hev rfl
    refine ⟨⟨hsound, fun _ => hq⟩, ?_⟩
    rw [hleft]
    simp [stepsLeft, FrontendStep.ofMain]
  | @appCmd cmd rest hm hev =>
    by_cases hquit : cmd = .quit
    · have hover : (Frontend.loop { s with events := rest, app := s.app.handleAppCmd cmd }).main
          = .exited := by
        rw [exited_loop, PlantMinder.handleAppCmd_running]
        simp [hquit]
      refine ⟨⟨hsound, fun hr => by simp [receiving, hover] at hr⟩, ?_⟩
      rw [stepsLeft_exited hover, stepsLeft, hm]
      simp [FrontendStep.ofMain]
    · obtain ⟨hq, hleft⟩ := quitting_taken h hm hev (by rcases cmd <;> simp_all [Event.isQuit])
      refine ⟨⟨hsound, fun _ => hq⟩, ?_⟩
      rw [hleft]
      refine Nat.add_le_add_right ((stepsLeft_loop _).trans ?_) 1
      exact Nat.le_succ _
  | @nodeState status rest hm hev =>
    obtain ⟨hq, hleft⟩ := quitting_taken h hm hev rfl
    refine ⟨⟨hsound, fun _ => hq⟩, ?_⟩
    rw [hleft]
    refine Nat.add_le_add_right ((stepsLeft_loop _).trans ?_) 1
    exact Nat.le_succ _
  | drawError hm =>
    refine ⟨⟨hsound, fun hr => by simp [receiving] at hr⟩, ?_⟩
    simp [stepsLeft, hm, FrontendStep.ofMain]
  | @recvMany size keys app hm =>
    refine ⟨⟨hsound, fun _ => h.queued (.inr hm)⟩, ?_⟩
    have hloop := stepsLeft_loop { s with dataQueue := s.dataQueue.drop size, app }
    simp only [stepsLeft, hm, FrontendStep.ofMain, if_true] at hloop ⊢
    omega

/-- While the loop is not over and an event is queued, it has a step to take even if drawing
succeeds. -/
theorem exists_step {s : Frontend} (hr : s.receiving) (he : s.events ≠ []) :
    ∃ e s', e.ofMain ∧ e ≠ .drawError ∧ step s e = some s' := by
  rcases hr with hm | hm
  · obtain ⟨e, rest, hev⟩ := List.exists_cons_of_ne_nil he
    exact ⟨.next, { s with events := rest }.handle e, rfl, by simp, by simp only [step, hm, hev]⟩
  · obtain ⟨keys, hkeys⟩ := Quot.exists_rep s.app.nodes.keys.val
    exact ⟨.recvMany 0 keys, _, rfl, by simp,
      if_pos ⟨hm, Nat.zero_le _, Nat.zero_le _, hkeys⟩⟩

/-- The main loop is over exactly if drawing failed or the app was given a quit. From where a quit
is queued behind `k` other events, whatever the handler and the broker do meanwhile, the loop takes
at most `2 * k + 2` steps, and until it is over it has one to take other than to fail to draw. -/
theorem quits (ls : List FrontendStep) (s : Frontend) (h : run step new ls = some s) :
    (s.main = .exited ↔ .drawError ∈ ls
        ∨ .quit ∈ (outputs step turns new ls).flatMap MinderEvent.cmds)
      ∧ ∀ k, s.events[k]? = some (.appCmd .quit) → s.receiving →
        ∀ ls' s', run step s ls' = some s' →
          (s'.main = .exited ∧ ls'.countP FrontendStep.ofMain ≤ 2 * k + 2)
            ∨ (ls'.countP FrontendStep.ofMain < 2 * k + 2
              ∧ ∃ e t, e.ofMain ∧ e ≠ .drawError ∧ step s' e = some t) := by
  refine ⟨exited_run h, fun k hk hr ls' s' h' => ?_⟩
  have hquitting : Quitting s :=
    { sound_run h with queued := fun _ => ⟨_, List.mem_of_getElem? hk, rfl⟩ }
  obtain ⟨hq, hcost⟩ :=
    countP_le_of_potential (C := fun _ => True) (p := FrontendStep.ofMain)
      (fun t e t' _ ht hs => quitting_step ht hs) hquitting (fun _ _ => trivial) h'
  have hidx : s.events.findIdx Event.isQuit ≤ k := by
    obtain ⟨hlt, hget⟩ := List.getElem?_eq_some_iff.mp hk
    by_contra hgt
    have hnot := List.not_of_lt_findIdx (Nat.lt_of_not_le hgt)
    rw [hget] at hnot
    cases hnot
  have hleft : s.stepsLeft ≤ 2 * k + 2 := by
    rcases hr with hm | hm <;> simp only [stepsLeft, hm] <;> omega
  by_cases hr' : s'.receiving
  · obtain ⟨e, he, -⟩ := hq.queued hr'
    have hpos : 0 < s'.stepsLeft := by
      rcases hr' with hm | hm <;> simp [stepsLeft, hm]
    refine Or.inr ⟨?_, exists_step hr' (List.ne_nil_of_mem he)⟩
    omega
  · refine Or.inl ⟨?_, by omega⟩
    rcases hm : s'.main
    case exited => rfl
    case panicked => exact absurd hm hq.main
    all_goals exact absurd (by simp [receiving, hm]) hr'

/-- `q` is pressed right after a tick. -/
def quitRun : List FrontendStep := [.tickDelay, press (.char 'q')]

theorem quits_pressed : ∃ s, run step new quitRun = some s
    ∧ ∀ ls' s', run step s ls' = some s' →
      (s'.main = .exited ∧ ls'.countP FrontendStep.ofMain ≤ 4)
        ∨ (ls'.countP FrontendStep.ofMain < 4
          ∧ ∃ e t, e.ofMain ∧ e ≠ .drawError ∧ step s' e = some t) :=
  ⟨_, rfl, (quits quitRun _ rfl).2 1 rfl (Or.inl rfl)⟩

end Frontend

end Pmind
