import Pmind.Tasks

/-!
# How the database's tasks end

On a closed channel a `while let` loop forwards what is left and comes to its end, in two steps for
each message and one more. There the registry task exits. The sensor stream task comes back to the
loop, finds the channel closed again, and so on for ever.
-/

namespace Pmind

namespace ChannelTask

open Transition

section

variable {α μ : Type} {body : α → List μ} {done : TaskPc α}

/-- What has been taken off the channel and what is still on it, that is not forwarded yet. -/
def pending (t : ChannelTask α μ) : List α :=
  (match t.pc with
  | .handle data => [data]
  | _ => []) ++ t.queue

/-- A task that comes to no message at `done` keeps what it forwards and what is pending as one. -/
theorem whileLet_pending (hdone : ∀ data, done ≠ .handle data) {t t' : ChannelTask α μ}
    (h : t.whileLet body done = some t') :
    t'.forwarded ++ t'.pending.flatMap body = t.forwarded ++ t.pending.flatMap body := by
  unfold whileLet at h
  split at h
  · rename_i hpc
    split at h
    · rename_i data rest hq
      cases h
      simp [pending, hpc, hq]
    · rename_i hq
      split_ifs at h
      cases h
      rcases hd : done with _ | _ | data | _
      · simp [pending, hpc, hq]
      · simp [pending, hpc, hq]
      · exact absurd hd (hdone data)
      · simp [pending, hpc, hq]
  · rename_i data hpc
    cases h
    simp [pending, hpc]
  · cases h
  · cases h

/-- Each message put on the channel is forwarded once, in its turn, or is still pending. -/
theorem run_pending {task : ChannelTask α μ → Option (ChannelTask α μ)}
    (htask : ∀ t t', task t = some t' →
      t'.forwarded ++ t'.pending.flatMap body = t.forwarded ++ t.pending.flatMap body)
    {pc : TaskPc α} (hpc : ∀ data, pc ≠ .handle data) {ls : List (TaskEvent α)}
    {t : ChannelTask α μ} (h : run (step task) (new pc) ls = some t) :
    t.forwarded ++ t.pending.flatMap body
      = (outputs (step task) puts (new pc) ls).flatMap body := by
  refine run_outputs_induct puts (C := fun _ => True)
    (Q := fun (ms : List α) (t : ChannelTask α μ) =>
      t.forwarded ++ t.pending.flatMap body = ms.flatMap body) ?_ ?_ (fun _ _ => trivial) h
  · rcases pc with _ | _ | data | _
    · rfl
    · rfl
    · exact absurd rfl (hpc data)
    · rfl
  · intro ms t e t' _ hQ hs
    rcases e with data | _ | _
    · simp only [step] at hs
      split_ifs at hs
      cases hs
      rw [List.flatMap_append, ← hQ]
      simp [puts, pending]
    · cases hs
      simpa [puts, pending] using hQ
    · simp only [puts, List.append_nil]
      rw [← hQ]
      exact htask t t' hs

theorem poll_run {task : ChannelTask α μ → Option (ChannelTask α μ)} {t t'' : ChannelTask α μ}
    {n : ℕ} (t' : ChannelTask α μ) (ht : task t = some t')
    (h : run (step task) t' (List.replicate n .poll) = some t'') :
    run (step task) t (List.replicate (n + 1) .poll) = some t'' := by
  rw [List.replicate_succ, run_cons]
  exact ⟨t', ht, h⟩

/-- On a closed channel a task that does as the loop does comes to the end of it. -/
theorem drains {task : ChannelTask α μ → Option (ChannelTask α μ)}
    (htask : ∀ t : ChannelTask α μ, t.pc ≠ .loop → task t = t.whileLet body done) :
    ∀ (queue : List α) (forwarded : List μ),
      run (step task) ⟨queue, true, .recv, forwarded⟩ (List.replicate (2 * queue.length + 1) .poll)
        = some ⟨[], true, done, forwarded ++ queue.flatMap body⟩
  | [], forwarded => by
    refine poll_run ⟨[], true, done, forwarded⟩ ?_ (by simp)
    rw [htask _ (by simp)]
    rfl
  | data :: queue, forwarded => by
    have ih := drains htask queue (forwarded ++ body data)
    refine poll_run ⟨queue, true, .handle data, forwarded⟩ ?_
      (poll_run ⟨queue, true, .recv, forwarded ++ body data⟩ ?_ ?_)
    · rw [htask _ (by simp)]
      rfl
    · rw [htask _ (by simp)]
      rfl
    · rw [List.flatMap_cons, ← List.append_assoc]
      exact ih

theorem drains_of_closed {task : ChannelTask α μ → Option (ChannelTask α μ)}
    (htask : ∀ t : ChannelTask α μ, t.pc ≠ .loop → task t = t.whileLet body done)
    {t : ChannelTask α μ} (hc : t.closed = true) (hloop : t.pc ≠ .loop) (hexit : t.pc ≠ .exited) :
    ∃ n ≤ 2 * t.queue.length + 2, run (step task) t (List.replicate n .poll)
      = some ⟨[], true, done, t.forwarded ++ t.pending.flatMap body⟩ := by
  obtain ⟨queue, closed, pc, forwarded⟩ := t
  cases hc
  rcases pc with _ | _ | data | _
  · exact absurd rfl hloop
  · exact ⟨_, by simp, drains htask queue forwarded⟩
  · refine ⟨2 * queue.length + 1 + 1, by simp,
      poll_run ⟨queue, true, .recv, forwarded ++ body data⟩ ?_ ?_⟩
    · rw [htask _ hloop]
      rfl
    · have h := drains htask queue (forwarded ++ body data)
      simpa [pending] using h
  · exact absurd rfl hexit

end

/-! ## The registry task -/

/-- It exits from a closed channel only, and has forwarded all of it. -/
structure Exiting (t : ChannelTask NodeStatus CreateOrModify) : Prop where
  notLoop : t.pc ≠ .loop
  exited : t.pc = .exited → t.closed = true ∧ t.queue = []

theorem exiting_step {t t' : ChannelTask NodeStatus CreateOrModify} {e : TaskEvent NodeStatus}
    (h : Exiting t) (hs : step spawnDbConnRegistryTask t e = some t') : Exiting t' := by
  rcases e with data | _ | _
  · simp only [step] at hs
    split_ifs at hs with hc
    cases hs
    exact ⟨h.notLoop, fun he => absurd (h.exited he).1 hc⟩
  · cases hs
    exact ⟨h.notLoop, fun he => ⟨rfl, (h.exited he).2⟩⟩
  · simp only [step, spawnDbConnRegistryTask, whileLet] at hs
    split at hs
    · split at hs
      · cases hs
        exact ⟨by simp, by simp⟩
      · rename_i hq
        split_ifs at hs with hc
        cases hs
        exact ⟨by simp, fun _ => ⟨hc, hq⟩⟩
    · cases hs
      exact ⟨by simp, by simp⟩
    · cases hs
    · cases hs

/-- On a closed channel the registry task forwards what was put on it, and exits. -/
theorem registryTask_ends {ls : List (TaskEvent NodeStatus)}
    {t : ChannelTask NodeStatus CreateOrModify}
    (h : run (step spawnDbConnRegistryTask) (new .recv) ls = some t) (hc : t.closed = true) :
    ∃ n ≤ 2 * t.queue.length + 2, ∃ t',
      run (step spawnDbConnRegistryTask) t (List.replicate n .poll) = some t' ∧ t'.pc = .exited
        ∧ t'.forwarded = (outputs (step spawnDbConnRegistryTask) puts (new .recv) ls).flatMap
          createOrModify := by
  have hall : t.forwarded ++ t.pending.flatMap createOrModify
      = (outputs (step spawnDbConnRegistryTask) puts (new .recv) ls).flatMap
        createOrModify :=
    run_pending (fun _ _ => whileLet_pending (by simp)) (by simp) h
  have hex : Exiting t := run_invariant (C := fun _ => True)
    (fun _ _ _ _ hI hs => exiting_step hI hs) ⟨by simp [new], by simp [new]⟩
    (fun _ _ => trivial) h
  by_cases hpc : t.pc = .exited
  · refine ⟨0, Nat.zero_le _, t, rfl, hpc, ?_⟩
    rw [← hall]
    simp [pending, hpc, (hex.exited hpc).2]
  · have htask : ∀ t : ChannelTask NodeStatus CreateOrModify, t.pc ≠ .loop →
        spawnDbConnRegistryTask t = t.whileLet createOrModify .exited := fun _ _ => rfl
    obtain ⟨n, hn, hrun⟩ := drains_of_closed htask hc hex.notLoop hpc
    exact ⟨n, hn, _, hrun, rfl, hall⟩

/-! ## The sensor stream task -/

theorem sensorStreamTask_eq {t : ChannelTask NodeSensorReading NodeSensorReading}
    (h : t.pc ≠ .loop) :
    spawnDbConnSensorStreamTask t = t.whileLet (fun data => [data]) .loop := by
  unfold spawnDbConnSensorStreamTask
  split
  · exact absurd ‹_› h
  · rfl

theorem sensorStreamTask_pending {t t' : ChannelTask NodeSensorReading NodeSensorReading}
    (h : spawnDbConnSensorStreamTask t = some t') :
    t'.forwarded ++ t'.pending.flatMap (fun data => [data])
      = t.forwarded ++ t.pending.flatMap fun data => [data] := by
  by_cases hpc : t.pc = .loop
  · simp only [spawnDbConnSensorStreamTask, hpc] at h
    cases h
    simp [pending, hpc]
  · rw [sensorStreamTask_eq hpc] at h
    exact whileLet_pending (by simp) h

theorem sensorStreamTask_pc {t t' : ChannelTask NodeSensorReading NodeSensorReading}
    (h : spawnDbConnSensorStreamTask t = some t') :
    t'.pc ≠ .exited ∧ t'.closed = t.closed := by
  unfold spawnDbConnSensorStreamTask whileLet at h
  split at h
  · cases h
    exact ⟨by simp, rfl⟩
  · split at h
    · split at h
      · cases h
        exact ⟨by simp, rfl⟩
      · split_ifs at h
        cases h
        exact ⟨by simp, rfl⟩
    · cases h
      exact ⟨by simp, rfl⟩
    · cases h
    · cases h

theorem pc_step {t t' : ChannelTask NodeSensorReading NodeSensorReading}
    {e : TaskEvent NodeSensorReading} (h : t.pc ≠ .exited)
    (hs : step spawnDbConnSensorStreamTask t e = some t') : t'.pc ≠ .exited := by
  rcases e with data | _ | _
  · simp only [step] at hs
    split_ifs at hs
    cases hs
    exact h
  · cases hs
    exact h
  · exact (sensorStreamTask_pc hs).1

/-- On a closed channel the sensor stream task always has a next step. -/
theorem sensorStreamTask_isSome {t : ChannelTask NodeSensorReading NodeSensorReading}
    (hc : t.closed = true) (h : t.pc ≠ .exited) :
    ∃ t', spawnDbConnSensorStreamTask t = some t' := by
  obtain ⟨queue, closed, pc, forwarded⟩ := t
  cases hc
  rcases pc with _ | _ | data | _
  · exact ⟨_, rfl⟩
  · rcases queue with _ | ⟨data, queue⟩ <;> exact ⟨_, rfl⟩
  · exact ⟨_, rfl⟩
  · exact absurd rfl h

theorem spins : ∀ (n : ℕ) {t : ChannelTask NodeSensorReading NodeSensorReading},
    t.closed = true → t.pc ≠ .exited → ∃ t', run (step spawnDbConnSensorStreamTask) t
      (List.replicate n .poll) = some t' ∧ t'.pc ≠ .exited
  | 0, t, _, h => ⟨t, rfl, h⟩
  | n + 1, t, hc, h => by
    obtain ⟨u, hu⟩ := sensorStreamTask_isSome hc h
    obtain ⟨hpc, hcl⟩ := sensorStreamTask_pc hu
    obtain ⟨t', ht', hpc'⟩ := spins n (hcl.trans hc) hpc
    exact ⟨t', poll_run u hu ht', hpc'⟩

/-- When all senders are gone the sensor stream task forwards each reading that was put on the
channel, once and in order, within a bounded number of steps. It never exits: after any number of
steps it is there to take another. -/
theorem sensorStreamTask_spins (ls : List (TaskEvent NodeSensorReading))
    (t : ChannelTask NodeSensorReading NodeSensorReading)
    (h : run (step spawnDbConnSensorStreamTask) (new .loop) ls = some t) (hc : t.closed = true) :
    (∃ n ≤ 2 * t.queue.length + 2, ∃ t',
        run (step spawnDbConnSensorStreamTask) t (List.replicate n .poll) = some t'
          ∧ t'.queue = []
          ∧ t'.forwarded = outputs (step spawnDbConnSensorStreamTask) puts (new .loop) ls)
      ∧ (∀ n, ∃ t', run (step spawnDbConnSensorStreamTask) t (List.replicate n .poll) = some t')
      ∧ ¬ ∃ n t', run (step spawnDbConnSensorStreamTask) t (List.replicate n .poll) = some t'
        ∧ t'.pc = .exited := by
  have hall : t.forwarded ++ t.pending.flatMap (fun data => [data])
      = (outputs (step spawnDbConnSensorStreamTask) puts (new .loop) ls).flatMap
        fun data => [data] :=
    run_pending (fun _ _ => sensorStreamTask_pending) (by simp) h
  have hpc : t.pc ≠ .exited := run_invariant (C := fun _ => True)
    (fun _ _ _ _ hI hs => pc_step hI hs) (by simp [new]) (fun _ _ => trivial) h
  refine ⟨?_, fun n => ?_, ?_⟩
  · by_cases hloop : t.pc = .loop
    · -- one step more, from the outer loop to the inner
      have hdrain := drains (fun _ => sensorStreamTask_eq) t.queue t.forwarded
      have hstep : spawnDbConnSensorStreamTask t = some ⟨t.queue, true, .recv, t.forwarded⟩ := by
        simp [spawnDbConnSensorStreamTask, hloop, hc]
      refine ⟨2 * t.queue.length + 1 + 1, le_rfl, _, poll_run _ hstep hdrain, rfl, ?_⟩
      simpa [pending, hloop] using hall
    · obtain ⟨n, hn, hrun⟩ := drains_of_closed (fun _ => sensorStreamTask_eq) hc hloop hpc
      refine ⟨n, hn, _, hrun, rfl, ?_⟩
      simpa using hall
  · obtain ⟨t', ht', -⟩ := spins n hc hpc
    exact ⟨t', ht'⟩
  · rintro ⟨n, t', ht', hexit⟩
    obtain ⟨u, hu, hne⟩ := spins n hc hpc
    rw [ht', Option.some.injEq] at hu
    exact hne (hu ▸ hexit)

/-- Two readings, the first of which is forwarded before the senders are dropped. -/
def unsubscribedRun (r : NodeSensorReading) : List (TaskEvent NodeSensorReading) :=
  [.send r, .poll, .poll, .poll, .send r, .close]

def sampleReading : NodeSensorReading :=
  ⟨⟨.new 0xfd00 0 0 0 0 0 0 1, 49152⟩, ⟨⟨700, 0⟩, none, none, 0⟩⟩

theorem spins_unsubscribed : ∃ t,
    run (step spawnDbConnSensorStreamTask) (new .loop) (unsubscribedRun sampleReading) = some t
      ∧ ¬ ∃ n t', run (step spawnDbConnSensorStreamTask) t (List.replicate n .poll) = some t'
        ∧ t'.pc = .exited :=
  ⟨_, rfl, (sensorStreamTask_spins (unsubscribedRun sampleReading) _ rfl rfl).2.2⟩

/-- On a channel that was closed with nothing on it the task does not exit either. -/
theorem not_sensorStreamTask_ends : ∃ t,
    run (step spawnDbConnSensorStreamTask) (new .loop) [.close] = some t ∧ t.closed = true
      ∧ ∀ n, ∃ t', run (step spawnDbConnSensorStreamTask) t (List.replicate n .poll) = some t'
        ∧ t'.pc ≠ .exited :=
  ⟨_, rfl, rfl, fun n => spins n rfl (by simp [new])⟩

end ChannelTask

end Pmind
