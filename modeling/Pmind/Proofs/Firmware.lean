import Pmind.Firmware
import Pmind.Proofs.Observer

/-!
# How often a node reports

The program is one of `Esp32Platform`'s: what its timer adds is when a sensor event comes. A firing
stays on until the node is observed and the sensors are read, and a reading uses one up; so over any
stretch of a run there is at most one for each interval of the timer, and three more that may be due
when it begins.
-/

namespace Pmind

open Transition

theorem Esp32Platform.report_fst (json : SerdeJson) (p : Esp32Platform)
    (reading : Option SensorReading) (sendOk : Bool) :
    (p.report json reading sendOk).1 = if p.breaks json reading sendOk then p.reset else p := by
  unfold report breaks
  rcases p.observerAddr with _ | ⟨observer, port⟩
  · rfl
  · rcases reading with _ | r
    · rfl
    · simp only []
      split <;> rename_i hj <;> cases sendOk <;> simp [hj]

theorem Esp32Platform.length_report_le (json : SerdeJson) (p : Esp32Platform)
    (reading : Option SensorReading) (sendOk : Bool) :
    (p.report json reading sendOk).2.length ≤ 1 := by
  unfold report
  split
  · simp
  · split
    · split_ifs <;> simp
    · simp
  · simp

namespace FirmwareEvent

def isMillis : FirmwareEvent → Bool
  | .millis => true
  | _ => false

def isSensorRead : FirmwareEvent → Bool
  | .sensorRead _ _ => true
  | _ => false

/-- A step of the event loop. -/
def isLoop : FirmwareEvent → Bool
  | .timer | .sensorRead _ _ | .receive _ _ _ => true
  | _ => false

end FirmwareEvent

namespace Firmware

variable {coap : CoapLite} {json : SerdeJson} {s s' : Firmware} {e : FirmwareEvent}

inductive Step (coap : CoapLite) (json : SerdeJson) (s : Firmware) : FirmwareEvent → Firmware → Prop
  | millis : Step coap json s .millis { s with countdown := s.countdown - 1 }
  | interrupt (h : s.countdown = 0) :
    Step coap json s .interrupt { s with fired := true, countdown := sensorTimerInterval }
  | taken (hp : s.pc = .timer) (ho : s.platform.observerAddr.isSome) (hf : s.fired = true) :
    Step coap json s .timer { s with fired := false, pc := .sensorRead }
  | passed (hp : s.pc = .timer) (h : s.platform.observerAddr = none ∨ s.fired = false) :
    Step coap json s .timer { s with pc := .receive }
  | breaks {reading sendOk} (hp : s.pc = .sensorRead) (hh : s.platform.halted = false)
    (hb : s.platform.breaks json reading sendOk) :
    Step coap json s (.sensorRead reading sendOk) (boot s.platform)
  | sensorRead {reading sendOk} (hp : s.pc = .sensorRead) (hh : s.platform.halted = false)
    (hb : s.platform.breaks json reading sendOk = false) :
    Step coap json s (.sensorRead reading sendOk) { s with pc := .receive }
  | receive {src bytes sendOk} (hp : s.pc = .receive) (hh : s.platform.halted = false) :
    Step coap json s (.receive src bytes sendOk)
      { s with platform := (s.platform.receive coap src (bytes.take 512) sendOk).1, pc := .timer }

theorem Step.of_loop (hh : s.platform.halted = false) (h : s.loop coap json e = some s') :
    Step coap json s e s' := by
  unfold loop at h
  split at h
  · rename_i hp
    cases h
    split_ifs with ho hf
    · exact .taken hp ho hf
    · rw [Bool.not_eq_true] at hf
      have hpassed : Step coap json s .timer { s with pc := .receive } := .passed hp (.inr hf)
      rw [← hf]
      exact hpassed
    · exact .passed hp (.inl (by simpa using ho))
  · rename_i reading sendOk hp
    cases h
    split_ifs with hb
    · exact .breaks hp hh hb
    · rw [Esp32Platform.report_fst, if_neg hb]
      exact .sensorRead hp hh (by simpa using hb)
  · rename_i hp
    cases h
    exact .receive hp hh
  · cases h

theorem Step.of_step (h : step coap json s e = some s') : Step coap json s e s' := by
  unfold step at h
  split at h
  · cases h
    exact .millis
  · split_ifs at h with h0
    cases h
    exact .interrupt h0
  · split_ifs at h with hh
    exact .of_loop (by simpa using hh) h

/-! ## The platform's part -/

theorem platform_step (h : step coap json s e = some s') :
    run (Esp32Platform.step coap json) s.platform e.loopEvents = some s'.platform := by
  cases Step.of_step h with
  | breaks hp hh hb =>
    simp [FirmwareEvent.loopEvents, run, Esp32Platform.step, Esp32Platform.coapServerEventLoop, hh,
      Esp32Platform.report_fst, hb, boot]
  | sensorRead hp hh hb =>
    simp [FirmwareEvent.loopEvents, run, Esp32Platform.step, Esp32Platform.coapServerEventLoop, hh,
      Esp32Platform.report_fst, hb]
  | receive hp hh =>
    simp [FirmwareEvent.loopEvents, run, Esp32Platform.step, Esp32Platform.coapServerEventLoop, hh]
  | _ => rfl

/-! ## The timer's -/

/-- A reading is due. -/
def Pending (s : Firmware) : Prop := s.fired = true ∨ s.pc = .sensorRead

/-- The milliseconds that the readings which are due stand for, and those since the last firing. -/
def owed (s : Firmware) : ℕ :=
  (if s.fired then sensorTimerInterval else 0)
    + (if s.pc = .sensorRead then sensorTimerInterval else 0)
    + (sensorTimerInterval - s.countdown)

theorem owed_boot (p : Esp32Platform) : (boot p).owed = 0 := by
  simp [owed, boot]

theorem owed_le (s : Firmware) : s.owed ≤ 3 * sensorTimerInterval := by
  unfold owed
  split_ifs <;> omega

theorem pending_step (h : step coap json s e = some s') (he : e.isSensorRead = false)
    (hs : s.Pending) : s'.Pending := by
  unfold Pending at hs ⊢
  cases Step.of_step h with
  | millis => exact hs
  | interrupt => exact Or.inl rfl
  | taken => exact Or.inr rfl
  | passed hp | receive hp =>
    rw [hp] at hs
    exact Or.inl (hs.resolve_right nofun)
  | breaks | sensorRead => cases he

theorem owed_step (h : step coap json s e = some s') :
    s'.owed + (if e.isSensorRead then sensorTimerInterval else 0)
      ≤ s.owed + if e.isMillis then 1 else 0 := by
  cases Step.of_step h with
  | millis =>
    simp only [owed, FirmwareEvent.isSensorRead, FirmwareEvent.isMillis, if_true]
    simp only [Bool.false_eq_true, if_false]
    omega
  | interrupt h0 =>
    simp [owed, h0, FirmwareEvent.isSensorRead, FirmwareEvent.isMillis]
    omega
  | taken hp ho hf => simp [owed, hp, hf, FirmwareEvent.isSensorRead, FirmwareEvent.isMillis]
  | passed hp => simp [owed, hp, FirmwareEvent.isSensorRead, FirmwareEvent.isMillis]
  | breaks hp =>
    rw [owed_boot]
    simp [owed, hp, FirmwareEvent.isSensorRead, FirmwareEvent.isMillis]
    omega
  | sensorRead hp =>
    simp [owed, hp, FirmwareEvent.isSensorRead, FirmwareEvent.isMillis]
    omega
  | receive hp => simp [owed, hp, FirmwareEvent.isSensorRead, FirmwareEvent.isMillis]

theorem owed_run {ls : List FirmwareEvent} (h : run (step coap json) s ls = some s') :
    s'.owed + sensorTimerInterval * ls.countP FirmwareEvent.isSensorRead
      ≤ s.owed + ls.countP FirmwareEvent.isMillis := by
  have hcost := cost_le_of_potential (C := fun _ => True) (J := fun _ => True)
    (fun t e t' _ _ hs => ⟨trivial, owed_step (e := e) hs⟩) trivial (fun _ _ => trivial) h
  rw [cost_eq_countP, cost_eq_countP, Nat.one_mul] at hcost
  exact hcost.2

theorem length_reports_le (s : Firmware) (e : FirmwareEvent) :
    (s.reports json e).length ≤ if e.isSensorRead then 1 else 0 := by
  rcases e with _ | _ | _ | ⟨reading, sendOk⟩ | _
  case sensorRead => exact Esp32Platform.length_report_le json s.platform reading sendOk
  all_goals exact le_rfl

/-- In every run the platform goes through a run of its own, whatever the timer does. From the start
the node reports at most once for each interval of the timer that has passed, and over any later
stretch of the run at most three times more. -/
theorem paced (coap : CoapLite) (json : SerdeJson) (p : Esp32Platform) (ls : List FirmwareEvent)
    (s : Firmware) (h : run (step coap json) (boot p) ls = some s) :
    run (Esp32Platform.step coap json) p.reset (ls.flatMap FirmwareEvent.loopEvents)
        = some s.platform
      ∧ sensorTimerInterval * (outputs (step coap json) (reports json) (boot p) ls).length
        ≤ ls.countP FirmwareEvent.isMillis
      ∧ ∀ ls' s', run (step coap json) s ls' = some s' →
        sensorTimerInterval * (outputs (step coap json) (reports json) s ls').length
          ≤ ls'.countP FirmwareEvent.isMillis + 3 * sensorTimerInterval := by
  have hlen : ∀ s ls, sensorTimerInterval
        * (outputs (step coap json) (reports json) s ls).length
      ≤ sensorTimerInterval * ls.countP FirmwareEvent.isSensorRead :=
    fun s ls => Nat.mul_le_mul_left _ (length_outputs_le length_reports_le)
  refine ⟨run_project (f := Firmware.platform) (fun t e t' hs => platform_step hs) h, ?_, ?_⟩
  · have howed := owed_run h
    rw [owed_boot] at howed
    exact (hlen _ _).trans (by omega)
  · intro ls' s' h'
    have howed := owed_run h'
    have hle := owed_le s
    exact (hlen _ _).trans (by omega)

theorem run_millis (s : Firmware) : ∀ n : ℕ,
    run (step coap json) s (List.replicate n .millis)
      = some { s with countdown := s.countdown - n }
  | 0 => rfl
  | n + 1 => by
    rw [List.replicate_succ, run, step, Option.bind_some, run_millis _ n]
    simp [Nat.sub_sub, Nat.add_comm]

def jsonOk : SerdeJson := ⟨fun _ => none, fun _ => some []⟩

/-- The node is asked, and reports when the timer fires. -/
def firstReport : List FirmwareEvent :=
  [.timer, .receive Esp32Platform.broker (Esp32Platform.requestBytes Packet.codeGet) true]
    ++ List.replicate sensorTimerInterval .millis
    ++ [.interrupt, .timer, .sensorRead (some ⟨⟨0, 0⟩, none, none, 0⟩) true]

theorem paced_firstReport :
    ∃ s, run (step .wire jsonOk) (boot Esp32Platform.mint) firstReport = some s
      ∧ s.platform.observerAddr = some (Esp32Platform.broker.ip, 1213)
      ∧ run (Esp32Platform.step .wire jsonOk) Esp32Platform.mint.reset
          (firstReport.flatMap FirmwareEvent.loopEvents) = some s.platform
      ∧ sensorTimerInterval * (outputs (step .wire jsonOk) (reports jsonOk)
          (boot Esp32Platform.mint) firstReport).length
        ≤ firstReport.countP FirmwareEvent.isMillis := by
  have hasked : run (step .wire jsonOk) (boot Esp32Platform.mint)
      [.timer, .receive Esp32Platform.broker (Esp32Platform.requestBytes Packet.codeGet) true]
        = some ⟨{ Esp32Platform.mint with
          observerAddr := some (Esp32Platform.broker.ip, 1213) }, false, sensorTimerInterval,
          .timer⟩ := by
    decide +kernel
  have hrun : ∃ s, run (step .wire jsonOk) (boot Esp32Platform.mint) firstReport = some s
      ∧ s.platform.observerAddr = some (Esp32Platform.broker.ip, 1213) :=
    ⟨_, run_append_some.mpr ⟨_, run_append_some.mpr ⟨_, hasked, run_millis _ _⟩, rfl⟩, rfl⟩
  obtain ⟨s, hs, hobs⟩ := hrun
  obtain ⟨hplatform, hpace, -⟩ := paced .wire jsonOk Esp32Platform.mint firstReport s hs
  exact ⟨s, hs, hobs, hplatform, hpace⟩

/-! ## A reading that is due -/

/-- The steps of the loop until the sensors are read, if a reading is due and the node observed. -/
def stepsToRead (s : Firmware) : ℕ :=
  match s.pc with
  | .receive => 2
  | .timer => 1
  | .sensorRead => 0

theorem observed_receive {p : Esp32Platform} (h : p.observerAddr.isSome) (src : SocketAddrV6)
    (bytes : List UInt8) (sendOk : Bool) :
    (p.receive coap src bytes sendOk).1.observerAddr.isSome := by
  unfold Esp32Platform.receive Esp32Platform.halt
  split
  · exact h
  · split
    · split
      · split
        · rfl
        · exact h
      · exact h
    · split_ifs
      · exact h
      · exact h

theorem due_step (he : e.isSensorRead = false) (hdue : s.Pending ∧ s.platform.observerAddr.isSome)
    (h : step coap json s e = some s') :
    (s'.Pending ∧ s'.platform.observerAddr.isSome)
      ∧ s'.stepsToRead + (if e.isLoop then 1 else 0) ≤ s.stepsToRead := by
  obtain ⟨hp, ho⟩ := hdue
  have hpending := pending_step h he hp
  cases Step.of_step h with
  | millis | interrupt => exact ⟨⟨hpending, ho⟩, le_rfl⟩
  | taken hpc =>
    refine ⟨⟨hpending, ho⟩, ?_⟩
    simp [stepsToRead, hpc, FirmwareEvent.isLoop]
  | passed hpc hnot =>
    -- a reading that is due is taken where the node is observed
    rcases hp with hf | hpc'
    · rw [hf] at hnot
      rw [hnot.resolve_right nofun] at ho
      cases ho
    · rw [hpc] at hpc'
      cases hpc'
  | breaks | sensorRead => cases he
  | receive hpc =>
    refine ⟨⟨hpending, observed_receive ho _ _ _⟩, ?_⟩
    simp [stepsToRead, hpc, FirmwareEvent.isLoop]

theorem exists_step (json : SerdeJson) (s : Firmware) (hh : s.platform.halted = false) :
    ∃ e t, e.isLoop ∧ step coap json s e = some t := by
  rcases hpc : s.pc
  · exact ⟨.timer, _, rfl, by simp only [step, hh, loop, hpc]; rfl⟩
  · exact ⟨.sensorRead none true, _, rfl, by simp only [step, hh, loop, hpc]; rfl⟩
  · exact ⟨.receive ⟨.localhost, 0⟩ [] true, _, rfl, by simp only [step, hh, loop, hpc]; rfl⟩

/-- Wherever the timer fires, the node has a reading due from then until it reads the sensors, also
while it is not observed. Once it is, the loop reads them after at most two other steps, and unless
the node has halted it has a step to take. -/
theorem read_in_time (coap : CoapLite) (json : SerdeJson) (s s' : Firmware)
    (hfire : step coap json s .interrupt = some s') (ls : List FirmwareEvent) (t : Firmware)
    (h : run (step coap json) s' ls = some t) (hls : ∀ e ∈ ls, e.isSensorRead = false) :
    t.Pending ∧ (t.platform.observerAddr.isSome → ∀ ls' t', run (step coap json) t ls' = some t' →
      (∀ e ∈ ls', e.isSensorRead = false) →
        t'.Pending ∧ ls'.countP FirmwareEvent.isLoop ≤ 2
          ∧ (t'.platform.halted = false → ∃ e u, e.isLoop ∧ step coap json t' e = some u)) := by
  have hs' : s'.Pending := by
    cases Step.of_step hfire with
    | interrupt => exact Or.inl rfl
  have ht : t.Pending := run_invariant (C := fun e => e.isSensorRead = false)
    (fun t e t' he ht hs => pending_step hs he ht) hs' hls h
  refine ⟨ht, fun ho ls' t' h' hls' => ?_⟩
  obtain ⟨⟨ht', -⟩, hcount⟩ := countP_le_of_potential (C := fun e => e.isSensorRead = false)
    (p := FirmwareEvent.isLoop) (fun t e t' he ht hs => due_step he ht hs) ⟨ht, ho⟩ hls' h'
  refine ⟨ht', ?_, exists_step json t'⟩
  have hle : t.stepsToRead ≤ 2 := by
    unfold stepsToRead
    split <;> omega
  omega

/-- The timer is about to fire, and the node has not been asked yet. -/
def unasked : Firmware := { boot Esp32Platform.mint with countdown := 0 }

/-- The request comes after the timer has fired. -/
theorem read_in_time_asked : ∃ s' t, step .wire jsonOk unasked .interrupt = some s'
    ∧ run (step .wire jsonOk) s' [.timer, .receive Esp32Platform.broker
        (Esp32Platform.requestBytes Packet.codeGet) true] = some t
    ∧ t.Pending ∧ ∀ ls' t', run (step .wire jsonOk) t ls' = some t' →
      (∀ e ∈ ls', e.isSensorRead = false) →
        t'.Pending ∧ ls'.countP FirmwareEvent.isLoop ≤ 2
          ∧ (t'.platform.halted = false → ∃ e u, e.isLoop ∧ step .wire jsonOk t' e = some u) := by
  obtain ⟨s', hs', t, ht, hobs⟩ : ∃ s' ∈ step .wire jsonOk unasked .interrupt,
      ∃ t ∈ run (step .wire jsonOk) s' [.timer, .receive Esp32Platform.broker
        (Esp32Platform.requestBytes Packet.codeGet) true], t.platform.observerAddr.isSome := by
    decide +kernel
  obtain ⟨hp, hdue⟩ := read_in_time .wire jsonOk unasked s' hs' _ t ht (by decide)
  exact ⟨s', t, hs', ht, hp, hdue hobs⟩

end Firmware

end Pmind
