import Pmind.Frontend
import Pmind.Proofs.Minder

/-!
# What comes through the front end

Whatever order the two tasks and the broker run in, the readings, the statuses and the commands each
keep their order on the way to the app, and none is lost or doubled: what has been sent is what the
app has been given, and then what is on the channels. The app's part of a run is a run of
`PlantMinder`, in batches of at most `tickLimit`, so that no `drain` panics; and a `send` can only
fail when the main loop is over.
-/

namespace Pmind

open Transition HashMap

def Event.statuses : Event → List NodeStatus
  | .nodeState status => [status]
  | _ => []

def Event.cmds : Event → List AppCmd
  | .appCmd cmd => [cmd]
  | _ => []

namespace MinderEvent

def readings : MinderEvent → List NodeSensorReading
  | .recvMany _ buffer _ => buffer
  | _ => []

def statuses : MinderEvent → List NodeStatus
  | .nodeState status => [status]
  | _ => []

def cmds : MinderEvent → List AppCmd
  | .appCmd cmd => [cmd]
  | _ => []

end MinderEvent

namespace FrontendStep

def readings : FrontendStep → List NodeSensorReading
  | .sensorReading reading => [reading]
  | _ => []

def statuses : FrontendStep → List NodeStatus
  | .nodeStatus status => [status]
  | _ => []

def cmds : FrontendStep → List AppCmd
  | .crosstermEvent evt => evt.cmds
  | _ => []

end FrontendStep

namespace Frontend

/-! ## One step -/

theorem foldl_send {s : Frontend} (h : s.receiving) : ∀ (cmds : List AppCmd) (s' : Frontend),
    s' = { s with events := s'.events } →
    cmds.foldl (fun self cmd => self.send (.appCmd cmd)) s'
      = { s with events := s'.events ++ cmds.map .appCmd }
  | [], s', hs' => by
    rw [List.map_nil, List.append_nil]
    exact hs'
  | cmd :: cmds, s', hs' => by
    have hr : s'.receiving := by
      rw [hs']
      exact h
    have hsend : s'.send (.appCmd cmd) = { s with events := s'.events ++ [.appCmd cmd] } := by
      rw [send, if_pos hr, hs']
    rw [List.foldl_cons, foldl_send h cmds _ (by rw [hsend]), hsend, List.map_cons]
    simp

theorem foldl_send_panics {s : Frontend} (h : ¬ s.receiving) : ∀ cmds : List AppCmd, cmds ≠ [] →
    cmds.foldl (fun self cmd => self.send (.appCmd cmd)) s = { s with handler := .panicked }
  | [cmd], _ => by
    rw [List.foldl_cons, List.foldl_nil, send, if_neg h]
  | cmd :: cmd' :: cmds, _ => by
    have hsend : s.send (.appCmd cmd) = { s with handler := .panicked } := by
      rw [send, if_neg h]
    rw [List.foldl_cons, hsend]
    exact foldl_send_panics (s := { s with handler := .panicked }) h (cmd' :: cmds) (by simp)

/-- What a step can do. -/
inductive Step (s : Frontend) : FrontendStep → Frontend → Prop
  | sensorReading (reading) : Step s (.sensorReading reading)
    { s with sensorStream := s.sensorStream ++ [reading] }
  | nodeStatus (status) : Step s (.nodeStatus status)
    { s with nodeState := s.nodeState ++ [status] }
  | closed (hh : s.handler = .selecting) (hr : ¬ s.receiving) : Step s .closed
    { s with handler := .ended }
  | tickDelay (hr : s.receiving) : Step s .tickDelay { s with events := s.events ++ [.tick] }
  | crosstermEvent (evt) (hr : s.receiving ∨ evt.cmds = []) : Step s (.crosstermEvent evt)
    { s with events := s.events ++ evt.cmds.map .appCmd }
  | nodeStateStream {state rest} (h : s.nodeState = state :: rest) (hr : s.receiving) :
    Step s .nodeStateStream
      { s with nodeState := rest, events := s.events ++ [.nodeState state] }
  | nodeDataStream {data rest} (h : s.sensorStream = data :: rest) (hr : s.receiving) :
    Step s .nodeDataStream
      { s with sensorStream := rest, dataQueue := s.dataQueue ++ [data] }
  | panics {e nodeState sensorStream} (hr : ¬ s.receiving) (he : s.turns e = [])
    (hn : nodeState <:+ s.nodeState) (hd : sensorStream <:+ s.sensorStream) : Step s e
      { s with nodeState, sensorStream, handler := .panicked }
  | tick {rest} (hm : s.main = .next) (h : s.events = .tick :: rest) : Step s .next
    { s with events := rest, main := .tick }
  | appCmd {cmd rest} (hm : s.main = .next) (h : s.events = .appCmd cmd :: rest) : Step s .next
    { s with events := rest, app := s.app.handleAppCmd cmd }.loop
  | nodeState {status rest} (hm : s.main = .next) (h : s.events = .nodeState status :: rest) :
    Step s .next { s with events := rest, app := s.app.handleNodeStateChange status }.loop
  | drawError (hm : s.main = .next) : Step s .drawError { s with main := .exited }
  | recvMany {size} {keys : List Ipv6Addr} {app} (hm : s.main = .tick) (hsize : size ≤ tickLimit)
    (hkeys : (keys : Multiset Ipv6Addr) = s.app.nodes.keys.val)
    (h : s.app.recvMany (s.dataQueue.take size) keys = some app) : Step s (.recvMany size keys)
      { s with dataQueue := s.dataQueue.drop size, app }.loop

theorem Step.of_select {s s' : Frontend} {e : FrontendStep} (hh : s.handler = .selecting)
    (h : s.select e = some s') : Step s e s' := by
  unfold select at h
  split at h
  · cases h
    exact .sensorReading _
  · cases h
    exact .nodeStatus _
  · split_ifs at h with hr
    cases h
    exact .closed hh hr
  · cases h
    unfold send
    split_ifs with hr
    · exact .tickDelay hr
    · exact .panics hr rfl List.suffix_rfl List.suffix_rfl
  · rename_i evt
    cases h
    by_cases hr : s.receiving
    · rw [foldl_send hr evt.cmds s rfl]
      exact .crosstermEvent evt (.inl hr)
    · by_cases hcmds : evt.cmds = []
      · have hstep := Step.crosstermEvent (s := s) evt (.inr hcmds)
        rw [hcmds, List.map_nil, List.append_nil] at hstep
        rw [hcmds]
        exact hstep
      · rw [foldl_send_panics hr evt.cmds hcmds]
        exact .panics hr rfl List.suffix_rfl List.suffix_rfl
  · split at h
    · rename_i state rest hn
      cases h
      unfold send
      split_ifs with hr
      · exact .nodeStateStream hn hr
      · exact .panics hr rfl (hn ▸ List.suffix_cons state rest) List.suffix_rfl
    · cases h
  · split at h
    · rename_i data rest hd
      cases h
      unfold sendData
      split_ifs with hr
      · exact .nodeDataStream hd hr
      · exact .panics hr rfl List.suffix_rfl (hd ▸ List.suffix_cons data rest)
    · cases h
  · cases h

/-- A batch of a tick is too small for `drain` to panic. -/
theorem Step.of_step {s s' : Frontend} {e : FrontendStep} (h : step s e = some s') :
    Step s e s' := by
  unfold step at h
  split at h
  · split at h
    · rename_i e rest hm hev
      cases h
      rcases e with _ | cmd | status
      · exact .tick hm hev
      · exact .appCmd hm hev
      · exact .nodeState hm hev
    · cases h
  · split_ifs at h with hm
    cases h
    exact .drawError hm
  · rename_i size keys
    split_ifs at h with hc
    cases h
    obtain ⟨hm, hsize, -, hkeys⟩ := hc
    have hlen : (s.dataQueue.take size).length ≤ 45 := by
      rw [List.length_take]
      unfold tickLimit at hsize
      omega
    obtain ⟨app, happ⟩ := PlantMinder.recvMany_isSome hlen s.app keys
    have hrecv : s.recvMany size keys
        = { s with dataQueue := s.dataQueue.drop size, app }.loop := by
      unfold Frontend.recvMany
      simp only [happ]
    rw [hrecv]
    exact .recvMany hm hsize hkeys happ
  · split_ifs at h with hh
    exact .of_select hh h

/-! ## Nothing panics while the main loop runs -/

structure Sound (s : Frontend) : Prop where
  main : s.main ≠ .panicked
  running : s.receiving → s.app.running = true
  handler : s.receiving → s.handler = .selecting

theorem sound_loop {s : Frontend} (h : s.handler = .selecting) : Sound s.loop := by
  unfold loop
  by_cases hr : s.app.running = true
  · exact ⟨by simp [hr], fun _ => hr, fun _ => h⟩
  · exact ⟨by simp [hr], fun hm => by simp [receiving, hr] at hm, fun _ => h⟩

theorem sound_step (s : Frontend) (e : FrontendStep) (s' : Frontend) (h : Sound s)
    (hs : step s e = some s') : Sound s' := by
  cases Step.of_step hs with
  | sensorReading | nodeStatus | tickDelay | crosstermEvent | nodeStateStream | nodeDataStream =>
    exact ⟨h.main, h.running, h.handler⟩
  | closed _ hr | panics hr => exact ⟨h.main, fun hr' => absurd hr' hr, fun hr' => absurd hr' hr⟩
  | tick hm => exact ⟨by simp, fun _ => h.running (.inl hm), fun _ => h.handler (.inl hm)⟩
  | drawError hm => exact ⟨by simp, fun hr => by simp [receiving] at hr,
      fun hr => by simp [receiving] at hr⟩
  | appCmd hm | nodeState hm => exact sound_loop (h.handler (.inl hm))
  | recvMany hm => exact sound_loop (h.handler (.inr hm))

theorem sound_new : Sound new := ⟨by decide, fun _ => rfl, fun _ => rfl⟩

/-! ## The app's part -/

/-- A step of the front end is at most one of the app. -/
theorem turns_step {s s' : Frontend} {e : FrontendStep} (h : Sound s) (hs : step s e = some s') :
    run PlantMinder.step s.app (s.turns e) = some s'.app := by
  cases Step.of_step hs with
  | panics hr he => rw [he, run_nil]
  | tick hm hev => simp [turns, hev]
  | appCmd hm hev =>
    have hrun := h.running (.inl hm)
    simp [turns, hev, run, PlantMinder.step, hrun, loop]
  | nodeState hm hev =>
    have hrun := h.running (.inl hm)
    simp [turns, hev, run, PlantMinder.step, hrun, loop]
  | @recvMany size keys app hm hsize hkeys happ =>
    have hrun := h.running (.inr hm)
    have hlen : (s.dataQueue.take size).length ≤ tickLimit := by
      rw [List.length_take]
      omega
    simp only [turns, run, PlantMinder.step, hrun, if_true, if_pos (And.intro hlen hkeys), happ]
    rfl
  | _ => rfl

/-! ## The channels -/

def readingsQueued (s : Frontend) : List NodeSensorReading := s.dataQueue ++ s.sensorStream

def statusesQueued (s : Frontend) : List NodeStatus :=
  s.events.flatMap Event.statuses ++ s.nodeState

def cmdsQueued (s : Frontend) : List AppCmd := s.events.flatMap Event.cmds

variable {s s' : Frontend} {e : FrontendStep}

theorem readings_step (hp : s'.handler ≠ .panicked) (hs : step s e = some s') :
    s.readingsQueued ++ e.readings
      = (s.turns e).flatMap MinderEvent.readings ++ s'.readingsQueued := by
  cases Step.of_step hs with
  | panics => exact absurd rfl hp
  | nodeDataStream h => simp [readingsQueued, turns, FrontendStep.readings, h]
  | tick hm h | appCmd hm h | nodeState hm h =>
    simp [readingsQueued, turns, FrontendStep.readings, MinderEvent.readings, h, loop]
  | @recvMany size =>
    simp only [readingsQueued, turns, FrontendStep.readings, MinderEvent.readings, loop,
      List.flatMap_singleton, List.append_nil, ← List.append_assoc, List.take_append_drop]
  | _ => simp [readingsQueued, turns, FrontendStep.readings]

theorem statuses_step (hs : step s e = some s') :
    (s'.handler = .panicked
        ∧ ((s.turns e).flatMap MinderEvent.statuses ++ s'.statusesQueued).Sublist
          (s.statusesQueued ++ e.statuses))
      ∨ s.statusesQueued ++ e.statuses
        = (s.turns e).flatMap MinderEvent.statuses ++ s'.statusesQueued := by
  cases Step.of_step hs with
  | panics hr he hn =>
    rw [he]
    exact Or.inl ⟨rfl, (hn.sublist.append_left _).trans (List.sublist_append_left _ _)⟩
  | crosstermEvent evt =>
    simp [statusesQueued, turns, FrontendStep.statuses, Event.statuses, List.flatMap_map]
  | nodeStateStream h => simp [statusesQueued, turns, FrontendStep.statuses, Event.statuses, h]
  | tick hm h | appCmd hm h | nodeState hm h =>
    simp [statusesQueued, turns, FrontendStep.statuses, Event.statuses, MinderEvent.statuses, h,
      loop]
  | recvMany => simp [statusesQueued, turns, FrontendStep.statuses, MinderEvent.statuses, loop]
  | _ => simp [statusesQueued, turns, FrontendStep.statuses, Event.statuses]

theorem cmds_step (hp : s'.handler ≠ .panicked) (hs : step s e = some s') :
    s.cmdsQueued ++ e.cmds = (s.turns e).flatMap MinderEvent.cmds ++ s'.cmdsQueued := by
  cases Step.of_step hs with
  | panics => exact absurd rfl hp
  | crosstermEvent evt =>
    simp [cmdsQueued, turns, FrontendStep.cmds, Event.cmds, List.flatMap_map]
  | tick hm h | appCmd hm h | nodeState hm h =>
    simp [cmdsQueued, turns, FrontendStep.cmds, Event.cmds, MinderEvent.cmds, h, loop]
  | recvMany => simp [cmdsQueued, turns, FrontendStep.cmds, MinderEvent.cmds, loop]
  | _ => simp [cmdsQueued, turns, FrontendStep.cmds, Event.cmds]

/-! ## A run -/

theorem handler_step (s : Frontend) (e : FrontendStep) (s' : Frontend) (hs : step s e = some s')
    (hp : s'.handler ≠ .panicked) : s.handler ≠ .panicked := by
  cases Step.of_step hs with
  | panics => exact absurd rfl hp
  | closed hh => simp [hh]
  | _ => exact hp

theorem sound_run {ls : List FrontendStep} {s : Frontend} (h : run step new ls = some s) :
    Sound s :=
  run_invariant (C := fun _ => True) (fun t e t' _ ht hs => sound_step t e t' ht hs) sound_new
    (fun _ _ => trivial) h

theorem app_run {ls : List FrontendStep} {s : Frontend} (h : run step new ls = some s) :
    run PlantMinder.step .new (outputs step turns new ls) = some s.app :=
  run_project_outputs (P := Sound) (f := Frontend.app) (fun t e t' ht hs => turns_step ht hs)
    (everyStep_invariant (C := fun _ _ => True) (fun t e t' ht _ hs => sound_step t e t' ht hs)
      sound_new (everyStep_of_forall fun _ _ => trivial)) h

/-- In every run the app's part is a run of `PlantMinder`, and `main` never panics, nor the handler
while the main loop runs. Unless the handler panicked, the readings, the statuses and the commands
that were sent are each those that the app was given, in their order, and then those on the way. -/
theorem run_delivers (ls : List FrontendStep) (s : Frontend) (h : run step new ls = some s) :
    run PlantMinder.step .new (outputs step turns new ls) = some s.app
      ∧ s.main ≠ .panicked ∧ (s.receiving → s.handler = .selecting)
      ∧ (s.handler ≠ .panicked →
        ls.flatMap FrontendStep.readings
            = (outputs step turns new ls).flatMap MinderEvent.readings ++ s.readingsQueued
          ∧ ls.flatMap FrontendStep.statuses
            = (outputs step turns new ls).flatMap MinderEvent.statuses ++ s.statusesQueued
          ∧ ls.flatMap FrontendStep.cmds
            = (outputs step turns new ls).flatMap MinderEvent.cmds ++ s.cmdsQueued) := by
  have hsound := sound_run h
  refine ⟨app_run h, hsound.main, hsound.handler, fun hp => ?_⟩
  have hstate : EveryState step (fun s => s.handler ≠ .panicked) new ls :=
    everyState_of_last handler_step h hp
  simp only [outputs_flatMap, ← outputs_eq_flatMap h]
  refine ⟨?_, ?_, ?_⟩
  · exact outputs_conserved (q := readingsQueued) (fun t e t' _ ht' hs => readings_step ht' hs)
      hstate h
  · exact outputs_conserved (q := statusesQueued)
      (fun t e t' _ ht' hs => (statuses_step hs).resolve_left fun hpanic => ht' hpanic.1) hstate h
  · exact outputs_conserved (q := cmdsQueued) (fun t e t' _ ht' hs => cmds_step ht' hs)
      hstate h

def press (code : KeyCode) : FrontendStep := .crosstermEvent (.key ⟨code, 0, .press⟩)

/-- A plant is registered, and reports. -/
def shownRun : List FrontendStep :=
  [.nodeStatus (.registration ⟨.of 0x60 0x55 0xf9 0xf6 0 1, PlantMinder.ipOf 1, "mint"⟩),
    .sensorReading (PlantMinder.readingFrom 1), press .tab, .nodeDataStream, .nodeStateStream,
    .next, .next, .tickDelay, press .backTab, .next, .recvMany 1 [PlantMinder.ipOf 1],
    .sensorReading (PlantMinder.readingFrom 2), .next]

theorem delivers_shown : ∃ s, run step new shownRun = some s
    ∧ run PlantMinder.step .new (outputs step turns new shownRun) = some s.app
    ∧ s.main ≠ .panicked ∧ (s.receiving → s.handler = .selecting)
    ∧ shownRun.flatMap FrontendStep.readings
        = (outputs step turns new shownRun).flatMap MinderEvent.readings ++ s.readingsQueued
    ∧ shownRun.flatMap FrontendStep.statuses
        = (outputs step turns new shownRun).flatMap MinderEvent.statuses ++ s.statusesQueued
    ∧ shownRun.flatMap FrontendStep.cmds
        = (outputs step turns new shownRun).flatMap MinderEvent.cmds ++ s.cmdsQueued := by
  obtain ⟨s, hs, hp⟩ : ∃ s, run step new shownRun = some s ∧ s.handler ≠ .panicked :=
    ⟨_, rfl, by decide +kernel⟩
  obtain ⟨happ, hmain, hsel, hqueues⟩ := run_delivers shownRun s hs
  exact ⟨s, hs, happ, hmain, hsel, hqueues hp⟩

/-- The app is given no status that was not sent, whether or not the handler panicked. -/
theorem statuses_sublist {ls : List FrontendStep} {s : Frontend} (h : run step new ls = some s) :
    ((outputs step turns new ls).flatMap MinderEvent.statuses).Sublist
      (ls.flatMap FrontendStep.statuses) := by
  rw [outputs_flatMap, ← outputs_eq_flatMap h]
  refine (List.sublist_append_left _ s.statusesQueued).trans ?_
  refine outputs_sublist (q := statusesQueued) (fun t e t' hs => ?_) h
  rcases statuses_step hs with ⟨-, hsub⟩ | heq
  · exact hsub
  · rw [heq]

end Frontend

end Pmind
