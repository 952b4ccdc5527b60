import Pmind.Proofs.Parts
import Pmind.Proofs.Registering
import Pmind.Proofs.Reported

/-!
# From the sockets to the clients

What each part of the daemon does with what comes to it makes what the clients have of what the
receive tasks made of their datagrams. The readings are those that the receive tasks sent, none
twice and each node's in their order; the registrations are those that the poll loop emitted. All of
them are where the daemon has them: missed by a client that was not subscribed, handled by it, or
still on the way to it.
-/

namespace Pmind

open Transition HashMap Broadcast

namespace Frontend

variable {s s' : Frontend} {e : FrontendStep}

theorem selecting_step (hs : step s e = some s') (h : s'.handler = .selecting) :
    s.handler = .selecting := by
  cases Step.of_step hs with
  | closed hh => exact hh
  | panics => cases h
  | _ => exact h

theorem selecting_run {ls : List FrontendStep} (hs : run step s ls = some s')
    (h : s'.handler = .selecting) : s.handler = .selecting :=
  (everyState_of_last (fun _ _ _ ht hh => selecting_step ht hh) hs h).head

end Frontend

def SubscriptionEvent.readings : SubscriptionEvent → List NodeSensorReading
  | .reading r => [r]
  | _ => []

def DatabaseEvent.readings : DatabaseEvent → List NodeSensorReading
  | .createOrModify _ => []
  | .nodeSensorData reading _ => [reading]

namespace SubscriptionHandler

variable {s s' : SubscriptionHandler} {e : SubscriptionEvent}

/-- What the actor does. -/
def archived (s : SubscriptionHandler) : SubscriptionEvent → List DatabaseEvent
  | .handle row =>
    match s.mailbox with
    | .createOrModify msg :: _ => [.createOrModify msg]
    | .nodeSensorData put :: _ => [.nodeSensorData put.reading row]
    | [] => []
  | _ => []

theorem archive_step [Chrono] (h : step s e = some s') :
    run Archive.step s.archive (s.archived e) = some s'.archive := by
  cases Step.of_step h with
  | createOrModify hm ha | nodeSensorData hm ha => simp [archived, hm, run, ha]
  | _ => rfl

def readingsQueued (s : SubscriptionHandler) : List NodeSensorReading := s.queued.map Put.reading

theorem readings_step [Chrono] (h : step s e = some s') : s.readingsQueued ++ e.readings
    = (s.archived e).flatMap DatabaseEvent.readings ++ s'.readingsQueued := by
  have hputs : e.readings = (s.puts e).map Put.reading := by cases e <;> rfl
  have harchived : (s.archived e).flatMap DatabaseEvent.readings
      = ((s.handled e).map Prod.fst).map Put.reading := by
    cases Step.of_step h with
    | createOrModify hm | nodeSensorData hm =>
      simp [archived, handled, handling, hm, DatabaseEvent.readings]
    | _ => rfl
  rw [hputs, harchived, readingsQueued, ← List.map_append, queued_step h, List.map_append]
  rfl

end SubscriptionHandler

theorem Archive.tables_run [Chrono] {ls : List DatabaseEvent} {s : Archive}
    (h : run step init ls = some s) : Tables ls (ls.flatMap (accepted init)) s.db := by
  refine run_induct (Q := fun ls s => Tables ls (ls.flatMap (accepted init)) s.db)
    ⟨fun eui => rfl, rfl, rfl, rfl, nofun⟩ (fun ls t e t' _ hT hs => ?_) h
  have haccepted : accepted init e = accepted t e := rfl
  rw [List.flatMap_append, List.flatMap_singleton, haccepted]
  exact tables_step hT hs

namespace System

theorem entered_given (b : Broker) (l : BrokerStep) (hl : l.isGiven = true) : b.entered l = [] := by
  cases l <;> first | rfl | cases hl

theorem readingActs_given (b : Broker) (l : BrokerStep) (hl : l.isGiven = true) :
    b.readingActs l = [] := by
  cases l <;> first | rfl | cases hl

variable [Chrono] {coap : CoapLite} {json : SerdeJson} {s s' : System} {e : SystemEvent}

/-! ## Where the readings are -/

/-- What a receive task sends. -/
def heard (json : SerdeJson) (i : ℕ) (s : System) : SystemEvent → List NodeEvent
  | .socket j e => s.sessions.sentBy json i (.socket j e)
  | _ => []

/-- What the main loop has the app do. -/
def shown (s : System) : SystemEvent → List MinderEvent
  | .frontend e => s.frontend.turns e
  | _ => []

/-- What the database's actor does. -/
def archived (s : System) : SystemEvent → List DatabaseEvent
  | .database e => s.database.archived e
  | _ => []

theorem heard_step (h : step coap json s e = some s') (i : ℕ) :
    outputs Broker.step (Broker.placed i) s.sessions.broker (s.brokerSteps json e)
      = s.heard json i e := by
  have hsessions := sessions_step h
  have hplaced : outputs Broker.step (Broker.placed i) s.sessions.broker (s.brokerSteps json e)
      = outputs (Sessions.step json) (Sessions.sentBy json i) s.sessions (s.sessionEvents e) := by
    rw [← outputs_congr (fun _ _ _ ht => Sessions.placed_step ht i) hsessions]
    exact outputs_project (P := fun _ => True) (f := Sessions.broker)
      (fun _ _ _ _ ht => Sessions.brokerSteps_step ht) (everyState_of_forall fun _ => trivial)
      hsessions
  rw [hplaced]
  cases Step.of_step h with
  | @poll e =>
    refine outputs_eq_nil fun t l hl => ?_
    simp only [sessionEvents, handedOver] at hl
    split at hl
    · rw [List.mem_singleton.mp hl]
      rfl
    · rw [List.mem_singleton.mp hl]
      rfl
    · cases hl
  | socket hs => simp [sessionEvents, outputs, hs, heard]
  | broker _ hs | subscribe hm hs => simp_all [sessionEvents, outputs, heard, Sessions.sentBy]
  | frontend | database => rfl

theorem readings_toFrontend (h : step coap json s e = some s')
    (hh : s.frontend.handler = .selecting) :
    (s.frontendSteps json e).flatMap FrontendStep.readings = s.delivered json (readingsOn 0) e := by
  cases Step.of_step h with
  | broker _ hs =>
    simp [frontendSteps, delivered, hs, toFrontend, hh, List.flatMap_map, FrontendStep.readings]
  | @frontend e _ ho =>
    cases e <;> first | rfl | cases ho
  | _ => rfl

theorem readings_toDatabase (h : step coap json s e = some s') :
    (s.databaseEvents json e).flatMap SubscriptionEvent.readings
      = s.delivered json (readingsOn 1) e := by
  cases Step.of_step h with
  | broker _ hs =>
    simp [databaseEvents, delivered, hs, toDatabase, List.flatMap_map, SubscriptionEvent.readings]
  | @database e _ ho =>
    cases e <;> first | rfl | cases ho
  | _ => rfl

theorem turns_frontendSteps (h : step coap json s e = some s') :
    outputs Frontend.step Frontend.turns s.frontend (s.frontendSteps json e) = s.shown e := by
  cases Step.of_step h with
  | broker _ hs =>
    simp only [frontendSteps, delivered, hs, Option.elim_some, shown]
    refine outputs_eq_nil fun t l hl => ?_
    unfold toFrontend at hl
    split_ifs at hl
    · rcases List.mem_append.mp hl with hl | hl
      · obtain ⟨_, -, rfl⟩ := List.mem_map.mp hl
        rfl
      · obtain ⟨_, -, rfl⟩ := List.mem_map.mp hl
        rfl
    · cases hl
  | frontend _ hf => simp [frontendSteps, outputs, hf, shown]
  | _ => rfl

theorem archived_databaseEvents (h : step coap json s e = some s') :
    outputs SubscriptionHandler.step SubscriptionHandler.archived s.database
      (s.databaseEvents json e) = s.archived e := by
  cases Step.of_step h with
  | broker _ hs =>
    simp only [databaseEvents, delivered, hs, Option.elim_some, archived]
    refine outputs_eq_nil fun t l hl => ?_
    rcases List.mem_append.mp hl with hl | hl
    · obtain ⟨_, -, rfl⟩ := List.mem_map.mp hl
      rfl
    · obtain ⟨_, -, rfl⟩ := List.mem_map.mp hl
      rfl
  | database _ hd => simp [databaseEvents, outputs, hd, archived]
  | _ => rfl

theorem frontend_readings_step (h : step coap json s e = some s')
    (hh : s'.frontend.handler = .selecting) :
    s.frontend.readingsQueued ++ s.delivered json (readingsOn 0) e
      = (s.shown e).flatMap MinderEvent.readings ++ s'.frontend.readingsQueued := by
  have hrun := frontend_step h
  rw [← readings_toFrontend h (Frontend.selecting_run hrun hh), ← turns_frontendSteps h,
    outputs_flatMap, ← outputs_eq_flatMap hrun]
  exact outputs_conserved (q := Frontend.readingsQueued)
    (fun _ _ _ _ hp hs => Frontend.readings_step hp hs)
    (everyState_of_last Frontend.handler_step hrun (by simp [hh])) hrun

theorem database_readings_step (h : step coap json s e = some s') :
    s.database.readingsQueued ++ s.delivered json (readingsOn 1) e
      = (s.archived e).flatMap DatabaseEvent.readings ++ s'.database.readingsQueued := by
  have hrun := database_step h
  rw [← readings_toDatabase h, ← archived_databaseEvents h, outputs_flatMap,
    ← outputs_eq_flatMap hrun]
  exact outputs_conserved (q := SubscriptionHandler.readingsQueued) (P := fun _ => True)
    (fun _ _ _ _ _ hs => SubscriptionHandler.readings_step hs)
    (everyState_of_forall fun _ => trivial) hrun

theorem archive_step (h : step coap json s e = some s') :
    run Archive.step s.database.archive (s.archived e) = some s'.database.archive := by
  rw [← archived_databaseEvents h]
  exact run_project_outputs (P := fun _ => True) (f := SubscriptionHandler.archive)
    (fun _ _ _ _ ht => SubscriptionHandler.archive_step ht) (everyState_of_forall fun _ => trivial)
    (database_step h)

section Run

variable {c : OtClient} {ls : List SystemEvent}

theorem heard_run (h : run (step coap json) (init c) ls = some s) (i : ℕ) :
    outputs Broker.step (Broker.placed i) Broker.init
        (outputs (step coap json) (brokerSteps json) (init c) ls)
      = outputs (step coap json) (heard json i) (init c) ls := by
  rw [outputs_congr (fun _ _ _ ht => (heard_step ht i).symm) h]
  exact outputs_project (P := fun _ => True) (f := fun s : System => s.sessions.broker)
    (fun _ _ _ _ ht => broker_step ht) (everyState_of_forall fun _ => trivial) h

theorem selecting_run (h : run (step coap json) (init c) ls = some s)
    (hh : s.frontend.handler = .selecting) :
    EveryState (step coap json) (fun s => s.frontend.handler = .selecting) (init c) ls :=
  everyState_of_last (fun _ _ _ ht hh => Frontend.selecting_run (frontend_step ht) hh) h hh

/-- As long as the handler runs, what was sent on its channel is what the app has been given and
what is on its way. -/
theorem frontend_readings (h : run (step coap json) (init c) ls = some s)
    (hh : s.frontend.handler = .selecting) :
    (s.sessions.broker.readings 0).sent
      = (outputs (step coap json) shown (init c) ls).flatMap MinderEvent.readings
        ++ s.frontend.readingsQueued := by
  rw [← readings_sent h 0, outputs_flatMap]
  exact outputs_conserved (q := fun s : System => s.frontend.readingsQueued)
    (fun _ _ _ _ hh ht => frontend_readings_step ht hh) (selecting_run h hh) h

theorem database_readings (h : run (step coap json) (init c) ls = some s) :
    (s.sessions.broker.readings 1).sent
      = (outputs (step coap json) archived (init c) ls).flatMap DatabaseEvent.readings
        ++ s.database.readingsQueued := by
  rw [← readings_sent h 1, outputs_flatMap]
  exact outputs_conserved (q := fun s : System => s.database.readingsQueued) (P := fun _ => True)
    (fun _ _ _ _ _ ht => database_readings_step ht) (everyState_of_forall fun _ => trivial) h

theorem archive_run (h : run (step coap json) (init c) ls = some s) :
    run Archive.step Archive.init (outputs (step coap json) archived (init c) ls)
      = some s.database.archive :=
  run_project_outputs (P := fun _ => True) (f := fun s : System => s.database.archive)
    (fun _ _ _ _ ht => archive_step ht) (everyState_of_forall fun _ => trivial) h

/-- What the streams' tasks passed on is what a client missed, what was sent to it and what the
event loop has not come to. -/
theorem passed_eq (h : run (step coap json) (init c) ls = some s) (client : ClientId × Senders)
    (hmem : client ∈ clients) :
    (outputs (step coap json) (brokerOut Broker.entered) (init c) ls).map Prod.snd
      = missed client.1 (outputs (step coap json) (brokerOut Broker.readingActs) (init c) ls)
        ++ (s.sessions.broker.readings client.2.sensorReadings).sent
        ++ s.sessions.broker.dataQueue := by
  have hbroker := broker_run h
  rw [← outputs_brokerOut entered_given h, ← outputs_brokerOut readingActs_given h,
    Broker.run_dataQueue hbroker, (clients_run h).readings_eq hbroker hmem (channels_open h _).1]

/-- The database, which subscribes after the front end, misses what that does. -/
theorem missed_prefix (h : run (step coap json) (init c) ls = some s) :
    missed 0 (outputs (step coap json) (brokerOut Broker.readingActs) (init c) ls)
      <+: missed 1 (outputs (step coap json) (brokerOut Broker.readingActs) (init c) ls) := by
  have hfirst := passed_eq h (0, ⟨0, 0⟩) (by decide)
  have hsecond := passed_eq h (1, ⟨1, 1⟩) (by decide)
  have hclients : clients = [] ++ (0, ⟨0, 0⟩) :: ([] ++ (1, ⟨1, 1⟩) :: []) := rfl
  have hlater := (clients_run h).later_readings (broker_run h) hclients (channels_open h _).1
    (channels_open h _).1
  rw [List.append_assoc] at hfirst hsecond
  refine List.prefix_of_prefix_length_le ⟨_, hfirst.symm⟩ ⟨_, hsecond.symm⟩ ?_
  have hlen := congrArg List.length (hfirst.symm.trans hsecond)
  have hle := hlater.length_le
  simp only [List.length_append] at hlen hle ⊢
  omega

/-- A stream's task passes on what its receive task sent, in order. -/
theorem passed_heard (h : run (step coap json) (init c) ls = some s) (i : ℕ) :
    Broker.ofStream i (outputs (step coap json) (brokerOut Broker.entered) (init c) ls)
      <+: Broker.readingsBefore (outputs (step coap json) (heard json i) (init c) ls) := by
  have htracks := Broker.run_tracks (broker_run h) i
  rw [heard_run h, outputs_brokerOut entered_given h] at htracks
  rcases hi : s.sessions.broker.streams[i]? with _ | stream
  · rw [hi] at htracks
    rw [htracks.1, htracks.2]
    exact List.prefix_rfl
  · rw [hi] at htracks
    exact htracks.prefix.1

/-- What a client is sent some receive task sent. -/
theorem heard_of_sent (h : run (step coap json) (init c) ls = some s)
    {client : ClientId × Senders} (hmem : client ∈ clients) {r : NodeSensorReading}
    (hr : r ∈ (s.sessions.broker.readings client.2.sensorReadings).sent) :
    ∃ i, .sensorReading r ∈ outputs (step coap json) (heard json i) (init c) ls := by
  have hpassed : r ∈ (outputs (step coap json) (brokerOut Broker.entered) (init c) ls).map
      Prod.snd := by
    rw [passed_eq h client hmem]
    exact List.mem_append_left _ (List.mem_append_right _ hr)
  obtain ⟨⟨i, r⟩, hi, rfl⟩ := List.mem_map.mp hpassed
  have hstream : r ∈ Broker.ofStream i
      (outputs (step coap json) (brokerOut Broker.entered) (init c) ls) :=
    List.mem_map.mpr ⟨(i, r), List.mem_filter.mpr ⟨hi, by simp⟩, rfl⟩
  obtain ⟨m, hm, hmr⟩ := List.mem_filterMap.mp ((passed_heard h i).subset hstream)
  have hm' := (List.takeWhile_sublist _).subset hm
  refine ⟨i, ?_⟩
  rcases m with _ | _ | _ | r' <;> simp only [reduceCtorEq, Option.some.injEq] at hmr
  exact hmr ▸ hm'

end Run

end System

/-! ## Where the registrations are -/

def NodeStatus.registrations : NodeStatus → List Registration
  | .registration reg => [reg]
  | .termination _ _ => []

def BrokerEvent.registrations : BrokerEvent → List Registration
  | .nodeRegistration reg => [reg]
  | _ => []

def BrokerStep.registrations : BrokerStep → List Registration
  | .registration reg => [reg]
  | _ => []

def SubscriptionEvent.statuses : SubscriptionEvent → List NodeStatus
  | .status e => [e]
  | _ => []

def Registration.createOrModify (reg : Registration) : CreateOrModify := ⟨reg.eui, reg.ip, reg.name⟩

def DatabaseMsg.registrations : DatabaseMsg → List CreateOrModify
  | .createOrModify msg => [msg]
  | .nodeSensorData _ => []

namespace Broker

variable {s s' : Broker} {e : BrokerStep}

/-- The registrations on the way to the event loop. -/
def registrationsQueued (s : Broker) : List Registration :=
  s.receiver.flatMap BrokerEvent.registrations ++ s.nodeRegStream

theorem registrations_step (h : step s e = some s') :
    s.registrationsQueued ++ e.registrations
      = (published (s.statusActs e)).flatMap NodeStatus.registrations
        ++ s'.registrationsQueued := by
  cases step_some h with
  | forward he =>
    rcases he with rfl | rfl
    · obtain ⟨nodeEvt, rest, hs⟩ := forwardStream_some h
      rw [hs]
      simp [registrationsQueued, BrokerStep.registrations, statusActs, published,
        BrokerEvent.registrations]
    · obtain ⟨reg, rest, hregs, hs⟩ := forwardRegistration_some h
      rw [hs]
      simp [hregs, registrationsQueued, BrokerStep.registrations, statusActs, published,
        BrokerEvent.registrations]
  | @incoming _ event _ hq =>
    rcases event <;> simp [registrationsQueued, BrokerStep.registrations, statusActs, published, hq,
      handleIncoming, BrokerEvent.status, BrokerEvent.registrations, NodeStatus.registrations]
  | @subscription msg _ hq =>
    rcases msg <;> simp [registrationsQueued, BrokerStep.registrations, statusActs, published, hq,
      handleRequest, ClientApi.act]
  | @process _ _ msg =>
    rcases msg <;> simp [registrationsQueued, BrokerStep.registrations, statusActs, published,
      handleStream, BrokerEvent.registrations]
  | _ => simp [registrationsQueued, BrokerStep.registrations, statusActs, published]

theorem run_registrations {ls : List BrokerStep} (h : run step init ls = some s) :
    ls.flatMap BrokerStep.registrations
      = (published (outputs step statusActs init ls)).flatMap NodeStatus.registrations
        ++ s.registrationsQueued := by
  have hpublished : (published (outputs step statusActs init ls)).flatMap NodeStatus.registrations
      = outputs step (fun s e => (published (s.statusActs e)).flatMap NodeStatus.registrations)
        init ls := by
    rw [← outputs_flatMap]
    exact congrArg _ (outputs_filterMap _ init ls)
  rw [hpublished, ← outputs_eq_flatMap h]
  exact outputs_conserved (q := registrationsQueued) (P := fun _ => True)
    (fun _ _ _ _ _ ht => registrations_step ht) (everyState_of_forall fun _ => trivial) h

end Broker

def SessionEvent.registrations : SessionEvent → List Registration
  | .registration reg => [reg]
  | _ => []

theorem Sessions.registrations_brokerSteps {json : SerdeJson} {s s' : Sessions} {e : SessionEvent}
    (h : step json s e = some s') :
    (s.brokerSteps json e).flatMap BrokerStep.registrations = e.registrations := by
  rcases e with addr | reg | ⟨i, e⟩ | b
  · rfl
  · rfl
  · simp only [step] at h
    split at h
    · rename_i task stream hh hi
      obtain ⟨-, h⟩ := Option.ite_none_right_eq_some.mp h
      obtain ⟨task', ht, -⟩ := Option.bind_eq_some_iff.mp h
      simp only [brokerSteps, hh, ht, Option.elim_some, placing, List.flatMap_append,
        List.flatMap_map, SessionEvent.registrations]
      split_ifs <;> simp [BrokerStep.registrations]
    · cases h
  · obtain ⟨hown, -⟩ := broker_some h
    cases b <;> first | rfl | cases hown

namespace SubscriptionHandler

variable {s s' : SubscriptionHandler} {e : SubscriptionEvent}

/-- The registrations on the way to the actor. -/
def registrationsQueued (s : SubscriptionHandler) : List CreateOrModify :=
  s.mailbox.flatMap DatabaseMsg.registrations
    ++ (s.statusRcvr.flatMap NodeStatus.registrations).map Registration.createOrModify

theorem registrations_step [Chrono] (h : step s e = some s') : s.registrationsQueued
      ++ (e.statuses.flatMap NodeStatus.registrations).map Registration.createOrModify
    = Archive.registrations (s.archived e) ++ s'.registrationsQueued := by
  cases Step.of_step h with
  | @registryTask status rest hr =>
    cases status <;> simp [registrationsQueued, SubscriptionEvent.statuses, archived,
      Archive.registrations, hr, forwardStatus, NodeStatus.registrations, DatabaseMsg.registrations,
      Registration.createOrModify]
  | sensorStreamTask hr =>
    simp [registrationsQueued, SubscriptionEvent.statuses, archived, Archive.registrations,
      DatabaseMsg.registrations]
  | createOrModify hm | nodeSensorData hm =>
    simp [registrationsQueued, SubscriptionEvent.statuses, archived, Archive.registrations, hm,
      DatabaseMsg.registrations]
  | status | reading =>
    simp [registrationsQueued, SubscriptionEvent.statuses, archived, Archive.registrations]

end SubscriptionHandler

namespace System

theorem registrations_handedOver (poll : Poll) (e : PollEvent) :
    (handedOver poll e).flatMap SessionEvent.registrations
      = (poll.emitted e).map fun em => ⟨em.eui, em.ip, em.name⟩ := by
  obtain ⟨monitor, pc⟩ := poll
  cases pc <;> cases e <;> rfl

theorem statusActs_given (b : Broker) (l : BrokerStep) (hl : l.isGiven = true) :
    b.statusActs l = [] := by
  cases l <;> first | rfl | cases hl

section Daemon

variable [Chrono] {coap : CoapLite} {json : SerdeJson} {s s' : System} {e : SystemEvent}

/-- The registrations that the poll loop emits. -/
def emitted (s : System) : SystemEvent → List Registration
  | .poll e => (s.poll.emitted e).map fun em => ⟨em.eui, em.ip, em.name⟩
  | _ => []

theorem statuses_toFrontend (h : step coap json s e = some s')
    (hh : s.frontend.handler = .selecting) :
    (s.frontendSteps json e).flatMap FrontendStep.statuses = s.delivered json (statusesOn 0) e := by
  cases Step.of_step h with
  | broker _ hs =>
    simp [frontendSteps, delivered, hs, toFrontend, hh, List.flatMap_map, FrontendStep.statuses]
  | @frontend e _ ho =>
    cases e <;> first | rfl | cases ho
  | _ => rfl

theorem statuses_toDatabase (h : step coap json s e = some s') :
    (s.databaseEvents json e).flatMap SubscriptionEvent.statuses
      = s.delivered json (statusesOn 1) e := by
  cases Step.of_step h with
  | broker _ hs =>
    simp [databaseEvents, delivered, hs, toDatabase, List.flatMap_map, SubscriptionEvent.statuses]
  | @database e _ ho =>
    cases e <;> first | rfl | cases ho
  | _ => rfl

theorem frontend_statuses_step (h : step coap json s e = some s')
    (hh : s'.frontend.handler = .selecting) :
    s.frontend.statusesQueued ++ s.delivered json (statusesOn 0) e
      = (s.shown e).flatMap MinderEvent.statuses ++ s'.frontend.statusesQueued := by
  have hrun := frontend_step h
  rw [← statuses_toFrontend h (Frontend.selecting_run hrun hh), ← turns_frontendSteps h,
    outputs_flatMap, ← outputs_eq_flatMap hrun]
  exact outputs_conserved (q := Frontend.statusesQueued)
    (fun _ _ _ _ hp hs => (Frontend.statuses_step hs).resolve_left fun hpanic => hp hpanic.1)
    (everyState_of_last Frontend.handler_step hrun (by simp [hh])) hrun

theorem database_registrations_step (h : step coap json s e = some s') :
    s.database.registrationsQueued
        ++ ((s.delivered json (statusesOn 1) e).flatMap NodeStatus.registrations).map
          Registration.createOrModify
      = Archive.registrations (s.archived e) ++ s'.database.registrationsQueued := by
  have hrun := database_step h
  have harchived : Archive.registrations (s.archived e)
      = outputs SubscriptionHandler.step (fun s e => Archive.registrations (s.archived e))
        s.database (s.databaseEvents json e) := by
    rw [← archived_databaseEvents h]
    exact outputs_filterMap _ _ _
  rw [← statuses_toDatabase h, harchived, ← outputs_eq_flatMap hrun, outputs_flatMap, ← outputs_map]
  exact outputs_conserved (q := SubscriptionHandler.registrationsQueued) (P := fun _ => True)
    (fun _ _ _ _ _ hs => SubscriptionHandler.registrations_step hs)
    (everyState_of_forall fun _ => trivial) hrun

theorem registrations_sessionEvents (h : step coap json s e = some s') :
    (s.sessionEvents e).flatMap SessionEvent.registrations = s.emitted e := by
  cases Step.of_step h with
  | poll => exact registrations_handedOver _ _
  | subscribe hm => simp [sessionEvents, hm, SessionEvent.registrations, emitted]
  | _ => rfl

theorem registrations_brokerSteps (h : step coap json s e = some s') :
    (s.brokerSteps json e).flatMap BrokerStep.registrations = s.emitted e := by
  have hsessions := sessions_step h
  rw [brokerSteps, outputs_flatMap,
    outputs_congr (fun _ _ _ ht => Sessions.registrations_brokerSteps ht) hsessions,
    outputs_eq_flatMap hsessions]
  exact registrations_sessionEvents h

section Run

variable {c : OtClient} {ls : List SystemEvent}

/-- What the poll loop emitted is what a client missed, what was sent to it and what the event loop
has not come to. -/
theorem emitted_eq (h : run (step coap json) (init c) ls = some s) (client : ClientId × Senders)
    (hmem : client ∈ clients) :
    outputs (step coap json) emitted (init c) ls
      = (missed client.1 (outputs (step coap json) (brokerOut Broker.statusActs) (init c)
          ls)).flatMap NodeStatus.registrations
        ++ (s.sessions.broker.statuses client.2.nodeStatus).sent.flatMap NodeStatus.registrations
        ++ s.sessions.broker.registrationsQueued := by
  have hbroker := broker_run h
  rw [← List.flatMap_append, ← outputs_brokerOut statusActs_given h,
    ← (clients_run h).statuses_eq hbroker hmem (channels_open h _).2,
    ← Broker.run_registrations hbroker, outputs_flatMap]
  exact (outputs_congr (fun _ _ _ ht => registrations_brokerSteps ht) h).symm

theorem frontend_statuses (h : run (step coap json) (init c) ls = some s)
    (hh : s.frontend.handler = .selecting) :
    (s.sessions.broker.statuses 0).sent
      = (outputs (step coap json) shown (init c) ls).flatMap MinderEvent.statuses
        ++ s.frontend.statusesQueued := by
  rw [← statuses_sent h 0, outputs_flatMap]
  exact outputs_conserved (q := fun s : System => s.frontend.statusesQueued)
    (fun _ _ _ _ hh ht => frontend_statuses_step ht hh) (selecting_run h hh) h

theorem database_registrations (h : run (step coap json) (init c) ls = some s) :
    ((s.sessions.broker.statuses 1).sent.flatMap NodeStatus.registrations).map
        Registration.createOrModify
      = Archive.registrations (outputs (step coap json) archived (init c) ls)
        ++ s.database.registrationsQueued := by
  have harchived : Archive.registrations (outputs (step coap json) archived (init c) ls)
      = outputs (step coap json) (fun s e => Archive.registrations (s.archived e)) (init c) ls :=
    outputs_filterMap _ _ _
  rw [← statuses_sent h 1, harchived, outputs_flatMap, ← outputs_map]
  exact outputs_conserved (q := fun s : System => s.database.registrationsQueued)
    (P := fun _ => True) (fun _ _ _ _ _ ht => database_registrations_step ht)
    (everyState_of_forall fun _ => trivial) h

end Run

end Daemon

/-- Both clients subscribe, and a node is registered. -/
def registeredRun : List SystemEvent :=
  [.subscribe, .broker .subscription, .subscribe, .broker .subscription] ++
    (Poll.roundOf [(0x4401, Poll.ipOf 1)] [(1213, Poll.reply 1213 1)]).map .poll

def toBoth : List (ClientId × Senders) := [(0, ⟨0, 0⟩), (1, ⟨1, 1⟩)]

/-- The node reports, and its reading is shown and stored. -/
def reportedRun : List SystemEvent :=
  registeredRun ++ [.broker .forwardStream, .broker (.incoming toBoth), .socket 0 (.bind true),
    .socket 0 (.received ⟨⟨Poll.ipOf 1, 1213⟩, Sessions.report⟩ 7), .broker .forwardRegistration,
    .broker (.incoming toBoth), .broker (.process 0), .broker (.data toBoth),
    .frontend .nodeStateStream, .frontend .next, .frontend .nodeDataStream, .frontend .tickDelay,
    .frontend .next, .frontend (.recvMany 1 [Poll.ipOf 1]), .database .registryTask,
    .database (.handle none), .database .sensorStreamTask,
    .database (.handle (some (CreateOrModify.newPlant
      ⟨.of 0x60 0x55 0xf9 0xf6 0 1, Poll.ipOf 1, "mint"⟩)))]

open Chrono

end System

end Pmind
