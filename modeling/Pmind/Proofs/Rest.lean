import Pmind.Proofs.System

/-!
# When the daemon is at rest

What comes to the broker makes its tasks and the database's work for a while: each step they take
leaves less to do, so when nothing else comes they come to rest, whatever order they run in. At
rest nothing is on the way any more: the streams' tasks have passed on every reading that the
receive tasks sent, and the database has handled every reading and every registration that it did
not miss.
-/

namespace Pmind

open Transition HashMap Broadcast

/-! ## What is left to do -/

/-- The steps an event on a stream makes the tasks take, its own and those that follow. -/
def NodeEvent.work : NodeEvent → ℕ
  | .sensorReading _ => 4
  | .nodeTimeout _ | .socketError _ => 3
  | .setupError => 1

def Stream.work (stream : Stream) : ℕ :=
  cost NodeEvent.work stream.queue + if stream.closed then 0 else 1

def BrokerEvent.work : BrokerEvent → ℕ
  | .nodeRegistration _ => 3
  | .nodeTermination _ _ => 2
  | .sensorReportHandleCreate _ => 1

def NodeStatus.work : NodeStatus → ℕ
  | .registration _ => 2
  | .termination _ _ => 1

def Broker.work (s : Broker) : ℕ :=
  2 * s.nodeEventStream.length + 4 * s.nodeRegStream.length + cost BrokerEvent.work s.receiver
    + 3 * s.dataQueue.length + s.subscriptionReceiver.length + cost Stream.work s.streams

def SubscriptionEvent.work : SubscriptionEvent → ℕ
  | .status e => e.work
  | .reading _ => 2
  | _ => 0

def SubscriptionHandler.work (s : SubscriptionHandler) : ℕ :=
  cost NodeStatus.work s.statusRcvr + 2 * s.receiver.length + s.mailbox.length

namespace Broker

variable {s s' : Broker} {e : BrokerStep}

theorem grown_self {α : Type} (channel : Channel α) : System.grown channel channel = [] :=
  List.drop_length

theorem grown_fanOut {α : Type} {sender : Senders → ℕ} {iter : List (ClientId × Senders)} {m : α}
    {channels : ℕ → Channel α} {ch : ℕ} (h : (channels ch).closed = false) :
    System.grown (channels ch) (fanOut sender iter m channels ch)
      = List.replicate ((iter.map fun e => sender e.2).count ch) m := by
  rw [System.grown, fanOut_sent h, List.drop_left]

/-- The database's channels are open, and it is subscribed with them once at most. -/
structure Serves (s : Broker) : Prop where
  readings : (s.readings 1).closed = false
  statuses : (s.statuses 1).closed = false
  sensorReadings : count Senders.sensorReadings s.subscribers 1 ≤ 1
  nodeStatus : count Senders.nodeStatus s.subscribers 1 ≤ 1

theorem length_readings_fanOut (h : s.Serves) {iter : List (ClientId × Senders)}
    (hiter : s.subscribers.Iter iter) (data : NodeSensorReading) :
    (System.grown (s.readings 1)
      (fanOut Senders.sensorReadings iter data s.readings 1)).length ≤ 1 := by
  rw [grown_fanOut h.readings, List.length_replicate, hiter.count_eq]
  exact h.sensorReadings

theorem cost_statuses_fanOut (h : s.Serves) {iter : List (ClientId × Senders)}
    (hiter : s.subscribers.Iter iter) (status : NodeStatus) :
    cost NodeStatus.work (System.grown (s.statuses 1)
      (fanOut Senders.nodeStatus iter status s.statuses 1)) ≤ status.work := by
  rw [grown_fanOut h.statuses, hiter.count_eq]
  rcases Nat.le_one_iff_eq_zero_or_eq_one.mp h.nodeStatus with hcount | hcount
  · rw [hcount]
    exact Nat.zero_le _
  · rw [hcount]
    exact le_rfl

theorem work_process {i : ℕ} {stream : Stream} {msg : NodeEvent} {rest : List NodeEvent}
    (hi : s.streams[i]? = some stream) (hc : stream.closed = false)
    (hq : stream.queue = msg :: rest) :
    (s.handleStream i stream rest msg).work + 1 ≤ s.work := by
  have hold : stream.work = msg.work + cost NodeEvent.work rest + 1 := by
    simp [Stream.work, hq, cost, hc]
  have hrest : Stream.work { stream with queue := rest } = cost NodeEvent.work rest + 1 := by
    simp [Stream.work, hc]
  have hset := cost_set Stream.work hi { stream with queue := rest }
  rw [hold, hrest] at hset
  rcases msg with addr | addr | _ | node
  · simp only [work, handleStream, cost_append, cost, BrokerEvent.work, NodeEvent.work] at hset ⊢
    omega
  · simp only [work, handleStream, cost_append, cost, BrokerEvent.work, NodeEvent.work] at hset ⊢
    omega
  · have hclosed := cost_set Stream.work hi { stream with queue := [], closed := true }
    have hnone : Stream.work { stream with queue := [], closed := true } = 0 := rfl
    rw [hold, hnone] at hclosed
    simp only [work, handleStream, NodeEvent.work] at hclosed ⊢
    omega
  · simp only [work, handleStream, List.length_append, List.length_singleton, NodeEvent.work]
      at hset ⊢
    omega

theorem work_incoming {iter : List (ClientId × Senders)} {event : BrokerEvent}
    {rest : List BrokerEvent} (h : s.Serves) (hq : s.receiver = event :: rest)
    (hiter : s.subscribers.Iter iter) (hs : ({ s with receiver := rest } : Broker).handleIncoming
      iter event = s') :
    s'.work + cost NodeStatus.work (System.statusesOn 1 s s')
      + 2 * (System.readingsOn 1 s s').length + 1 ≤ s.work := by
  subst hs
  rcases event with reg | ⟨addr, state⟩ | rcv
  · have hsent := cost_statuses_fanOut h hiter (.registration reg)
    simp only [work, hq, cost, handleIncoming, System.statusesOn, System.readingsOn, grown_self,
      List.length_nil, BrokerEvent.work, NodeStatus.work] at hsent ⊢
    omega
  · have hsent := cost_statuses_fanOut h hiter (.termination addr state)
    simp only [work, hq, cost, handleIncoming, System.statusesOn, System.readingsOn, grown_self,
      List.length_nil, BrokerEvent.work, NodeStatus.work] at hsent ⊢
    omega
  · have hspawned : cost Stream.work
        (s.streams.modify rcv fun stream => { stream with spawned := true })
          = cost Stream.work s.streams := by
      refine cost_modify (fun stream => ?_) _ _
      rfl
    simp only [work, hq, cost, handleIncoming, hspawned, System.statusesOn, System.readingsOn,
      grown_self, List.length_nil, BrokerEvent.work]
    omega

theorem forwardStream_eq (h : step s .forwardStream = some s') :
    ∃ i rest, s.nodeEventStream = i :: rest ∧ s' = { s with
      nodeEventStream := rest
      receiver := s.receiver ++ [.sensorReportHandleCreate i] } := by
  simp only [step] at h
  split at h
  · rename_i i rest hq
    cases h
    exact ⟨i, rest, hq, rfl⟩
  · cases h

theorem closed_of_process {i : ℕ} {stream : Stream} (hi : s.streams[i]? = some stream)
    (h : step s (.process i) = some s') : stream.closed = false := by
  simp only [step, hi, process] at h
  exact Bool.eq_false_of_not_eq_true (Option.ite_none_right_eq_some.mp h).1.2

/-- A step of the broker's tasks leaves less to do, with what it gives the database. -/
theorem work_task (h : step s e = some s') (he : e.isTask = true) (hserves : s.Serves) :
    s'.work + cost NodeStatus.work (System.statusesOn 1 s s')
      + 2 * (System.readingsOn 1 s s').length + 1 ≤ s.work := by
  cases step_some h with
  | forward hforward =>
    rcases hforward with rfl | rfl
    · obtain ⟨i, rest, hq, hs⟩ := forwardStream_eq h
      rw [hs]
      simp only [work, hq, cost_append, cost, BrokerEvent.work, List.length_cons,
        System.statusesOn, System.readingsOn, grown_self, List.length_nil]
      omega
    · obtain ⟨reg, rest, hq, hs⟩ := forwardRegistration_some h
      rw [hs]
      simp only [work, hq, cost_append, cost, BrokerEvent.work, List.length_cons,
        System.statusesOn, System.readingsOn, grown_self, List.length_nil]
      omega
  | incoming hq hiter => exact work_incoming hserves hq hiter rfl
  | @data iter data rest hq hiter =>
    have hsent := length_readings_fanOut hserves hiter data
    simp only [work, hq, List.length_cons, System.statusesOn, System.readingsOn, grown_self, cost]
    omega
  | @subscription msg rest hq =>
    rcases msg <;>
      simp only [work, hq, handleRequest, List.length_cons, System.statusesOn, System.readingsOn,
        grown_self, cost, List.length_nil] <;>
      omega
  | @process i stream msg rest hi hc hq =>
    have hwork := work_process hi hc hq
    rcases msg <;>
      simp only [handleStream, System.statusesOn, System.readingsOn, grown_self, cost,
        List.length_nil] at hwork ⊢ <;>
      omega
  | @streamEnds i stream hi hq hended =>
    have hset := cost_set Stream.work hi { stream with closed := true }
    have hold : stream.work = 1 := by simp [Stream.work, hq, cost, closed_of_process hi h]
    have hclosed : Stream.work { stream with closed := true } = 0 := by
      simp [Stream.work, hq, cost]
    rw [hold, hclosed] at hset
    simp only [work, System.statusesOn, System.readingsOn, grown_self, cost, List.length_nil]
    omega
  | _ => cases he

/-! ## What is left where nothing can be done -/

/-- The event loop is still to give the stream its task. -/
def Due (s : Broker) (i : ℕ) : Prop :=
  i ∈ s.nodeEventStream ∨ .sensorReportHandleCreate i ∈ s.receiver

def Spawns (s : Broker) : Prop :=
  ∀ (i : ℕ) (stream : Stream), s.streams[i]? = some stream → stream.spawned = true ∨ s.Due i

theorem Spawns.of_streams (hs : s.Spawns) (hdue : ∀ i, s.Due i → s'.Due i)
    (hstreams : ∀ (i : ℕ) (stream' : Stream), s'.streams[i]? = some stream' →
      ∃ stream : Stream, s.streams[i]? = some stream ∧ stream'.spawned = stream.spawned) :
    s'.Spawns := by
  intro i stream' hi
  obtain ⟨stream, hi, hspawned⟩ := hstreams i stream' hi
  rw [hspawned]
  exact (hs i stream hi).imp_right (hdue i)

theorem Spawns.of_set (hs : s.Spawns) (hdue : ∀ i, s.Due i → s'.Due i) {j : ℕ}
    {old new : Stream} (hj : s.streams[j]? = some old) (hset : s'.streams = s.streams.set j new)
    (hnew : new.spawned = old.spawned) : s'.Spawns := by
  refine hs.of_streams hdue fun i stream' hi => ?_
  rw [hset, List.getElem?_set] at hi
  split_ifs at hi with hij
  · cases hi
    exact ⟨old, hij ▸ hj, hnew⟩
  · exact ⟨stream', hi, rfl⟩

theorem Spawns.of_same (hs : s.Spawns) (hdue : ∀ i, s.Due i → s'.Due i)
    (hsame : s'.streams = s.streams) : s'.Spawns :=
  hs.of_streams hdue fun _ stream hi => ⟨stream, hsame ▸ hi, rfl⟩

theorem spawns_stream (hs : s.Spawns) : Spawns { s with
    nodeEventStream := s.nodeEventStream ++ [s.streams.length]
    streams := s.streams ++ [⟨[], false, false, false⟩] } := by
  intro i stream hi
  rw [List.getElem?_append] at hi
  split_ifs at hi with hlt
  · exact (hs i stream hi).imp_right fun hdue => hdue.imp (List.mem_append_left _) id
  · obtain rfl : i = s.streams.length := by
      obtain ⟨hzero, -⟩ := List.getElem?_eq_some_iff.mp hi
      simp only [List.length_singleton] at hzero
      omega
    exact Or.inr (Or.inl (by simp))

theorem spawns_forwardStream (h : step s .forwardStream = some s') (hs : s.Spawns) :
    s'.Spawns := by
  obtain ⟨j, rest, hq, rfl⟩ := forwardStream_eq h
  refine hs.of_same (fun i hdue => ?_) rfl
  rcases hdue with hi | hi
  · rw [hq] at hi
    rcases List.mem_cons.mp hi with rfl | hi
    · exact Or.inr (List.mem_append_right _ (List.mem_singleton_self _))
    · exact Or.inl hi
  · exact Or.inr (List.mem_append_left _ hi)

/-- The event loop gives a stream its task as it takes the stream's event. -/
theorem spawns_incoming {iter : List (ClientId × Senders)} {event : BrokerEvent}
    {rest : List BrokerEvent} (hq : s.receiver = event :: rest) (hs : s.Spawns) :
    (({ s with receiver := rest } : Broker).handleIncoming iter event).Spawns := by
  have hrest : ∀ i, .sensorReportHandleCreate i ∈ s.receiver →
      event = .sensorReportHandleCreate i ∨ .sensorReportHandleCreate i ∈ rest := by
    intro i hi
    rw [hq] at hi
    exact (List.mem_cons.mp hi).imp Eq.symm id
  rcases event with reg | ⟨addr, state⟩ | rcv
  · exact hs.of_same (fun i => Or.imp id fun hi => (hrest i hi).resolve_left (by simp)) rfl
  · exact hs.of_same (fun i => Or.imp id fun hi => (hrest i hi).resolve_left (by simp)) rfl
  · intro i stream' hi
    simp only [handleIncoming, List.getElem?_modify] at hi
    obtain ⟨stream, hold, rfl⟩ := Option.map_eq_some_iff.mp hi
    by_cases hrcv : rcv = i
    · rw [if_pos hrcv]
      exact Or.inl rfl
    · rw [if_neg hrcv]
      refine (hs i stream hold).imp_right (Or.imp id fun hmem => (hrest i hmem).resolve_left ?_)
      simpa using hrcv

theorem spawns_step (h : step s e = some s') (hs : s.Spawns) : s'.Spawns := by
  cases step_some h with
  | stream => exact spawns_stream hs
  | place hi => exact hs.of_set (fun _ => id) hi rfl rfl
  | nodeEnds =>
    refine hs.of_streams (fun _ => id) fun i stream' hi => ?_
    rw [List.getElem?_modify] at hi
    obtain ⟨stream, hold, rfl⟩ := Option.map_eq_some_iff.mp hi
    refine ⟨stream, hold, ?_⟩
    split_ifs <;> rfl
  | forward he =>
    rcases he with rfl | rfl
    · exact spawns_forwardStream h hs
    · obtain ⟨reg, rest, -, hs'⟩ := forwardRegistration_some h
      rw [hs']
      exact hs.of_same (fun i hdue => hdue.imp id (List.mem_append_left _)) rfl
  | incoming hq => exact spawns_incoming hq hs
  | @subscription msg => rcases msg <;> exact hs.of_same (fun _ => id) rfl
  | @process j stream msg rest hi =>
    rcases msg with addr | addr | _ | node
    · exact hs.of_set (fun i => Or.imp id (List.mem_append_left _)) hi rfl rfl
    · exact hs.of_set (fun i => Or.imp id (List.mem_append_left _)) hi rfl rfl
    · exact hs.of_set (fun _ => id) hi rfl rfl
    · exact hs.of_set (fun _ => id) hi rfl rfl
  | streamEnds hi => exact hs.of_set (fun _ => id) hi rfl rfl
  | _ => exact hs.of_same (fun _ => id) rfl

/-- Nothing is on the way through the broker. -/
structure Drained (s : Broker) : Prop where
  nodeEventStream : s.nodeEventStream = []
  nodeRegStream : s.nodeRegStream = []
  receiver : s.receiver = []
  dataQueue : s.dataQueue = []
  streams : ∀ (i : ℕ) (stream : Stream), s.streams[i]? = some stream →
    stream.closed = true ∨ stream.queue = []

theorem drained_of_rest (hs : s.Spawns)
    (hrest : ∀ e : BrokerStep, e.isTask = true → step s e = none) : s.Drained := by
  have hevents : s.nodeEventStream = [] := by
    rcases hq : s.nodeEventStream with _ | ⟨i, rest⟩
    · rfl
    · have hstep := hrest .forwardStream rfl
      simp [step, hq] at hstep
  have hregs : s.nodeRegStream = [] := by
    rcases hq : s.nodeRegStream with _ | ⟨reg, rest⟩
    · rfl
    · have hstep := hrest .forwardRegistration rfl
      simp [step, hq] at hstep
  obtain ⟨iter, hiter⟩ := exists_iter s.subscribers
  have hreceiver : s.receiver = [] := by
    rcases hq : s.receiver with _ | ⟨event, rest⟩
    · rfl
    · have hstep := hrest (.incoming iter) rfl
      simp [step, hq, hiter] at hstep
  have hdata : s.dataQueue = [] := by
    rcases hq : s.dataQueue with _ | ⟨data, rest⟩
    · rfl
    · have hstep := hrest (.data iter) rfl
      simp [step, hq, hiter] at hstep
  refine ⟨hevents, hregs, hreceiver, hdata, fun i stream hi => ?_⟩
  have hspawned : stream.spawned = true := by
    simpa [Due, hevents, hreceiver] using hs i stream hi
  by_cases hclosed : stream.closed = true
  · exact Or.inl hclosed
  · rcases hq : stream.queue with _ | ⟨msg, rest⟩
    · exact Or.inr rfl
    · have hstep := hrest (.process i) rfl
      simp [step, process, hi, hspawned, hclosed, hq] at hstep

end Broker

namespace SubscriptionHandler

variable {s s' : SubscriptionHandler} {e : SubscriptionEvent}

theorem work_own [Chrono] (h : step s e = some s') (he : e.isOwn = true) :
    s'.work + 1 ≤ s.work := by
  cases Step.of_step h with
  | @registryTask status rest hq =>
    rcases status <;>
      simp only [work, hq, cost, forwardStatus, NodeStatus.work, List.length_append,
        List.length_cons, List.length_nil] <;>
      omega
  | sensorStreamTask hq =>
    simp only [work, hq, List.length_append, List.length_cons, List.length_nil]
    omega
  | createOrModify hq | nodeSensorData hq =>
    simp only [work, hq, List.length_cons]
    omega
  | _ => cases he

/-- What the broker sends the database it takes, and has as much more to do. -/
theorem run_toDatabase [Chrono] (b b' : Broker) (s : SubscriptionHandler) :
    ∃ s', run step s (System.toDatabase b b') = some s' ∧ s'.work = s.work
      + (cost NodeStatus.work (System.statusesOn 1 b b')
        + 2 * (System.readingsOn 1 b b').length) := by
  have hcost : cost SubscriptionEvent.work (System.toDatabase b b')
      = cost NodeStatus.work (System.statusesOn 1 b b')
        + 2 * (System.readingsOn 1 b b').length := by
    rw [System.toDatabase, cost_append, cost_map, cost_map]
    exact congrArg _ (cost_const 2 _)
  rw [← hcost]
  refine exists_run (J := fun _ => True) (fun t _ e he => ?_) trivial
  rcases List.mem_append.mp he with he | he
  · obtain ⟨status, -, rfl⟩ := List.mem_map.mp he
    refine ⟨_, rfl, trivial, ?_⟩
    simp only [work, cost_append, cost, SubscriptionEvent.work]
    omega
  · obtain ⟨reading, -, rfl⟩ := List.mem_map.mp he
    refine ⟨_, rfl, trivial, ?_⟩
    simp only [work, List.length_append, List.length_singleton, SubscriptionEvent.work]
    omega

end SubscriptionHandler

/-- What the broker sends the front end is never refused. -/
theorem Frontend.run_toFrontend (b b' : Broker) (s : Frontend) :
    ∃ s', run Frontend.step s (System.toFrontend s b b') = some s' := by
  unfold System.toFrontend
  split_ifs with hs
  · have hstep : ∀ t : Frontend, t.handler = .selecting →
        ∀ e ∈ (System.statusesOn 0 b b').map FrontendStep.nodeStatus
            ++ (System.readingsOn 0 b b').map FrontendStep.sensorReading,
          ∃ t', Frontend.step t e = some t' ∧ t'.handler = .selecting ∧ 0 = 0 + 0 := by
      intro t ht e he
      rcases List.mem_append.mp he with he | he
      · obtain ⟨status, -, rfl⟩ := List.mem_map.mp he
        exact ⟨_, if_pos ht, ht, rfl⟩
      · obtain ⟨reading, -, rfl⟩ := List.mem_map.mp he
        exact ⟨_, if_pos ht, ht, rfl⟩
    obtain ⟨s', hs', -⟩ := exists_run (f := fun _ => 0) (c := fun _ => 0) hstep hs
    exact ⟨s', hs'⟩
  · exact ⟨s, rfl⟩

theorem plantRow_eui {eui : Eui} {regs : List CreateOrModify} {row : PlantRecord}
    (h : plantRow eui regs = some row) : row.eui = eui := by
  unfold plantRow at h
  split at h
  · cases h
    rfl
  · cases h

/-- A query by address gives something, one of the rows or that there is none. -/
theorem PlantDatabase.exists_first {plants : HashMap Eui PlantRecord}
    (h : ∀ eui row, plants.lookup eui = some row → row.eui = eui) (addr : String) :
    ∃ row, First plants addr row := by
  by_cases hrow : ∃ eui row, plants.lookup eui = some row ∧ row.addr = addr
  · obtain ⟨eui, row, hl, haddr⟩ := hrow
    refine ⟨some row, ?_, haddr⟩
    rw [h eui row hl]
    exact hl
  · exact ⟨none, fun eui _ row hl haddr => hrow ⟨eui, row, hl, haddr⟩⟩

namespace System

def work (s : System) : ℕ := s.sessions.broker.work + s.database.work

end System

/-- The steps of the broker's tasks, and of the database's with its actor. -/
def SystemEvent.isWork : SystemEvent → Bool
  | .broker e => e.isTask
  | .database e => e.isOwn
  | _ => false

namespace System

section Daemon

variable [Chrono] {coap : CoapLite} {json : SerdeJson} {s s' : System} {e : SystemEvent}

/-- The broker's tasks and the database's have nothing to do. -/
def AtRest (coap : CoapLite) (json : SerdeJson) (s : System) : Prop :=
  ∀ e : SystemEvent, e.isWork = true → step coap json s e = none

theorem work_step (h : step coap json s e = some s') (he : e.isWork = true)
    (hserves : s.sessions.broker.Serves) : s'.work + 1 ≤ s.work := by
  cases Step.of_step h with
  | @broker e sessions frontend database ht hs hf hd =>
    obtain ⟨-, broker, hb, rfl⟩ := Sessions.broker_some hs
    have hbroker := Broker.work_task hb ht hserves
    obtain ⟨database', hd', hwork⟩ :=
      SubscriptionHandler.run_toDatabase s.sessions.broker broker s.database
    obtain rfl : database' = database := Option.some.inj (hd'.symm.trans hd)
    change broker.work + database'.work + 1 ≤ s.sessions.broker.work + s.database.work
    omega
  | @database e database ho hd =>
    have hwork := SubscriptionHandler.work_own hd ho
    change s.sessions.broker.work + database.work + 1 ≤ s.sessions.broker.work + s.database.work
    omega
  | _ => cases he

/-- A step that the broker could take the daemon can take. -/
theorem exists_broker (coap : CoapLite) (json : SerdeJson) {b : BrokerStep} {broker : Broker}
    (hb : b.isTask = true) (h : s.sessions.broker.step b = some broker) :
    ∃ s', step coap json s (.broker b) = some s' := by
  have hown : b.isOwn = true := by cases b <;> first | rfl | cases hb
  have hs : Sessions.step json s.sessions (.broker b) = some (s.sessions.track b broker) := by
    simp only [Sessions.step, if_pos hown, h, Option.map_some]
  obtain ⟨frontend, hf⟩ := Frontend.run_toFrontend s.sessions.broker broker s.frontend
  obtain ⟨database, hd, -⟩ :=
    SubscriptionHandler.run_toDatabase s.sessions.broker broker s.database
  refine ⟨{ s with sessions := s.sessions.track b broker, frontend, database }, ?_⟩
  have hdeliver : s.deliver (s.sessions.track b broker)
      = some { s with sessions := s.sessions.track b broker, frontend, database } := by
    have hf' : run Frontend.step s.frontend (toFrontend s.frontend s.sessions.broker
        (s.sessions.track b broker).broker) = some frontend := hf
    have hd' : run SubscriptionHandler.step s.database (toDatabase s.sessions.broker
        (s.sessions.track b broker).broker) = some database := hd
    simp only [deliver, hf', hd', Option.bind_some, Option.map_some]
  simp only [step, if_pos hb, hs, Option.bind_some, hdeliver]

section Run

variable {c : OtClient} {ls : List SystemEvent}

theorem mem_clients (h : run (step coap json) (init c) ls = some s) {id : ClientId}
    {senders : Senders} (hl : s.sessions.broker.subscribers.lookup id = some senders) :
    (id, senders) ∈ clients := by
  have hbroker := broker_run h
  rw [← (Broker.run_shows_readings hbroker).1] at hl
  rcases State.subscribe_of_lookup hl with hnone | hmem
  · cases hnone
  · exact ((clients_run h).subscriptions hbroker Broker.requestOf_readingActs).1.subset
      (State.mem_subscriptions.mpr hmem)

theorem serves_run (h : run (step coap json) (init c) ls = some s) :
    s.sessions.broker.Serves := by
  have hcount : ∀ sender : Senders → ℕ, (clients.map fun r => sender r.2).Nodup →
      count sender s.sessions.broker.subscribers 1 ≤ 1 := fun sender hnd =>
    count_le_one fun k k' v v' hk hk' hv hv' => congrArg Prod.fst
      (List.inj_on_of_nodup_map hnd (mem_clients h hk) (mem_clients h hk') (hv.trans hv'.symm))
  exact ⟨(channels_open h 1).1, (channels_open h 1).2, hcount _ (by decide), hcount _ (by decide)⟩

theorem spawns_run (h : run (step coap json) (init c) ls = some s) :
    s.sessions.broker.Spawns := by
  have hinit : Broker.init.Spawns := fun _ _ hi => by cases hi
  exact run_invariant (C := fun _ => True) (fun _ _ _ _ ht hs => Broker.spawns_step hs ht) hinit
    (fun _ _ => trivial) (broker_run h)

/-- At rest nothing is on the way to the database. -/
theorem database_at_rest (h : run (step coap json) (init c) ls = some s)
    (hrest : s.AtRest coap json) : s.database.mailbox = [] ∧ s.database.statusRcvr = []
      ∧ s.database.receiver = [] := by
  have hnone : ∀ e : SubscriptionEvent, e.isOwn = true → s.database.step e = none := by
    intro e he
    have hstep := hrest (.database e) he
    simpa [step, he] using hstep
  have hmailbox : s.database.mailbox = [] := by
    rcases hq : s.database.mailbox with _ | ⟨msg, rest⟩
    · rfl
    · rcases msg with msg | put
      · have hstep := hnone (.handle none) rfl
        simp [SubscriptionHandler.step, hq, Archive.step] at hstep
      · have hplants := (Archive.tables_run (archive_run h)).plants
        obtain ⟨row, hrow⟩ := PlantDatabase.exists_first
          (fun eui row hl => plantRow_eui ((hplants eui).symm.trans hl)) put.reading.addr.ip.toText
        have hstep := hnone (.handle row) rfl
        simp [SubscriptionHandler.step, hq, Archive.step, hrow] at hstep
  refine ⟨hmailbox, ?_, ?_⟩
  · rcases hq : s.database.statusRcvr with _ | ⟨status, rest⟩
    · rfl
    · have hstep := hnone .registryTask rfl
      simp [SubscriptionHandler.step, hq, hmailbox] at hstep
  · rcases hq : s.database.receiver with _ | ⟨put, rest⟩
    · rfl
    · have hstep := hnone .sensorStreamTask rfl
      simp [SubscriptionHandler.step, hq, hmailbox] at hstep

theorem broker_at_rest (h : run (step coap json) (init c) ls = some s)
    (hrest : s.AtRest coap json) : s.sessions.broker.Drained := by
  refine Broker.drained_of_rest (spawns_run h) fun b hb => ?_
  by_contra hne
  obtain ⟨broker, hbroker⟩ := Option.ne_none_iff_exists'.mp hne
  obtain ⟨s', hs'⟩ := exists_broker coap json hb hbroker
  rw [hrest (.broker b) hb] at hs'
  cases hs'

/-- The steps of the tasks are steps of the run. -/
theorem reach_step (h : ∃ ls, run (step coap json) (init c) ls = some s)
    (hs : step coap json s e = some s') : ∃ ls, run (step coap json) (init c) ls = some s' := by
  obtain ⟨ls, h⟩ := h
  exact ⟨ls ++ [e], run_concat.mpr ⟨s, h, hs⟩⟩

theorem passed_at_rest (h : run (step coap json) (init c) ls = some s)
    (hrest : s.AtRest coap json) (i : ℕ) :
    Broker.ofStream i (outputs (step coap json) (brokerOut Broker.entered) (init c) ls)
      = Broker.readingsBefore (outputs (step coap json) (heard json i) (init c) ls) := by
  have htracks := Broker.run_tracks (broker_run h) i
  rw [heard_run h, outputs_brokerOut entered_given h] at htracks
  rcases hi : s.sessions.broker.streams[i]? with _ | stream
  · rw [hi] at htracks
    rw [htracks.1, htracks.2]
    rfl
  · rw [hi] at htracks
    refine htracks.prefix.2 ?_
    rcases (broker_at_rest h hrest).streams i stream hi with hclosed | hqueue
    · exact ((Broker.tracks_closed hclosed).mp htracks).1
    · exact hqueue

end Run

/-- From every state of a run the tasks of the broker and of the database take `work` steps at most
until something else happens, and come to where they have nothing to do. There every reading that a
receive task sent has been passed on, save after a socket that could not be bound, and the database
has handled, in order, every reading and registration it did not miss. -/
theorem comes_to_rest (coap : CoapLite) (json : SerdeJson) (c : OtClient) (ls : List SystemEvent)
    (s : System) (h : run (step coap json) (init c) ls = some s) :
    (∀ ls' s', (∀ e ∈ ls', e.isWork = true) → run (step coap json) s ls' = some s' →
        ls'.length ≤ s.work)
      ∧ (∃ ls' s', (∀ e ∈ ls', e.isWork = true) ∧ run (step coap json) s ls' = some s'
        ∧ s'.AtRest coap json)
      ∧ (s.AtRest coap json →
        (∀ i, Broker.ofStream i (outputs (step coap json) (brokerOut Broker.entered) (init c) ls)
            = Broker.readingsBefore (outputs (step coap json) (heard json i) (init c) ls))
          ∧ (outputs (step coap json) (brokerOut Broker.entered) (init c) ls).map Prod.snd
            = missed 1 (outputs (step coap json) (brokerOut Broker.readingActs) (init c) ls)
              ++ (outputs (step coap json) archived (init c) ls).flatMap DatabaseEvent.readings
          ∧ (outputs (step coap json) emitted (init c) ls).map Registration.createOrModify
            = ((missed 1 (outputs (step coap json) (brokerOut Broker.statusActs) (init c)
                ls)).flatMap NodeStatus.registrations).map Registration.createOrModify
              ++ Archive.registrations (outputs (step coap json) archived (init c) ls)) := by
  have hwork : ∀ t e t', e.isWork = true → (∃ ls, run (step coap json) (init c) ls = some t) →
      step coap json t e = some t' →
        (∃ ls, run (step coap json) (init c) ls = some t') ∧ t'.work + 1 ≤ t.work := by
    intro t e t' he ht hs
    exact ⟨reach_step ht hs, work_step hs he (serves_run ht.choose_spec)⟩
  refine ⟨fun ls' s' hls' h' => ?_, exists_run_to_rest (f := work) hwork ⟨ls, h⟩, fun hrest => ?_⟩
  · have hcost := (cost_le_of_potential (f := work) (p := fun _ => 1) (g := fun _ => 0) hwork
      ⟨ls, h⟩ hls' h').2
    rw [cost_const, cost_const] at hcost
    omega
  · obtain ⟨hmailbox, hstatus, hreceiver⟩ := database_at_rest h hrest
    have hbroker := broker_at_rest h hrest
    have hreadings : s.database.readingsQueued = [] := by
      simp [SubscriptionHandler.readingsQueued, SubscriptionHandler.queued, hmailbox, hreceiver]
    have hregs : s.database.registrationsQueued = [] := by
      simp [SubscriptionHandler.registrationsQueued, hmailbox, hstatus]
    have hqueued : s.sessions.broker.registrationsQueued = [] := by
      simp [Broker.registrationsQueued, hbroker.receiver, hbroker.nodeRegStream]
    refine ⟨passed_at_rest h hrest, ?_, ?_⟩
    · rw [passed_eq h (1, ⟨1, 1⟩) (by decide), database_readings h, hreadings, hbroker.dataQueue,
        List.append_nil, List.append_nil]
    · rw [emitted_eq h (1, ⟨1, 1⟩) (by decide), hqueued, List.append_nil, List.map_append,
        database_registrations h, hregs, List.append_nil]

end Daemon

open Chrono

/-- The stream and the registration of a node have just come to the broker. -/
theorem rest_registered : ∃ s,
    run (step .wire Sessions.reportJson) (init (Poll.mesh [])) registeredRun = some s
      ∧ s.work = 7
      ∧ (∀ ls' s', (∀ e ∈ ls', e.isWork = true) →
        run (step .wire Sessions.reportJson) s ls' = some s' → ls'.length ≤ 7)
      ∧ ∃ ls' s', (∀ e ∈ ls', e.isWork = true)
        ∧ run (step .wire Sessions.reportJson) s ls' = some s'
        ∧ s'.AtRest .wire Sessions.reportJson := by
  obtain ⟨s, hs, hwork⟩ : ∃ s,
      run (step .wire Sessions.reportJson) (init (Poll.mesh [])) registeredRun = some s
        ∧ s.work = 7 := by
    decide +kernel
  obtain ⟨hbound, hrest, -⟩ := comes_to_rest .wire Sessions.reportJson _ registeredRun s hs
  rw [hwork] at hbound
  exact ⟨s, hs, hwork, hbound, hrest⟩

end System

end Pmind
