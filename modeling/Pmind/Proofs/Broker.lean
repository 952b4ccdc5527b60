import Mathlib.Data.List.TakeWhile
import Pmind.Broker
import Pmind.Lib.Run

/-!
# What a client and the data queue get

The event loop broadcasts twice over: readings on one channel of each subscriber, changes of state
on the other. Seen from the channels that are open, each is the broadcast of what the loop
processes, in order, so a client's channel gets what comes between its subscription and the next
request under its id. A stream's task takes its events in order and stops at a `SetupError`, so
what it has passed on is the beginning of what was placed.
-/

namespace Pmind

open HashMap Transition Broadcast

def ClientApi.act {μ : Type} : ClientApi → Act ClientId Senders μ
  | .subscribe id senders => .subscribe id senders
  | .unsubscribe id => .unsubscribe id

def BrokerEvent.status : BrokerEvent → Option NodeStatus
  | .nodeRegistration reg => some (.registration reg)
  | .nodeTermination addr state => some (.termination addr state)
  | .sensorReportHandleCreate _ => none

namespace Broker

/-! ## Fan-out -/

/-- What the event loop processes of the readings and the requests. -/
def readingActs (s : Broker) : BrokerStep → List (Act ClientId Senders NodeSensorReading)
  | .data _ => s.dataQueue.head?.toList.map .publish
  | .subscription => s.subscriptionReceiver.head?.toList.map ClientApi.act
  | _ => []

/-- What the event loop processes of the nodes' states and the requests. -/
def statusActs (s : Broker) : BrokerStep → List (Act ClientId Senders NodeStatus)
  | .incoming _ => (s.receiver.head?.bind BrokerEvent.status).toList.map .publish
  | .subscription => s.subscriptionReceiver.head?.toList.map ClientApi.act
  | _ => []

/-- A broadcast, seen on the channels that are open. -/
def Shows {α : Type} (subscribers : HashMap ClientId Senders) (channels : ℕ → Channel α)
    (st : State ClientId Senders ℕ α) : Prop :=
  st.subscribers = subscribers
    ∧ ∀ ch, (channels ch).closed = false → (channels ch).sent = st.sent ch

section FanOut

variable {α : Type} {sender : Senders → ℕ} {m : α}

theorem fanOut_cons (e : ClientId × Senders) (iter : List (ClientId × Senders))
    (channels : ℕ → Channel α) :
    fanOut sender (e :: iter) m channels = fanOut sender iter m
      (Function.update channels (sender e.2) ((channels (sender e.2)).send m)) := rfl

theorem fanOut_closed : ∀ {iter : List (ClientId × Senders)} {channels : ℕ → Channel α} {ch : ℕ},
    (fanOut sender iter m channels ch).closed = (channels ch).closed
  | [], _, _ => rfl
  | e :: iter, channels, ch => by
    rw [fanOut_cons, fanOut_closed]
    by_cases hch : ch = sender e.2
    · rw [hch, Function.update_self, Channel.send]
      split_ifs <;> rfl
    · rw [Function.update_of_ne hch]

theorem fanOut_sent : ∀ {iter : List (ClientId × Senders)} {channels : ℕ → Channel α} {ch : ℕ},
    (channels ch).closed = false → (fanOut sender iter m channels ch).sent =
      (channels ch).sent ++ List.replicate ((iter.map fun e => sender e.2).count ch) m
  | [], _, _, _ => by simp [fanOut]
  | e :: iter, channels, ch, h => by
    rw [fanOut_cons]
    by_cases hch : ch = sender e.2
    · subst hch
      have hsend : (channels (sender e.2)).send m =
          { channels (sender e.2) with sent := (channels (sender e.2)).sent ++ [m] } := by
        rw [Channel.send, if_neg (by simp [h])]
      rw [fanOut_sent (by rw [Function.update_self, hsend]; exact h), Function.update_self, hsend,
        List.map_cons, List.count_cons_self, List.replicate_succ, List.append_assoc,
        List.singleton_append]
    · rw [fanOut_sent (by rw [Function.update_of_ne hch]; exact h), Function.update_of_ne hch,
        List.map_cons, List.count_cons_of_ne (Ne.symm hch)]

variable {subscribers : HashMap ClientId Senders} {channels : ℕ → Channel α}
  {st : State ClientId Senders ℕ α}

theorem Shows.publish {iter : List (ClientId × Senders)} (h : Shows subscribers channels st)
    (hiter : subscribers.Iter iter) (m : α) :
    Shows subscribers (fanOut sender iter m channels) (st.step sender (.publish m)) := by
  refine ⟨h.1, fun ch hch => ?_⟩
  rw [fanOut_closed] at hch
  rw [fanOut_sent hch, h.2 ch hch, hiter.count_eq, ← h.1]
  rfl

theorem Shows.close (h : Shows subscribers channels st) (ch : ℕ) :
    Shows subscribers (Function.update channels ch (channels ch).close) st := by
  refine ⟨h.1, fun ch' hch' => ?_⟩
  by_cases heq : ch' = ch
  · rw [heq, Function.update_self] at hch'
    cases hch'
  · rw [Function.update_of_ne heq] at hch' ⊢
    exact h.2 ch' hch'

theorem Shows.request (h : Shows subscribers channels st) (sender : Senders → ℕ)
    (msg : ClientApi) (s : Broker) (hs : s.subscribers = subscribers) :
    Shows (s.handleRequest msg).subscribers channels (st.step sender msg.act) := by
  rcases msg with ⟨id, senders⟩ | id
  · exact ⟨by simp [State.step, ClientApi.act, handleRequest, h.1, hs], h.2⟩
  · exact ⟨by simp [State.step, ClientApi.act, handleRequest, h.1, hs], h.2⟩

end FanOut

inductive Step (s : Broker) : BrokerStep → Broker → Prop
  | stream : Step s .stream { s with
      nodeEventStream := s.nodeEventStream ++ [s.streams.length]
      streams := s.streams ++ [⟨[], false, false, false⟩] }
  | place {i : ℕ} {e : NodeEvent} {stream : Stream} (hi : s.streams[i]? = some stream)
      (hc : stream.closed = false) : Step s (.place i e) { s with
        streams := s.streams.set i { stream with queue := stream.queue ++ [e] } }
  | placeClosed {i : ℕ} {e : NodeEvent} {stream : Stream} (hi : s.streams[i]? = some stream)
      (he : stream.ended = false) (hc : stream.closed = true) : Step s (.place i e) s
  | nodeEnds {i : ℕ} : Step s (.nodeEnds i) { s with
      streams := s.streams.modify i fun stream => { stream with ended := true } }
  | registration {reg : Registration} : Step s (.registration reg) { s with
      nodeRegStream := s.nodeRegStream ++ [reg] }
  | request {msg : ClientApi} : Step s (.request msg) { s with
      subscriptionReceiver := s.subscriptionReceiver ++ [msg] }
  | closeReadings {ch : ℕ} : Step s (.closeReadings ch) { s with
      readings := Function.update s.readings ch (s.readings ch).close }
  | closeStatuses {ch : ℕ} : Step s (.closeStatuses ch) { s with
      statuses := Function.update s.statuses ch (s.statuses ch).close }
  | forward {e : BrokerStep} {event : BrokerEvent} {streams : List ℕ} {regs : List Registration}
      (he : e = .forwardStream ∨ e = .forwardRegistration) : Step s e { s with
        nodeEventStream := streams
        nodeRegStream := regs
        receiver := s.receiver ++ [event] }
  | incoming {iter : List (ClientId × Senders)} {event : BrokerEvent} {rest : List BrokerEvent}
      (hq : s.receiver = event :: rest) (hiter : s.subscribers.Iter iter) :
      Step s (.incoming iter) ({ s with receiver := rest }.handleIncoming iter event)
  | data {iter : List (ClientId × Senders)} {data : NodeSensorReading}
      {rest : List NodeSensorReading} (hq : s.dataQueue = data :: rest)
      (hiter : s.subscribers.Iter iter) : Step s (.data iter) { s with
        dataQueue := rest
        readings := fanOut Senders.sensorReadings iter data s.readings }
  | subscription {msg : ClientApi} {rest : List ClientApi}
      (hq : s.subscriptionReceiver = msg :: rest) :
      Step s .subscription ({ s with subscriptionReceiver := rest }.handleRequest msg)
  | process {i : ℕ} {stream : Stream} {msg : NodeEvent} {rest : List NodeEvent}
      (hi : s.streams[i]? = some stream) (hc : stream.closed = false)
      (hq : stream.queue = msg :: rest) : Step s (.process i) (s.handleStream i stream rest msg)
  | streamEnds {i : ℕ} {stream : Stream} (hi : s.streams[i]? = some stream)
      (hq : stream.queue = []) (he : stream.ended = true) : Step s (.process i) { s with
        streams := s.streams.set i { stream with closed := true } }

theorem process_some {s s' : Broker} {i : ℕ} {stream : Stream} (hi : s.streams[i]? = some stream)
    (h : s.process i stream = some s') : Step s (.process i) s' := by
  obtain ⟨hrun, h⟩ := Option.ite_none_right_eq_some.mp h
  split at h
  · rename_i msg rest hq
    cases h
    exact .process hi (by simpa using hrun.2) hq
  · rename_i hq
    obtain ⟨he, h⟩ := Option.ite_none_right_eq_some.mp h
    cases h
    exact .streamEnds hi hq he

theorem step_some {s s' : Broker} {e : BrokerStep} (h : step s e = some s') : Step s e s' := by
  rcases e with _ | ⟨i, e⟩ | i | reg | msg | ch | ch | _ | _ | iter | iter | _ | i
  · cases h
    exact .stream
  · simp only [step] at h
    rcases hi : s.streams[i]? with _ | stream <;> rw [hi] at h
    · cases h
    · simp only [] at h
      split_ifs at h with he hc <;> cases h
      · exact .placeClosed hi (by simpa using he) hc
      · exact .place hi (by simpa using hc)
  · cases h
    exact .nodeEnds
  · cases h
    exact .registration
  · cases h
    exact .request
  · cases h
    exact .closeReadings
  · cases h
    exact .closeStatuses
  · simp only [step] at h
    split at h <;> cases h
    exact .forward (Or.inl rfl)
  · simp only [step] at h
    split at h <;> cases h
    exact .forward (Or.inr rfl)
  · simp only [step] at h
    rcases hq : s.receiver with _ | ⟨event, rest⟩ <;> rw [hq] at h
    · cases h
    · obtain ⟨hiter, h⟩ := Option.ite_none_right_eq_some.mp h
      cases h
      exact .incoming hq hiter
  · simp only [step] at h
    rcases hq : s.dataQueue with _ | ⟨data, rest⟩ <;> rw [hq] at h
    · cases h
    · obtain ⟨hiter, h⟩ := Option.ite_none_right_eq_some.mp h
      cases h
      exact .data hq hiter
  · simp only [step] at h
    rcases hq : s.subscriptionReceiver with _ | ⟨msg, rest⟩ <;> rw [hq] at h
    · cases h
    · cases h
      exact .subscription hq
  · simp only [step] at h
    rcases hi : s.streams[i]? with _ | stream <;> rw [hi] at h
    · cases h
    · exact process_some hi h

theorem forwardStream_some {s s' : Broker} (h : step s .forwardStream = some s') :
    ∃ nodeEvt rest, s' = { s with
      nodeEventStream := rest
      receiver := s.receiver ++ [.sensorReportHandleCreate nodeEvt] } := by
  simp only [step] at h
  split at h <;> cases h
  exact ⟨_, _, rfl⟩

theorem forwardRegistration_some {s s' : Broker} (h : step s .forwardRegistration = some s') :
    ∃ reg rest, s.nodeRegStream = reg :: rest ∧ s' = { s with
      nodeRegStream := rest
      receiver := s.receiver ++ [.nodeRegistration reg] } := by
  simp only [step] at h
  split at h <;> cases h
  exact ⟨_, _, ‹_›, rfl⟩

theorem shows_readings {s s' : Broker} {e : BrokerStep}
    {st : State ClientId Senders ℕ NodeSensorReading} (hs : Step s e s')
    (h : Shows s.subscribers s.readings st) :
    Shows s'.subscribers s'.readings (st.after Senders.sensorReadings (s.readingActs e)) := by
  cases hs with
  | data hq hiter =>
    simp only [readingActs, hq, List.head?_cons, Option.toList_some, List.map_cons, List.map_nil]
    exact h.publish hiter _
  | @subscription msg rest hq =>
    simp only [readingActs, hq, List.head?_cons, Option.toList_some, List.map_cons, List.map_nil]
    rcases msg <;>
      exact h.request Senders.sensorReadings _ { s with subscriptionReceiver := rest } rfl
  | @closeReadings ch => exact h.close ch
  | forward he => rcases he with rfl | rfl <;> exact h
  | @incoming _ event _ _ _ => rcases event <;> exact h
  | @process _ _ msg _ _ _ _ => rcases msg <;> exact h
  | _ => exact h

theorem shows_statuses {s s' : Broker} {e : BrokerStep}
    {st : State ClientId Senders ℕ NodeStatus} (hs : Step s e s')
    (h : Shows s.subscribers s.statuses st) :
    Shows s'.subscribers s'.statuses (st.after Senders.nodeStatus (s.statusActs e)) := by
  cases hs with
  | @incoming _ event _ hq hiter =>
    simp only [statusActs, hq, List.head?_cons, Option.bind_some]
    rcases event with reg | ⟨addr, state⟩ | rcv
    · exact h.publish hiter (.registration reg)
    · exact h.publish hiter (.termination addr state)
    · exact h
  | @subscription msg rest hq =>
    simp only [statusActs, hq, List.head?_cons, Option.toList_some, List.map_cons, List.map_nil]
    rcases msg <;> exact h.request Senders.nodeStatus _ { s with subscriptionReceiver := rest } rfl
  | @closeStatuses ch => exact h.close ch
  | forward he => rcases he with rfl | rfl <;> exact h
  | @process _ _ msg _ _ _ _ => rcases msg <;> exact h
  | _ => exact h

theorem run_shows_readings {ls : List BrokerStep} {s : Broker} (h : run step init ls = some s) :
    Shows s.subscribers s.readings
      (State.init.after Senders.sensorReadings (outputs step readingActs init ls)) := by
  refine run_outputs_induct readingActs (C := fun _ => True)
    (Q := fun acts t => Shows t.subscribers t.readings
      (State.init.after Senders.sensorReadings acts))
    ⟨rfl, fun _ _ => rfl⟩ (fun acts t e t' _ hQ ht => ?_) (fun _ _ => trivial) h
  rw [State.after_append]
  exact shows_readings (step_some ht) hQ

theorem run_shows_statuses {ls : List BrokerStep} {s : Broker} (h : run step init ls = some s) :
    Shows s.subscribers s.statuses
      (State.init.after Senders.nodeStatus (outputs step statusActs init ls)) := by
  refine run_outputs_induct statusActs (C := fun _ => True)
    (Q := fun acts t => Shows t.subscribers t.statuses
      (State.init.after Senders.nodeStatus acts))
    ⟨rfl, fun _ _ => rfl⟩ (fun acts t e t' _ hQ ht => ?_) (fun _ _ => trivial) h
  rw [State.after_append]
  exact shows_statuses (step_some ht) hQ

/-! ## The streams -/

def placed (i : ℕ) (_ : Broker) : BrokerStep → List NodeEvent
  | .place j e => if j = i then [e] else []
  | _ => []

/-- What a stream's task passes on to `dataQueue`, with the stream. -/
def entered (s : Broker) : BrokerStep → List (ℕ × NodeSensorReading)
  | .process i =>
    match s.streams[i]? with
    | some stream =>
      match stream.queue with
      | .sensorReading node :: _ => [(i, node)]
      | _ => []
    | none => []
  | _ => []

def ofStream (i : ℕ) (rs : List (ℕ × NodeSensorReading)) : List NodeSensorReading :=
  (rs.filter fun r => r.1 = i).map Prod.snd

def isSetupError : NodeEvent → Bool
  | .setupError => true
  | _ => false

def readingsIn (es : List NodeEvent) : List NodeSensorReading :=
  es.filterMap fun
    | .sensorReading node => some node
    | _ => none

/-- The readings placed before any `SetupError`. -/
def readingsBefore (es : List NodeEvent) : List NodeSensorReading :=
  readingsIn (es.takeWhile fun e => !isSetupError e)

/-- How far a stream's task has come: it has passed on the readings of what it took, and what it did
not take is still there, or it has come to a `SetupError`. -/
def Tracks (es : List NodeEvent) (rs : List NodeSensorReading) : Option Stream → Prop
  | none => es = [] ∧ rs = []
  | some stream =>
    if stream.closed then
      stream.queue = [] ∧ (stream.ended ∨ ∃ e ∈ es, isSetupError e) ∧ rs = readingsBefore es
    else ∃ taken, es = taken ++ stream.queue ∧ (∀ e ∈ taken, ¬ isSetupError e)
      ∧ rs = readingsIn taken

section Tracks

variable {es rest : List NodeEvent} {rs : List NodeSensorReading} {stream : Stream}

theorem readingsIn_append (es es' : List NodeEvent) :
    readingsIn (es ++ es') = readingsIn es ++ readingsIn es' := List.filterMap_append

theorem readingsBefore_append (es' : List NodeEvent) (h : ∀ e ∈ es, ¬ isSetupError e) :
    readingsBefore (es ++ es') = readingsIn es ++ readingsBefore es' := by
  rw [readingsBefore, List.takeWhile_append_of_pos (by simpa using h), readingsIn_append,
    readingsBefore]

theorem readingsBefore_of_mem (es' : List NodeEvent) (h : ∃ e ∈ es, isSetupError e) :
    readingsBefore (es ++ es') = readingsBefore es := by
  obtain ⟨e, he, hse⟩ := h
  rw [readingsBefore, List.takeWhile_append, if_neg, readingsBefore]
  intro hlen
  have hall := List.takeWhile_eq_self_iff.mp ((List.takeWhile_prefix _).eq_of_length hlen)
  simpa [hse] using hall e he

/-- What a stream's task has passed on is the beginning of what was placed, and all of it when
nothing is left. -/
theorem Tracks.prefix (h : Tracks es rs (some stream)) :
    rs <+: readingsBefore es ∧ (stream.queue = [] → rs = readingsBefore es) := by
  unfold Tracks at h
  simp only [] at h
  split_ifs at h
  · obtain ⟨-, -, rfl⟩ := h
    exact ⟨List.prefix_rfl, fun _ => rfl⟩
  · obtain ⟨taken, rfl, hne, rfl⟩ := h
    rw [readingsBefore_append _ hne]
    exact ⟨List.prefix_append _ _, fun hq => by rw [hq]; simp [readingsBefore, readingsIn]⟩

theorem tracks_open (hc : stream.closed = false) :
    Tracks es rs (some stream) ↔ ∃ taken, es = taken ++ stream.queue
      ∧ (∀ e ∈ taken, ¬ isSetupError e) ∧ rs = readingsIn taken := by
  simp only [Tracks, hc, Bool.false_eq_true, if_false]

theorem tracks_closed (hc : stream.closed = true) :
    Tracks es rs (some stream) ↔ stream.queue = [] ∧ (stream.ended ∨ ∃ e ∈ es, isSetupError e)
      ∧ rs = readingsBefore es := by
  simp only [Tracks, hc, if_true]

theorem Tracks.mono {stream' : Stream} (h : Tracks es rs (some stream))
    (hq : stream'.queue = stream.queue) (hc : stream'.closed = stream.closed)
    (he : stream.ended → stream'.ended) : Tracks es rs (some stream') := by
  unfold Tracks at h ⊢
  simp only [hq, hc] at h ⊢
  split_ifs at h ⊢
  · exact ⟨h.1, h.2.1.imp_left he, h.2.2⟩
  · exact h

theorem Tracks.place (h : Tracks es rs (some stream)) (hc : stream.closed = false)
    (e : NodeEvent) :
    Tracks (es ++ [e]) rs (some { stream with queue := stream.queue ++ [e] }) := by
  obtain ⟨taken, rfl, hne, rfl⟩ := (tracks_open hc).mp h
  refine (tracks_open ?_).mpr ⟨taken, List.append_assoc _ _ _, hne, rfl⟩
  exact hc

theorem Tracks.place_closed (h : Tracks es rs (some stream)) (hc : stream.closed = true)
    (he : stream.ended = false) (e : NodeEvent) : Tracks (es ++ [e]) rs (some stream) := by
  obtain ⟨hq, hse, rfl⟩ := (tracks_closed hc).mp h
  rw [he] at hse
  obtain ⟨e', he', hse⟩ := hse.resolve_left Bool.false_ne_true
  refine (tracks_closed hc).mpr ⟨hq, Or.inr ⟨e', List.mem_append_left _ he', hse⟩, ?_⟩
  rw [readingsBefore_of_mem _ ⟨e', he', hse⟩]

theorem Tracks.take {msg : NodeEvent} (h : Tracks es rs (some stream))
    (hc : stream.closed = false) (hq : stream.queue = msg :: rest) (hm : ¬ isSetupError msg) :
    Tracks es (rs ++ readingsIn [msg]) (some { stream with queue := rest }) := by
  obtain ⟨taken, rfl, hne, rfl⟩ := (tracks_open hc).mp h
  refine (tracks_open ?_).mpr ⟨taken ++ [msg], ?_, ?_, (readingsIn_append _ _).symm⟩
  · exact hc
  · rw [hq]
    simp
  · intro e he
    rcases List.mem_append.mp he with he | he
    · exact hne e he
    · rw [List.mem_singleton.mp he]
      exact hm

theorem Tracks.setupError (h : Tracks es rs (some stream)) (hc : stream.closed = false)
    (hq : stream.queue = .setupError :: rest) :
    Tracks es rs (some { stream with queue := [], closed := true }) := by
  obtain ⟨taken, rfl, hne, rfl⟩ := (tracks_open hc).mp h
  refine (tracks_closed rfl).mpr ⟨rfl, Or.inr ⟨.setupError, ?_, rfl⟩, ?_⟩
  · rw [hq]
    simp
  · rw [readingsBefore_append _ hne, hq]
    simp [readingsBefore, readingsIn, isSetupError]

theorem Tracks.end (h : Tracks es rs (some stream)) (hq : stream.queue = [])
    (he : stream.ended = true) : Tracks es rs (some { stream with closed := true }) :=
  (tracks_closed rfl).mpr ⟨hq, Or.inl he, h.prefix.2 hq⟩

end Tracks

theorem ofStream_append (i : ℕ) (rs rs' : List (ℕ × NodeSensorReading)) :
    ofStream i (rs ++ rs') = ofStream i rs ++ ofStream i rs' := by
  simp only [ofStream, List.filter_append, List.map_append]

theorem entered_process {s : Broker} {i : ℕ} {stream : Stream} {msg : NodeEvent}
    {rest : List NodeEvent} (hi : s.streams[i]? = some stream) (hq : stream.queue = msg :: rest) :
    s.entered (.process i) = (readingsIn [msg]).map fun r => (i, r) := by
  simp only [entered, hi, hq]
  rcases msg <;> rfl

theorem ofStream_map (i j : ℕ) (rs : List NodeSensorReading) :
    ofStream i (rs.map fun r => (j, r)) = if j = i then rs else [] := by
  split_ifs with h <;> simp [ofStream, List.filter_map, Function.comp_def, h]

theorem getElem?_set_of_some {l : List Stream} {i j : ℕ} {a b : Stream} (h : l[j]? = some a) :
    (l.set j b)[i]? = if j = i then some b else l[i]? := by
  obtain ⟨hlt, -⟩ := List.getElem?_eq_some_iff.mp h
  rw [List.getElem?_set]
  split_ifs <;> rfl

theorem Tracks.modify {es : List NodeEvent} {rs : List NodeSensorReading} {l : List Stream}
    {i j : ℕ} {f : Stream → Stream} (h : Tracks es rs l[i]?)
    (hq : ∀ stream, (f stream).queue = stream.queue)
    (hc : ∀ stream, (f stream).closed = stream.closed)
    (he : ∀ stream, stream.ended → (f stream).ended) : Tracks es rs (l.modify j f)[i]? := by
  rw [List.getElem?_modify]
  rcases hl : l[i]? with _ | stream
  · rw [hl] at h
    exact h
  · rw [hl] at h
    simp only [Option.map_eq_map, Option.map_some]
    split_ifs
    · exact h.mono (hq stream) (hc stream) (he stream)
    · exact h

theorem tracks_handleStream {s : Broker} {i j : ℕ} {stream : Stream} {msg : NodeEvent}
    {rest : List NodeEvent} {es : List NodeEvent} {rs : List NodeSensorReading}
    (hj : s.streams[j]? = some stream) (hc : stream.closed = false)
    (hq : stream.queue = msg :: rest) (h : Tracks es rs s.streams[i]?) :
    Tracks es (rs ++ if j = i then readingsIn [msg] else [])
      (s.handleStream j stream rest msg).streams[i]? := by
  have hset : ∃ stream', (s.handleStream j stream rest msg).streams = s.streams.set j stream'
      ∧ (Tracks es rs (some stream) → Tracks es (rs ++ readingsIn [msg]) (some stream')) := by
    rcases msg with addr | addr | _ | reading
    · exact ⟨_, rfl, fun h => h.take hc hq (by simp [isSetupError])⟩
    · exact ⟨_, rfl, fun h => h.take hc hq (by simp [isSetupError])⟩
    · refine ⟨_, rfl, fun h => ?_⟩
      simp only [readingsIn, List.filterMap_cons, List.filterMap_nil, List.append_nil]
      exact h.setupError hc hq
    · exact ⟨_, rfl, fun h => h.take hc hq (by simp [isSetupError])⟩
  obtain ⟨stream', hstreams, htracks⟩ := hset
  rw [hstreams, getElem?_set_of_some hj]
  split_ifs with hji
  · rw [← hji, hj] at h
    exact htracks h
  · rw [List.append_nil]
    exact h

theorem tracks_step {s s' : Broker} {e : BrokerStep} (hs : Step s e s') (i : ℕ)
    {es : List NodeEvent} {rs : List NodeSensorReading} (h : Tracks es rs s.streams[i]?) :
    Tracks (es ++ s.placed i e) (rs ++ ofStream i (s.entered e)) s'.streams[i]? := by
  -- only a stream that is new, placed on, spawned, ended or processed changes
  have hsame : Tracks (es ++ []) (rs ++ []) s.streams[i]? := by
    simpa only [List.append_nil] using h
  cases hs with
  | stream =>
    simp only [placed, entered, ofStream, List.filter_nil, List.map_nil, List.append_nil]
    rcases Nat.lt_trichotomy i s.streams.length with hlt | rfl | hgt
    · rw [List.getElem?_append_left hlt]
      exact h
    · rw [List.getElem?_eq_none le_rfl] at h
      obtain ⟨rfl, rfl⟩ := h
      rw [List.getElem?_concat_length]
      exact (tracks_open rfl).mpr ⟨[], rfl, by simp, rfl⟩
    · rw [List.getElem?_eq_none (by omega)] at h
      rw [List.getElem?_eq_none (by simp; omega)]
      exact h
  | place hj hc =>
    simp only [placed, entered, ofStream, List.filter_nil, List.map_nil, List.append_nil]
    rw [getElem?_set_of_some hj]
    split_ifs with hji
    · rw [← hji, hj] at h
      exact h.place hc _
    · rw [List.append_nil]
      exact h
  | placeClosed hj he hc =>
    simp only [placed, entered, ofStream, List.filter_nil, List.map_nil, List.append_nil]
    split_ifs with hji
    · rw [← hji, hj] at h ⊢
      exact h.place_closed hc he _
    · rw [List.append_nil]
      exact h
  | nodeEnds =>
    simp only [placed, entered, ofStream, List.filter_nil, List.map_nil, List.append_nil]
    exact h.modify (fun _ => rfl) (fun _ => rfl) fun _ _ => rfl
  | forward he => rcases he with rfl | rfl <;> exact hsame
  | @incoming _ event _ _ _ =>
    rcases event with reg | ⟨addr, state⟩ | rcv
    · exact hsame
    · exact hsame
    · simp only [placed, entered, ofStream, List.filter_nil, List.map_nil, List.append_nil]
      exact h.modify (fun _ => rfl) (fun _ => rfl) fun _ he => he
  | @subscription msg _ _ => rcases msg <;> exact hsame
  | process hj hc hq =>
    rw [entered_process hj hq, ofStream_map]
    simp only [placed, List.append_nil]
    exact tracks_handleStream hj hc hq h
  | @streamEnds j _ hj hq he =>
    have hnone : s.entered (.process j) = [] := by simp only [entered, hj, hq]
    simp only [hnone, placed, ofStream, List.filter_nil, List.map_nil, List.append_nil]
    rw [getElem?_set_of_some hj]
    split_ifs with hji
    · rw [← hji, hj] at h
      exact h.end hq he
    · exact h
  | _ => exact hsame

theorem run_tracks {ls : List BrokerStep} {s : Broker} (h : run step init ls = some s) (i : ℕ) :
    Tracks (outputs step (placed i) init ls) (ofStream i (outputs step entered init ls))
      s.streams[i]? := by
  have hnew : Tracks [] [] init.streams[i]? := ⟨rfl, rfl⟩
  refine run_induct (s := init) (Q := fun ls (t : Broker) =>
    Tracks (outputs step (placed i) init ls) (ofStream i (outputs step entered init ls))
      t.streams[i]?) hnew
    (fun ls t e t' hrun ih ht => ?_) h
  rw [outputs_concat hrun, outputs_concat hrun, ofStream_append]
  exact tracks_step (step_some ht) i ih

/-! ## The data queue -/

theorem dataQueue_step {s s' : Broker} {e : BrokerStep} (hs : Step s e s') :
    s.dataQueue ++ (s.entered e).map Prod.snd = published (s.readingActs e) ++ s'.dataQueue := by
  cases hs with
  | data hq _ => simp [entered, readingActs, published, hq]
  | forward he => rcases he with rfl | rfl <;> simp [entered, readingActs, published]
  | @incoming _ event _ _ _ =>
    rcases event <;> simp [entered, readingActs, published, handleIncoming]
  | @subscription msg _ hq =>
    rcases msg <;> simp [entered, readingActs, published, handleRequest, ClientApi.act, hq]
  | @process _ _ msg _ hi _ hq =>
    rw [entered_process hi hq]
    rcases msg <;> simp [readingActs, published, handleStream, readingsIn]
  | @streamEnds i _ hi hq _ => simp [entered, hi, hq, readingActs, published]
  | _ => simp [entered, readingActs, published]

theorem run_dataQueue {ls : List BrokerStep} {s : Broker} (h : run step init ls = some s) :
    (outputs step entered init ls).map Prod.snd =
      published (outputs step readingActs init ls) ++ s.dataQueue := by
  refine run_induct (Q := fun ls t => (outputs step entered init ls).map Prod.snd =
    published (outputs step readingActs init ls) ++ t.dataQueue) rfl
    (fun ls t e t' hrun ih ht => ?_) h
  rw [outputs_concat hrun, outputs_concat hrun, List.map_append, ih, published_append,
    List.append_assoc, List.append_assoc, dataQueue_step (step_some ht)]

/-! ## Client and stream -/

/-- In every run: a client's channel, brought by one subscription and open, got the readings, or
changes of state, that the event loop processed until the next request under the client's id, once
and in order, and one that no subscription brought got nothing; and of each stream the readings
placed before any `SetupError` enter the data queue once and in order, all of them once nothing is
left on the stream, and leave it in order. -/
theorem fanOut_exact (ls : List BrokerStep) (s : Broker) (h : run step init ls = some s) :
    (∀ pre post id senders,
        outputs step readingActs init ls = pre ++ .subscribe id senders :: post →
        (∀ id' senders', .subscribe id' senders' ∈ pre ++ post →
          senders'.sensorReadings ≠ senders.sensorReadings) →
        (s.readings senders.sensorReadings).closed = false →
        (s.readings senders.sensorReadings).sent =
          published (post.takeWhile fun a => !a.isAbout id))
      ∧ (∀ pre post id senders,
        outputs step statusActs init ls = pre ++ .subscribe id senders :: post →
        (∀ id' senders', .subscribe id' senders' ∈ pre ++ post →
          senders'.nodeStatus ≠ senders.nodeStatus) →
        (s.statuses senders.nodeStatus).closed = false →
        (s.statuses senders.nodeStatus).sent =
          published (post.takeWhile fun a => !a.isAbout id))
      ∧ (∀ ch, (∀ id senders, .subscribe id senders ∈ outputs step readingActs init ls →
        senders.sensorReadings ≠ ch) → (s.readings ch).closed = false → (s.readings ch).sent = [])
      ∧ (∀ ch, (∀ id senders, .subscribe id senders ∈ outputs step statusActs init ls →
        senders.nodeStatus ≠ ch) → (s.statuses ch).closed = false → (s.statuses ch).sent = [])
      ∧ (∀ i, ofStream i (outputs step entered init ls)
          <+: readingsBefore (outputs step (placed i) init ls))
      ∧ (∀ i stream, s.streams[i]? = some stream → stream.queue = [] →
        ofStream i (outputs step entered init ls)
          = readingsBefore (outputs step (placed i) init ls))
      ∧ (outputs step entered init ls).map Prod.snd =
        published (outputs step readingActs init ls) ++ s.dataQueue := by
  refine ⟨?_, ?_, ?_, ?_, ?_, ?_, run_dataQueue h⟩
  · intro pre post id senders hacts hown hopen
    rw [(run_shows_readings h).2 _ hopen, hacts]
    exact State.sent_after hown
  · intro pre post id senders hacts hown hopen
    rw [(run_shows_statuses h).2 _ hopen, hacts]
    exact State.sent_after hown
  · intro ch hnone hopen
    rw [(run_shows_readings h).2 _ hopen]
    exact (State.sent_of_not_holds (not_holds_empty _ ch) hnone).2
  · intro ch hnone hopen
    rw [(run_shows_statuses h).2 _ hopen]
    exact (State.sent_of_not_holds (not_holds_empty _ ch) hnone).2
  · intro i
    have htracks := run_tracks h i
    rcases hi : s.streams[i]? with _ | stream
    · rw [hi] at htracks
      rw [htracks.1, htracks.2]
      exact List.prefix_rfl
    · rw [hi] at htracks
      exact htracks.prefix.1
  · intro i stream hi hq
    have htracks := run_tracks h i
    rw [hi] at htracks
    exact htracks.prefix.2 hq

def reading (moisture : UInt16) : NodeSensorReading :=
  ⟨⟨.localhost, 1213⟩, ⟨⟨moisture, 0⟩, none, none, 0⟩⟩

/-- A stream has two readings; client 1 gets the first, client 2, who has dropped its receivers,
neither, and client 1 has left before the second. -/
def leftRun : List BrokerStep :=
  [.request (.subscribe 1 ⟨0, 1⟩), .request (.subscribe 2 ⟨2, 3⟩), .closeReadings 2,
    .closeStatuses 3, .stream, .place 0 (.sensorReading (reading 700)),
    .place 0 (.sensorReading (reading 701)),
    .subscription, .subscription, .forwardStream, .incoming [(1, ⟨0, 1⟩), (2, ⟨2, 3⟩)], .process 0,
    .data [(2, ⟨2, 3⟩), (1, ⟨0, 1⟩)], .request (.unsubscribe 1), .process 0, .subscription,
    .data [(2, ⟨2, 3⟩)]]

theorem fanOut_exact_left : ∃ s, run step init leftRun = some s
    ∧ (s.readings 0).sent = [reading 700]
    ∧ ofStream 0 (outputs step entered init leftRun) = [reading 700, reading 701] := by
  obtain ⟨s, hs, hopen, stream, hstream, hq⟩ : ∃ s, run step init leftRun = some s
      ∧ (s.readings 0).closed = false ∧ ∃ stream, s.streams[0]? = some stream ∧ stream.queue = [] :=
    ⟨_, rfl, rfl, _, rfl, rfl⟩
  obtain ⟨hreadings, -, -, -, -, hall, -⟩ := fanOut_exact leftRun s hs
  refine ⟨s, hs, hreadings [] [.subscribe 2 ⟨2, 3⟩, .publish (reading 700), .unsubscribe 1,
    .publish (reading 701)] 1 ⟨0, 1⟩ rfl (fun id senders hmem => ?_) hopen,
    hall 0 stream hstream hq⟩
  simp only [List.nil_append, List.mem_cons, Act.subscribe.injEq, reduceCtorEq, List.not_mem_nil,
    or_false] at hmem
  rw [hmem.2]
  decide

end Broker

end Pmind
