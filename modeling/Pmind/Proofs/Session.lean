import Mathlib.Data.List.ReduceOption
import Pmind.Proofs.Broker
import Pmind.Proofs.Transit

/-!
# The sessions' steps are steps of what is on the way

What the channels of the broker hold is what the tags say (`Aligned`), and seen by the tags each
step of the sessions is one of what is on the way (`transit_step`). So what holds of that holds of
the sessions in every run (`inv_step`).
-/

namespace Pmind

open Transition HashMap

def NodeEvent.item : NodeEvent → Item
  | .sensorReading _ => .reading
  | .nodeTimeout _ => .ending .timeout
  | .socketError _ => .ending .socketError
  | .setupError => .ending .setupError

namespace Sessions

variable {json : SerdeJson} {s s' : Sessions}

def endedOf (handlers : List NodeEventHandler) (i : ℕ) : Bool :=
  (handlers[i]?).elim false fun h => decide (h.phase = .ended)

def queueOf (streams : List Stream) (i : ℕ) : List Item :=
  (streams[i]?).elim [] fun stream => stream.queue.map NodeEvent.item

def transit (s : Sessions) : Transit where
  opened := s.broker.streams.length
  registered := s.registered
  forwarded := s.forwarded
  announced := s.announced
  ended := endedOf s.handlers
  queue := queueOf s.broker.streams
  events := s.events.reduceOption
  readings := s.readings
  subscribers id := decide (id ∈ s.broker.subscribers)
  subscriptions := s.subscriptions
  endings := s.endings

/-- An event's tag is what it is sent as. -/
inductive Tags : Option Sent → BrokerEvent → Prop
  | registration (i reg) : Tags (some (.registration i)) (.nodeRegistration reg)
  | termination (i addr state) : Tags (some (.termination i state)) (.nodeTermination addr state)
  | stream (rcv) : Tags none (.sensorReportHandleCreate rcv)

/-- The tags are those of the events and readings on the broker's channels, and a stream that gets
nothing more is that of a session that has ended. -/
structure Aligned (s : Sessions) : Prop where
  handlers : s.handlers.length = s.broker.streams.length
  forwarded : s.forwarded + s.broker.nodeRegStream.length = s.registered
  events : List.Forall₂ Tags s.events s.broker.receiver
  readings : s.readings.length = s.broker.dataQueue.length
  shut : ∀ i stream, s.broker.streams[i]? = some stream →
    stream.ended = true ∨ stream.closed = true → s.transit.ended i = true

/-- What comes to the event loop next has its tag. -/
theorem Aligned.head (hal : s.Aligned) {event : BrokerEvent} {rest : List BrokerEvent}
    (hq : s.broker.receiver = event :: rest) :
    ∃ tag tags, s.events = tag :: tags ∧ Tags tag event ∧ List.Forall₂ Tags tags rest := by
  have htags := hal.events
  rw [hq] at htags
  obtain ⟨tag, tags, htag, hrest, hevents⟩ := List.forall₂_cons_right_iff.mp htags
  exact ⟨tag, tags, hevents, htag, hrest⟩

theorem next_cons {i : ℕ} {stream : Stream} {msg : NodeEvent} {rest : List NodeEvent}
    (hi : s.broker.streams[i]? = some stream) (hq : stream.queue = msg :: rest) :
    s.next i = some msg := by
  simp [next, hi, hq]

theorem next_nil {i : ℕ} {stream : Stream} (hi : s.broker.streams[i]? = some stream)
    (hq : stream.queue = []) : s.next i = none := by
  simp [next, hi, hq]

section Indexed

variable {α β : Type*} {l : List α} {a a' : α} {b : β} {f : α → β} {i : ℕ}

theorem elim_concat (h : f a = b) (i : ℕ) : ((l ++ [a])[i]?).elim b f = (l[i]?).elim b f := by
  rcases Nat.lt_trichotomy i l.length with hlt | rfl | hgt
  · rw [List.getElem?_append_left hlt]
  · rw [List.getElem?_concat_length, List.getElem?_eq_none le_rfl]
    exact h
  · rw [List.getElem?_eq_none hgt.le, List.getElem?_eq_none]
    rw [List.length_append, List.length_singleton]
    exact hgt

theorem elim_set (h : l[i]? = some a) (j : ℕ) :
    ((l.set i a')[j]?).elim b f = if j = i then f a' else (l[j]?).elim b f := by
  obtain ⟨hlt, -⟩ := List.getElem?_eq_some_iff.mp h
  rw [List.getElem?_set]
  by_cases hij : i = j
  · subst hij
    simp [hlt]
  · simp [hij, Ne.symm hij]

end Indexed

theorem endedOf_concat (handlers : List NodeEventHandler) (addr : SocketAddrV6) :
    endedOf (handlers ++ [.new addr]) = endedOf handlers :=
  funext (elim_concat (f := fun h : NodeEventHandler => decide (h.phase = .ended)) rfl)

theorem queueOf_concat (streams : List Stream) (ended spawned closed : Bool) :
    queueOf (streams ++ [⟨[], ended, spawned, closed⟩]) = queueOf streams :=
  funext (elim_concat (f := fun stream : Stream => stream.queue.map NodeEvent.item) rfl)

theorem endedOf_set {handlers : List NodeEventHandler} {i : ℕ} {h h' : NodeEventHandler}
    (hi : handlers[i]? = some h) : endedOf (handlers.set i h')
      = Function.update (endedOf handlers) i (decide (h'.phase = .ended)) := by
  funext j
  rw [Function.update_apply]
  exact elim_set hi j

theorem queueOf_set {streams : List Stream} {i : ℕ} {stream stream' : Stream}
    (hi : streams[i]? = some stream) : queueOf (streams.set i stream')
      = Function.update (queueOf streams) i (stream'.queue.map NodeEvent.item) := by
  funext j
  rw [Function.update_apply]
  exact elim_set hi j

theorem queueOf_spawned (streams : List Stream) (rcv : ℕ) :
    queueOf (streams.modify rcv fun stream => { stream with spawned := true })
      = queueOf streams := by
  funext i
  rw [queueOf, queueOf, List.getElem?_modify]
  rcases streams[i]? with _ | stream
  · rfl
  · simp only [Option.map_eq_map, Option.map_some, Option.elim_some]
    split_ifs <;> rfl

theorem handler_step {addr : SocketAddrV6} (hs : step json s (.handler addr) = some s') :
    Transit.Step s.transit none s'.transit := by
  obtain ⟨hn, hs⟩ := Option.ite_none_right_eq_some.mp hs
  cases hs
  simp only [transit, endedOf_concat, queueOf_concat, List.length_append, List.length_singleton]
  exact .opened (t := s.transit) hn

theorem registration_step {reg : Registration}
    (hs : step json s (.registration reg) = some s') :
    Transit.Step s.transit none s'.transit := by
  obtain ⟨hn, hs⟩ := Option.ite_none_right_eq_some.mp hs
  cases hs
  exact .registered (t := s.transit) hn

theorem run_place {i : ℕ} : ∀ (evs : List NodeEvent) (b : Broker) (stream : Stream),
    b.streams[i]? = some stream → stream.ended = false → stream.closed = false →
      run Broker.step b (evs.map (.place i)) = some { b with
        streams := b.streams.set i { stream with queue := stream.queue ++ evs } }
  | [], b, stream, hi, _, _ => by
    obtain ⟨hlt, rfl⟩ := List.getElem?_eq_some_iff.mp hi
    have hset : b.streams.set i { b.streams[i] with queue := b.streams[i].queue ++ [] }
        = b.streams := by
      rw [List.append_nil]
      exact List.set_getElem_self hlt
    rw [List.map_nil, run_nil, hset]
  | ev :: evs, b, stream, hi, hended, hclosed => by
    obtain ⟨hlt, -⟩ := List.getElem?_eq_some_iff.mp hi
    have hstep : Broker.step b (.place i ev) = some { b with
        streams := b.streams.set i { stream with queue := stream.queue ++ [ev] } } := by
      simp [Broker.step, hi, hended, hclosed]
    rw [List.map_cons, run, hstep, Option.bind_some, run_place evs _
      { stream with queue := stream.queue ++ [ev] } (List.getElem?_set_self hlt) hended hclosed]
    simp

/-- A receive task's step adds to its stream what it sends, and ends the stream with itself. -/
theorem run_placing {b : Broker} {i : ℕ} {stream : Stream} {h h' : NodeEventHandler}
    {e : SocketEvent} (hi : b.streams[i]? = some stream) (hended : stream.ended = false)
    (hclosed : stream.closed = false) :
    run Broker.step b (placing json i h h' e) = some { b with
      streams := b.streams.set i { stream with
        queue := stream.queue ++ h.sent json e
        ended := decide (h'.phase = .ended) } } := by
  obtain ⟨hlt, -⟩ := List.getElem?_eq_some_iff.mp hi
  rw [placing, run_append, run_place _ b stream hi hended hclosed, Option.bind_some]
  split_ifs with hphase
  · simp [run, Broker.step, hphase, List.modify_eq_set_getElem?, hlt]
  · simp [hphase, hended]

/-- A receive task reads on, ends on its own with its end sent, or finds its stream closed. -/
theorem handler_cases (json : SerdeJson) {h h' : NodeEventHandler} {e : SocketEvent}
    (hstep : h.step e = some h') :
    (h'.phase ≠ .ended ∧ h.ending e = none
        ∧ (h.sent json e = [] ∨ ∃ r, h.sent json e = [.sensorReading r]))
      ∨ (∃ state ev, h'.phase = .ended ∧ h.ending e = some state ∧ h.sent json e = [ev]
        ∧ ev.item = .ending state)
      ∨ e = .closed := by
  unfold NodeEventHandler.step at hstep
  split at hstep
  · rename_i hphase
    cases hstep
    exact Or.inl ⟨by simp, by simp [NodeEventHandler.ending, hphase],
      Or.inl (by simp [NodeEventHandler.sent, hphase])⟩
  · rename_i hphase
    cases hstep
    exact Or.inr (Or.inl ⟨.setupError, .setupError, rfl, by simp [NodeEventHandler.ending, hphase],
      by simp [NodeEventHandler.sent, hphase], rfl⟩)
  · rename_i d now hphase
    cases hstep
    refine Or.inl ⟨by simp [hphase], by simp [NodeEventHandler.ending, hphase], ?_⟩
    simp only [NodeEventHandler.sent, hphase]
    rcases json.fromSlice (d.bytes.take bufferSize) with _ | data
    · exact Or.inl rfl
    · exact Or.inr ⟨_, rfl⟩
  · exact Or.inr (Or.inr rfl)
  · rename_i hphase
    cases hstep
    exact Or.inr (Or.inl ⟨.timeout, .nodeTimeout h.nodeAddr, rfl,
      by simp [NodeEventHandler.ending, hphase], by simp [NodeEventHandler.sent, hphase], rfl⟩)
  · rename_i hphase
    cases hstep
    exact Or.inr (Or.inl ⟨.socketError, .socketError h.nodeAddr, rfl,
      by simp [NodeEventHandler.ending, hphase], by simp [NodeEventHandler.sent, hphase], rfl⟩)
  · cases hstep

/-- A receive task that takes a step has not ended, and neither has its stream. -/
theorem socket_some (hal : s.Aligned) {i : ℕ} {e : SocketEvent}
    (hs : step json s (.socket i e) = some s') :
    ∃ h h' stream, s.handlers[i]? = some h ∧ s.broker.streams[i]? = some stream
      ∧ h.step e = some h' ∧ s.transit.ended i = false ∧ stream.ended = false
      ∧ stream.closed = false ∧ e ≠ .closed
      ∧ s' = { s with
        broker := { s.broker with
          streams := s.broker.streams.set i { stream with
            queue := stream.queue ++ h.sent json e
            ended := decide (h'.phase = .ended) } }
        handlers := s.handlers.set i h'
        endings := if i < s.registered ∧ h.ending e ≠ none then
          Function.update s.endings i (h.ending e) else s.endings } := by
  simp only [step] at hs
  split at hs
  · rename_i h stream hh hi
    obtain ⟨hadmits, hs⟩ := Option.ite_none_right_eq_some.mp hs
    obtain ⟨h', hstep, hs⟩ := Option.bind_eq_some_iff.mp hs
    have hrunning : s.transit.ended i = false := by
      have hphase : h.phase ≠ .ended := by
        intro hphase
        simp [NodeEventHandler.step, hphase] at hstep
      simp [transit, endedOf, hh, hphase]
    have hshut := hal.shut i stream hi
    rw [hrunning] at hshut
    have hended : stream.ended = false := by
      by_contra hne
      exact Bool.false_ne_true (hshut (Or.inl (by simpa using hne)))
    have hclosed : stream.closed = false := by
      by_contra hne
      exact Bool.false_ne_true (hshut (Or.inr (by simpa using hne)))
    refine ⟨h, h', stream, hh, hi, hstep, hrunning, hended, hclosed, ?_, ?_⟩
    · rintro rfl
      exact Bool.false_ne_true (hclosed.symm.trans hadmits)
    · rw [run_placing hi hended hclosed] at hs
      cases hs
      rfl
  · cases hs

theorem socket_step (hal : s.Aligned) {i : ℕ} {e : SocketEvent}
    (hs : step json s (.socket i e) = some s') : Transit.Step s.transit none s'.transit := by
  obtain ⟨h, h', stream, hh, hi, hstep, hrunning, hended, hclosed, hopen, rfl⟩ :=
    socket_some hal hs
  have hqueue : queueOf s.broker.streams i = stream.queue.map NodeEvent.item := by
    simp [queueOf, hi]
  simp only [transit, endedOf_set hh, queueOf_set hi, List.length_set, List.map_append, ← hqueue]
  rcases handler_cases json hstep with ⟨hphase, hending, hsent⟩
    | ⟨state, ev, hphase, hending, hsent, hitem⟩ | rfl
  · have hsame : Function.update (endedOf s.handlers) i (decide (h'.phase = .ended))
        = endedOf s.handlers := by
      rw [decide_eq_false hphase]
      exact Function.update_eq_self_iff.mpr hrunning.symm
    simp only [hsame, hending, ne_eq, not_true_eq_false, and_false, if_false]
    rcases hsent with hsent | ⟨r, hsent⟩ <;>
      simp only [hsent, List.map_nil, List.append_nil, List.map_cons]
    · rw [Function.update_eq_self]
      exact .quiet
    · exact .placed (t := s.transit) hrunning
  · simp only [hsent, hphase, hending, decide_true, List.map_cons, List.map_nil, hitem, ne_eq,
      reduceCtorEq, not_false_eq_true, and_true]
    exact .ended (t := s.transit) hrunning
  · exact absurd rfl hopen

theorem subscribed_of_ne {e : BrokerStep} (he : e ≠ .subscription) :
    s.subscribed e = fun id => if id ∈ s.broker.subscribers then
      { s.subscriptions id with sent := (s.subscriptions id).sent ++ (s.sends e).toList }
    else s.subscriptions id := by
  unfold subscribed
  split
  · exact absurd rfl he
  · rfl

theorem subscribed_of_none {e : BrokerStep} (he : e ≠ .subscription) (hx : s.sends e = none) :
    s.subscribed e = s.subscriptions := by
  funext id
  rw [subscribed_of_ne he, hx]
  simp only [Option.toList_none, List.append_nil]
  split_ifs <;> rfl

theorem subscribed_of_some {e : BrokerStep} {y : Sent} (he : e ≠ .subscription)
    (hx : s.sends e = some y) : s.subscribed e = s.transit.sendAll y := by
  funext id
  rw [subscribed_of_ne he, hx]
  simp [Transit.sendAll, transit]

theorem broker_some {e : BrokerStep} (hs : step json s (.broker e) = some s') :
    e.isOwn = true ∧ ∃ broker, s.broker.step e = some broker ∧ s' = s.track e broker := by
  obtain ⟨hown, hs⟩ := Option.ite_none_right_eq_some.mp hs
  obtain ⟨broker, hb, rfl⟩ := Option.map_eq_some_iff.mp hs
  exact ⟨hown, broker, hb, rfl⟩

theorem counts_announces {e : BrokerStep} {y : Sent} (hx : s.sends e = some y) :
    s.announces e = Transit.counts y := by
  unfold announces
  rw [hx]
  rcases y <;> rfl

theorem announces_of_none {e : BrokerStep} (hx : s.sends e = none) : s.announces e = 0 := by
  unfold announces
  rw [hx]

/-- A step that sends nothing, and after which nothing waits that did not before, is none. -/
theorem quiet_step {e : BrokerStep} {broker : Broker} (he : e ≠ .subscription)
    (hx : s.sends e = none) (hopened : broker.streams.length = s.broker.streams.length)
    (hqueue : queueOf broker.streams = queueOf s.broker.streams)
    (hsubs : broker.subscribers = s.broker.subscribers)
    (hevents : (s.track e broker).events.reduceOption = s.events.reduceOption)
    (hreadings : (s.track e broker).readings = s.readings)
    (hforwarded : (s.track e broker).forwarded = s.forwarded) :
    Transit.Step s.transit none (s.track e broker).transit := by
  have htransit : (s.track e broker).transit = s.transit := by
    simp only [transit, hevents, hreadings, hforwarded]
    simp only [track, hopened, hqueue, hsubs, announces_of_none hx, subscribed_of_none he hx,
      add_zero]
  rw [htransit]
  exact .quiet

theorem forwardStream_step {broker : Broker} (hb : s.broker.step .forwardStream = some broker) :
    Transit.Step s.transit none (s.track .forwardStream broker).transit := by
  obtain ⟨nodeEvt, rest, rfl⟩ := Broker.forwardStream_some hb
  refine quiet_step nofun rfl rfl rfl rfl ?_ (by simp [track, enters]) rfl
  simp [track, arrives, List.reduceOption_append]

theorem forwardRegistration_step (hal : s.Aligned) {broker : Broker}
    (hb : s.broker.step .forwardRegistration = some broker) :
    Transit.Step s.transit none (s.track .forwardRegistration broker).transit := by
  obtain ⟨reg, rest, hregs, rfl⟩ := Broker.forwardRegistration_some hb
  have hlt : s.forwarded < s.registered := by
    have hforwarded := hal.forwarded
    rw [hregs, List.length_cons] at hforwarded
    omega
  have hann : s.announces .forwardRegistration = 0 := announces_of_none rfl
  have hsent : s.subscribed .forwardRegistration = s.subscriptions := subscribed_of_none nofun rfl
  simp only [transit, track, arrives, enters, hann, hsent, List.reduceOption_append,
    List.append_nil, add_zero]
  exact .forwarded (t := s.transit) hlt

theorem taken_step {iter : List (ClientId × Senders)} {broker : Broker} {y : Sent}
    {tags : List (Option Sent)} (htags : s.events = some y :: tags)
    (hopened : broker.streams.length = s.broker.streams.length)
    (hqueue : queueOf broker.streams = queueOf s.broker.streams)
    (hsubs : broker.subscribers = s.broker.subscribers) :
    Transit.Step s.transit (s.sends (.incoming iter))
      (s.track (.incoming iter) broker).transit := by
  have hx : s.sends (.incoming iter) = some y := by simp [sends, htags]
  have hevents : s.transit.events = y :: tags.reduceOption := by simp [transit, htags]
  have hsent : s.subscribed (.incoming iter) = s.transit.sendAll y := subscribed_of_some nofun hx
  have htrack : (s.track (.incoming iter) broker).transit = { s.transit with
      announced := s.transit.announced + Transit.counts y
      events := tags.reduceOption
      subscriptions := s.transit.sendAll y } := by
    rw [← hsent]
    simp only [transit, track, arrives, enters, counts_announces hx, hopened, hqueue, hsubs, htags,
      List.tail_cons, List.append_nil, add_zero]
  rw [hx, htrack]
  exact .taken hevents

theorem incoming_step (hal : s.Aligned) {iter : List (ClientId × Senders)} {broker : Broker}
    (hb : s.broker.step (.incoming iter) = some broker) :
    Transit.Step s.transit (s.sends (.incoming iter))
      (s.track (.incoming iter) broker).transit := by
  cases Broker.step_some hb with
  | forward he => rcases he with he | he <;> cases he
  | @incoming _ event rest hq hiter =>
    obtain ⟨tag, tags, hevents, htag, -⟩ := hal.head hq
    cases htag with
    | registration => exact taken_step hevents rfl rfl rfl
    | termination => exact taken_step hevents rfl rfl rfl
    | stream rcv =>
      have hx : s.sends (.incoming iter) = none := by simp [sends, hevents]
      rw [hx]
      refine quiet_step nofun hx ?_ (queueOf_spawned _ _) rfl ?_ (by simp [track, enters]) rfl
      · simp [Broker.handleIncoming]
      · simp [track, arrives, hevents]

theorem data_step (hal : s.Aligned) {iter : List (ClientId × Senders)} {broker : Broker}
    (hb : s.broker.step (.data iter) = some broker) :
    Transit.Step s.transit (s.sends (.data iter)) (s.track (.data iter) broker).transit := by
  cases Broker.step_some hb with
  | forward he => rcases he with he | he <;> cases he
  | @data _ data rest hq hiter =>
    rcases hr : s.readings with _ | ⟨i, readings⟩
    · have hlen := hal.readings
      simp [hr, hq] at hlen
    · have hx : s.sends (.data iter) = some (.reading i) := by simp [sends, hr]
      have hsent : s.subscribed (.data iter) = s.transit.sendAll (.reading i) :=
        subscribed_of_some nofun hx
      have htrack : (s.track (.data iter) { s.broker with
          dataQueue := rest
          readings := Broker.fanOut Senders.sensorReadings iter data s.broker.readings }).transit
          = { s.transit with
            readings := readings
            subscriptions := s.transit.sendAll (.reading i) } := by
        rw [← hsent]
        simp only [transit, track, arrives, enters, counts_announces hx, Transit.counts, hr,
          List.tail_cons, List.append_nil, add_zero]
      rw [hx, htrack]
      exact .read hr

theorem subscription_step {broker : Broker} (hb : s.broker.step .subscription = some broker) :
    Transit.Step s.transit none (s.track .subscription broker).transit := by
  have hann : s.announces .subscription = 0 := announces_of_none rfl
  cases Broker.step_some hb with
  | forward he => rcases he with he | he <;> cases he
  | @subscription msg rest hq =>
    rcases msg with ⟨id, senders⟩ | id
    · have hsubs : (fun id' => decide (id' ∈ s.broker.subscribers.insert id senders))
          = Function.update s.transit.subscribers id true := by
        funext id'
        by_cases heq : id' = id <;> simp [Function.update_apply, transit, heq]
      simp only [transit, track, arrives, enters, hann, subscribed, hq, List.head?_cons,
        Broker.handleRequest, hsubs, List.append_nil, add_zero]
      exact .subscribed (t := s.transit)
    · have hsubs : (fun id' => decide (id' ∈ s.broker.subscribers.erase id))
          = Function.update s.transit.subscribers id false := by
        funext id'
        by_cases heq : id' = id <;> simp [Function.update_apply, transit, heq]
      have hsent : s.subscribed .subscription = s.subscriptions := by
        funext id'
        simp only [subscribed, hq, List.head?_cons, sends, Option.toList_none, List.append_nil]
        split_ifs <;> rfl
      simp only [transit, track, arrives, enters, hann, hsent, Broker.handleRequest, hsubs,
        List.append_nil, add_zero]
      exact .unsubscribed (t := s.transit)

theorem process_step {i : ℕ} {broker : Broker} (hb : s.broker.step (.process i) = some broker) :
    Transit.Step s.transit none (s.track (.process i) broker).transit := by
  have hsent : s.subscribed (.process i) = s.subscriptions := subscribed_of_none nofun rfl
  have hann : s.announces (.process i) = 0 := announces_of_none rfl
  cases Broker.step_some hb with
  | forward he => rcases he with he | he <;> cases he
  | @process _ stream msg rest hi hc hq =>
    have hqueue : s.transit.queue i = (msg :: rest).map NodeEvent.item := by
      simp [transit, queueOf, hi, hq]
    have hnext := next_cons hi hq
    rcases msg with addr | addr | - | reading
    · simp only [transit, track, arrives, enters, hsent, hann, hnext, Broker.handleStream,
        queueOf_set hi, List.length_set, List.reduceOption_append, List.append_nil, add_zero]
      exact .arrived (t := s.transit) hqueue (by decide)
    · simp only [transit, track, arrives, enters, hsent, hann, hnext, Broker.handleStream,
        queueOf_set hi, List.length_set, List.reduceOption_append, List.append_nil, add_zero]
      exact .arrived (t := s.transit) hqueue (by decide)
    · simp only [transit, track, arrives, enters, hsent, hann, hnext, Broker.handleStream,
        queueOf_set hi, List.length_set, List.append_nil, add_zero]
      exact .dropped (t := s.transit) hqueue
    · simp only [transit, track, arrives, enters, hsent, hann, hnext, Broker.handleStream,
        queueOf_set hi, List.length_set, List.append_nil, add_zero]
      exact .entered (t := s.transit) hqueue
  | @streamEnds _ stream hi hq he =>
    have hnext := next_nil hi hq
    refine quiet_step nofun rfl (List.length_set ..) ?_ rfl ?_ ?_ rfl
    · rw [queueOf_set hi]
      exact Function.update_eq_self_iff.mpr (by simp [queueOf, hi])
    · simp [track, arrives, hnext]
    · simp [track, enters, hnext]

theorem broker_step (hal : s.Aligned) {e : BrokerStep} (hs : step json s (.broker e) = some s') :
    Transit.Step s.transit (s.sends e) s'.transit := by
  obtain ⟨hown, broker, hb, rfl⟩ := broker_some hs
  cases e with
  | stream | place | nodeEnds | registration => cases hown
  | request | closeReadings | closeStatuses =>
    cases hb
    exact quiet_step nofun rfl rfl rfl rfl (by simp [track, arrives]) (by simp [track, enters]) rfl
  | forwardStream => exact forwardStream_step hb
  | forwardRegistration => exact forwardRegistration_step hal hb
  | incoming => exact incoming_step hal hb
  | data => exact data_step hal hb
  | subscription => exact subscription_step hb
  | process => exact process_step hb

/-- What the event loop sends by an event of the sessions. -/
def sendsOf (s : Sessions) : SessionEvent → Option Sent
  | .broker e => s.sends e
  | _ => none

theorem transit_step (hal : s.Aligned) {e : SessionEvent} (hs : step json s e = some s') :
    Transit.Step s.transit (s.sendsOf e) s'.transit := by
  cases e with
  | handler => exact handler_step hs
  | registration => exact registration_step hs
  | socket => exact socket_step hal hs
  | broker => exact broker_step hal hs

/-! ## The tags stay aligned -/

/-- A stream that gets nothing more, and did before, is that of a session that has ended. -/
def Shuts (s s' : Sessions) : Prop :=
  ∀ i stream', s'.broker.streams[i]? = some stream' → stream'.ended = true ∨ stream'.closed = true →
    (∃ stream, s.broker.streams[i]? = some stream ∧ (stream.ended = true ∨ stream.closed = true))
      ∨ s'.transit.ended i = true

theorem shuts_of_set {i : ℕ} {stream' : Stream}
    (hset : s'.broker.streams = s.broker.streams.set i stream')
    (h : stream'.ended = true ∨ stream'.closed = true →
      (∃ stream, s.broker.streams[i]? = some stream ∧ (stream.ended = true ∨ stream.closed = true))
        ∨ s'.transit.ended i = true) : Shuts s s' := by
  intro j stream hj hshut
  rw [hset, List.getElem?_set] at hj
  split_ifs at hj with hij
  · cases hj
    exact hij ▸ h hshut
  · exact Or.inl ⟨stream, hj, hshut⟩

theorem shuts_of_eq (h : s'.broker.streams = s.broker.streams) : Shuts s s' :=
  fun _ stream hi hshut => Or.inl ⟨stream, h ▸ hi, hshut⟩

theorem shuts_socket (hal : s.Aligned) {i : ℕ} {e : SocketEvent}
    (hs : step json s (.socket i e) = some s') : Shuts s s' := by
  obtain ⟨h, h', stream, hh, hi, -, -, -, hclosed, -, rfl⟩ := socket_some hal hs
  refine shuts_of_set rfl ?_
  simp only [hclosed, Bool.false_eq_true, or_false, decide_eq_true_eq]
  intro hphase
  right
  simp [transit, endedOf_set hh, hphase]

theorem shuts_broker (hend : s.transit.Ending) {e : BrokerStep} {broker : Broker}
    (hown : e.isOwn = true) (hb : Broker.Step s.broker e broker) : Shuts s (s.track e broker) := by
  cases hb with
  | stream | place | placeClosed | nodeEnds | registration => cases hown
  | @incoming iter event rest hq hiter =>
    rcases event with reg | ⟨addr, state⟩ | rcv
    · exact shuts_of_eq rfl
    · exact shuts_of_eq rfl
    · intro i stream' hi hshut
      change (s.broker.streams.modify rcv _)[i]? = _ at hi
      rw [List.getElem?_modify] at hi
      obtain ⟨stream, hstream, rfl⟩ := Option.map_eq_some_iff.mp hi
      refine Or.inl ⟨stream, hstream, ?_⟩
      split_ifs at hshut <;> exact hshut
  | @subscription msg => rcases msg <;> exact shuts_of_eq rfl
  | @process i stream msg rest hi hc hq =>
    rcases msg with addr | addr | - | reading
    · exact shuts_of_set rfl fun h => Or.inl ⟨stream, hi, h⟩
    · exact shuts_of_set rfl fun h => Or.inl ⟨stream, hi, h⟩
    · refine shuts_of_set rfl fun _ => Or.inr ?_
      have hqueue : s.transit.queue i = [] ++ .ending .setupError :: rest.map NodeEvent.item := by
        simp [transit, queueOf, hi, hq, NodeEvent.item]
      exact (hend.last i [] .setupError _ hqueue).2
    · exact shuts_of_set rfl fun h => Or.inl ⟨stream, hi, h⟩
  | @streamEnds i stream hi hq he =>
    exact shuts_of_set rfl fun _ => Or.inl ⟨stream, hi, Or.inl he⟩
  | _ => exact shuts_of_eq rfl

theorem shut_step (hal : s.Aligned) (hend : s.transit.Ending) {e : SessionEvent}
    (hs : step json s e = some s') : ∀ i stream, s'.broker.streams[i]? = some stream →
      stream.ended = true ∨ stream.closed = true → s'.transit.ended i = true := by
  have hshuts : Shuts s s' := by
    cases e with
    | handler =>
      obtain ⟨-, hs⟩ := Option.ite_none_right_eq_some.mp hs
      cases hs
      intro i stream hi hshut
      change (s.broker.streams ++ [_])[i]? = _ at hi
      rw [List.getElem?_append] at hi
      split_ifs at hi
      · exact Or.inl ⟨stream, hi, hshut⟩
      · rcases (List.mem_singleton.mp (List.mem_of_getElem? hi)) with rfl
        simp at hshut
    | registration =>
      obtain ⟨-, hs⟩ := Option.ite_none_right_eq_some.mp hs
      cases hs
      exact shuts_of_eq rfl
    | socket => exact shuts_socket hal hs
    | broker =>
      obtain ⟨hown, broker, hb, rfl⟩ := broker_some hs
      exact shuts_broker hend hown (Broker.step_some hb)
  intro i stream hi hshut
  rcases hshuts i stream hi hshut with ⟨stream, hi, hshut⟩ | hended
  · exact Transit.ended_step (hal.shut i stream hi hshut) (transit_step hal hs)
  · exact hended

theorem length_track {e : BrokerStep} {broker : Broker} (hown : e.isOwn = true)
    (hb : Broker.Step s.broker e broker) :
    broker.streams.length = s.broker.streams.length := by
  cases hb with
  | stream | place | placeClosed | nodeEnds | registration => cases hown
  | @incoming _ event =>
    rcases event with reg | ⟨addr, state⟩ | rcv
    · rfl
    · rfl
    · exact List.length_modify ..
  | @subscription msg => rcases msg <;> rfl
  | @process _ _ msg => rcases msg <;> exact List.length_set
  | streamEnds => exact List.length_set
  | _ => rfl

theorem forwarded_track {e : BrokerStep} {broker : Broker} (hown : e.isOwn = true)
    (hb : s.broker.step e = some broker) :
    (s.track e broker).forwarded + broker.nodeRegStream.length
      = s.forwarded + s.broker.nodeRegStream.length := by
  cases Broker.step_some hb with
  | stream | place | placeClosed | nodeEnds | registration => cases hown
  | forward he =>
    rcases he with rfl | rfl
    · obtain ⟨nodeEvt, rest, hbroker⟩ := Broker.forwardStream_some hb
      rw [hbroker]
      rfl
    · obtain ⟨reg, rest, hregs, hbroker⟩ := Broker.forwardRegistration_some hb
      rw [hbroker, hregs, List.length_cons]
      simp only [track]
      omega
  | @incoming _ event => rcases event <;> rfl
  | @subscription msg => rcases msg <;> rfl
  | @process _ _ msg => rcases msg <;> rfl
  | _ => rfl

theorem events_track (hal : s.Aligned) {e : BrokerStep} {broker : Broker} (hown : e.isOwn = true)
    (hb : s.broker.step e = some broker) :
    List.Forall₂ Tags (s.track e broker).events broker.receiver := by
  have hsame : List.Forall₂ Tags (s.events ++ []) s.broker.receiver :=
    (List.append_nil _).symm ▸ hal.events
  have hadd : ∀ {tag event}, Tags tag event →
      List.Forall₂ Tags (s.events ++ [tag]) (s.broker.receiver ++ [event]) :=
    fun htag => List.rel_append hal.events (List.forall₂_cons.mpr ⟨htag, .nil⟩)
  cases Broker.step_some hb with
  | stream | place | placeClosed | nodeEnds | registration => cases hown
  | forward he =>
    rcases he with rfl | rfl
    · obtain ⟨nodeEvt, rest, hbroker⟩ := Broker.forwardStream_some hb
      rw [hbroker]
      exact hadd (.stream nodeEvt)
    · obtain ⟨reg, rest, -, hbroker⟩ := Broker.forwardRegistration_some hb
      rw [hbroker]
      exact hadd (.registration ..)
  | @incoming iter event rest hq hiter =>
    obtain ⟨tag, tags, hevents, -, hrest⟩ := hal.head hq
    simp only [track, arrives, hevents, List.tail_cons, List.append_nil]
    rcases event <;> exact hrest
  | @subscription msg => rcases msg <;> exact hsame
  | @process i stream msg rest hi hc hq =>
    have hnext := next_cons hi hq
    simp only [track, arrives, hnext]
    rcases msg with addr | addr | - | reading
    · exact hadd (.termination ..)
    · exact hadd (.termination ..)
    · exact hsame
    · exact hsame
  | @streamEnds i stream hi hq he =>
    have hnext := next_nil hi hq
    simp only [track, arrives, hnext]
    exact hsame
  | _ => exact hsame

theorem readings_track (hal : s.Aligned) {e : BrokerStep} {broker : Broker} (hown : e.isOwn = true)
    (hb : s.broker.step e = some broker) :
    (s.track e broker).readings.length = broker.dataQueue.length := by
  have hsame : (s.readings ++ []).length = s.broker.dataQueue.length :=
    (List.append_nil _).symm ▸ hal.readings
  cases Broker.step_some hb with
  | stream | place | placeClosed | nodeEnds | registration => cases hown
  | forward he => rcases he with rfl | rfl <;> exact hsame
  | @incoming _ event => rcases event <;> exact hsame
  | @data iter data rest hq hiter =>
    have hlen := hal.readings
    rw [hq, List.length_cons] at hlen
    simp only [track, enters, List.append_nil, List.length_tail]
    omega
  | @subscription msg => rcases msg <;> exact hsame
  | @process i stream msg rest hi hc hq =>
    have hnext := next_cons hi hq
    simp only [track, enters, hnext]
    rcases msg with addr | addr | - | reading
    · exact hsame
    · exact hsame
    · exact hsame
    · simp only [Broker.handleStream, List.length_append, List.length_singleton, hal.readings]
  | @streamEnds i stream hi hq he =>
    have hnext := next_nil hi hq
    simp only [track, enters, hnext]
    exact hsame
  | _ => exact hsame

theorem aligned_step (hal : s.Aligned) (hend : s.transit.Ending) {e : SessionEvent}
    (hs : step json s e = some s') : s'.Aligned := by
  have hshut := shut_step hal hend hs
  cases e with
  | handler =>
    obtain ⟨-, hs⟩ := Option.ite_none_right_eq_some.mp hs
    cases hs
    refine ⟨?_, hal.forwarded, hal.events, hal.readings, hshut⟩
    rw [List.length_append, List.length_append, hal.handlers]
    rfl
  | registration =>
    obtain ⟨-, hs⟩ := Option.ite_none_right_eq_some.mp hs
    cases hs
    refine ⟨hal.handlers, ?_, hal.events, hal.readings, hshut⟩
    rw [List.length_append, ← Nat.add_assoc, hal.forwarded]
    rfl
  | socket i e =>
    obtain ⟨h, h', stream, -, -, -, -, -, -, -, rfl⟩ := socket_some hal hs
    refine ⟨?_, hal.forwarded, hal.events, hal.readings, hshut⟩
    rw [List.length_set, List.length_set]
    exact hal.handlers
  | broker e =>
    obtain ⟨hown, broker, hb, rfl⟩ := broker_some hs
    exact ⟨hal.handlers.trans (length_track hown (Broker.step_some hb)).symm,
      (forwarded_track hown hb).trans hal.forwarded, events_track hal hown hb,
      readings_track hal hown hb, hshut⟩

/-- What holds of the sessions in every run. -/
structure Inv (s : Sessions) : Prop where
  aligned : s.Aligned
  registering : s.transit.Registering
  ending : s.transit.Ending
  conserved : s.transit.Conserved

theorem inv_init : init.Inv where
  aligned := ⟨rfl, rfl, .nil, rfl, nofun⟩
  registering := ⟨le_rfl, le_rfl, le_rfl, rfl, fun _ => le_rfl, nofun⟩
  ending := ⟨fun _ _ _ _ h => absurd h (by simp [transit, queueOf, init, Broker.init]),
    fun _ _ _ => ⟨nofun, nofun⟩, nofun⟩
  conserved := nofun

theorem inv_step (h : s.Inv) {e : SessionEvent} (hs : step json s e = some s') : s'.Inv := by
  have ht := transit_step h.aligned hs
  exact ⟨aligned_step h.aligned h.ending hs, Transit.registering_step h.registering ht,
    Transit.ending_step h.ending ht, Transit.conserved_step h.ending h.conserved ht⟩

end Sessions

end Pmind
