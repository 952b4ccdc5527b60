import Pmind.Broker
import Pmind.Lib.Run

/-!
# The sessions

A session is what becomes of one registered node: the router spawns its receive task and hands over
the stream of it, and then sends the registration. With the broker and the receive tasks go, for
each event and reading on the way, the session it is of, and for each client what the broker has
sent it since its subscription. What a receive task places on its stream before the router has
handed that over comes to the same as what it places right after.
-/

namespace Pmind

open Transition

/-- What the broker sends, with the session it is of. -/
inductive Sent where
  | registration (i : ℕ)
  | reading (i : ℕ)
  | termination (i : ℕ) (state : ErrorState)
deriving DecidableEq

structure Subscription where
  /-- The streams and the registrations the router had sent when the subscription was taken. -/
  streams : ℕ
  registered : ℕ
  sent : List Sent

structure Sessions where
  broker : Broker
  /-- The receive task of each session. -/
  handlers : List NodeEventHandler
  /-- The registrations sent by the router, those of them that are forwarded, and those of them that
  the event loop has taken. -/
  registered : ℕ
  forwarded : ℕ
  announced : ℕ
  /-- What the events on `receiver` are to be sent as. -/
  events : List (Option Sent)
  /-- The sessions of the readings on `dataQueue`. -/
  readings : List ℕ
  subscriptions : ClientId → Subscription
  /-- How a session has ended, on its own and after its registration. -/
  endings : ℕ → Option ErrorState

inductive SessionEvent where
  | handler (addr : SocketAddrV6)
  | registration (reg : Registration)
  | socket (i : ℕ) (e : SocketEvent)
  | broker (e : BrokerStep)

/-- The steps the broker's own tasks and its clients take. -/
def BrokerStep.isOwn : BrokerStep → Bool
  | .stream | .place _ _ | .nodeEnds _ | .registration _ => false
  | _ => true

/-- `sender.closed()` waits for the stream to be dropped. -/
def Stream.admits (stream : Stream) : SocketEvent → Bool
  | .closed => stream.closed
  | _ => true

/-- How the task's step ends the session, if it does so on its own. -/
def NodeEventHandler.ending (h : NodeEventHandler) (e : SocketEvent) : Option ErrorState :=
  match h.phase, e with
  | .binding, .bind false => some .setupError
  | .receiving, .timeout => some .timeout
  | .receiving, .error => some .socketError
  | _, _ => none

namespace Sessions

def init : Sessions :=
  ⟨Broker.init, [], 0, 0, 0, [], [], fun _ => ⟨0, 0, []⟩, fun _ => none⟩

/-- A stream's next event. -/
def next (s : Sessions) (i : ℕ) : Option NodeEvent :=
  (s.broker.streams[i]?).bind fun stream => stream.queue.head?

/-- What the event loop sends every client as it takes the step. -/
def sends (s : Sessions) : BrokerStep → Option Sent
  | .incoming _ => s.events.head?.join
  | .data _ => s.readings.head?.map .reading
  | _ => none

/-- What comes on `receiver`. -/
def arrives (s : Sessions) : BrokerStep → List (Option Sent)
  | .forwardStream => [none]
  | .forwardRegistration => [some (.registration s.forwarded)]
  | .process i =>
    match s.next i with
    | some (.nodeTimeout _) => [some (.termination i .timeout)]
    | some (.socketError _) => [some (.termination i .socketError)]
    | _ => []
  | _ => []

/-- What comes on `dataQueue`. -/
def enters (s : Sessions) : BrokerStep → List ℕ
  | .process i =>
    match s.next i with
    | some (.sensorReading _) => [i]
    | _ => []
  | _ => []

def announces (s : Sessions) (e : BrokerStep) : ℕ :=
  match s.sends e with
  | some (.registration _) => 1
  | _ => 0

def subscribed (s : Sessions) (e : BrokerStep) : ClientId → Subscription :=
  match e, s.broker.subscriptionReceiver.head? with
  | .subscription, some (.subscribe id _) =>
    Function.update s.subscriptions id ⟨s.broker.streams.length, s.registered, []⟩
  | _, _ => fun id =>
    if id ∈ s.broker.subscribers then
      { s.subscriptions id with sent := (s.subscriptions id).sent ++ (s.sends e).toList }
    else s.subscriptions id

/-- The state with the broker's step taken. -/
def track (s : Sessions) (e : BrokerStep) (broker : Broker) : Sessions :=
  { s with
    broker
    forwarded := s.forwarded + match e with
      | .forwardRegistration => 1
      | _ => 0
    announced := s.announced + s.announces e
    events := (match e with
      | .incoming _ => s.events.tail
      | _ => s.events) ++ s.arrives e
    readings := (match e with
      | .data _ => s.readings.tail
      | _ => s.readings) ++ s.enters e
    subscriptions := s.subscribed e }

/-- The broker's part of a receive task's step: what it sends is placed on its stream. -/
def placing (json : SerdeJson) (i : ℕ) (h h' : NodeEventHandler) (e : SocketEvent) :
    List BrokerStep :=
  (h.sent json e).map (.place i) ++ if h'.phase = .ended then [.nodeEnds i] else []

def step (json : SerdeJson) (s : Sessions) : SessionEvent → Option Sessions
  | .handler addr =>
    -- the router comes to a node when it is done with the last
    if s.registered = s.broker.streams.length then
      (s.broker.step .stream).map fun broker =>
        { s with broker, handlers := s.handlers ++ [.new addr] }
    else none
  | .registration reg =>
    if s.registered < s.broker.streams.length then
      (s.broker.step (.registration reg)).map fun broker =>
        { s with broker, registered := s.registered + 1 }
    else none
  | .socket i e =>
    match s.handlers[i]?, s.broker.streams[i]? with
    | some h, some stream =>
      if stream.admits e then
        (h.step e).bind fun h' =>
          (run Broker.step s.broker (placing json i h h' e)).map fun broker =>
            { s with
              broker
              handlers := s.handlers.set i h'
              endings := if i < s.registered ∧ h.ending e ≠ none then
                Function.update s.endings i (h.ending e) else s.endings }
      else none
    | _, _ => none
  | .broker e => if e.isOwn then (s.broker.step e).map (s.track e) else none

end Sessions

end Pmind
