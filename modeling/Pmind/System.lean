import Pmind.Frontend
import Pmind.Session
import Pmind.Subscription

/-!
# The whole daemon

`main` starts the broker, subscribes the front end and then the database, and runs the main loop.
Behind the broker is the poll loop, whose registrations give it the receive tasks and the
registrations to pass on. What the broker sends on a client's two channels is on the client's own
queues from then on.
-/

namespace Pmind

open Transition

structure System where
  poll : Poll
  sessions : Sessions
  frontend : Frontend
  database : SubscriptionHandler
  /-- The subscriptions `main` has requested. -/
  requested : ℕ

inductive SystemEvent where
  | poll (e : PollEvent)
  /-- A receive task's socket. -/
  | socket (i : ℕ) (e : SocketEvent)
  /-- A task of the broker. -/
  | broker (e : BrokerStep)
  | subscribe
  | frontend (e : FrontendStep)
  | database (e : SubscriptionEvent)

/-- The broker's own tasks, as opposed to its clients and what the router gives it. -/
def BrokerStep.isTask : BrokerStep → Bool
  | .forwardStream | .forwardRegistration | .incoming _ | .data _ | .subscription | .process _ =>
    true
  | _ => false

def FrontendStep.isMain : FrontendStep → Bool
  | .next | .drawError | .recvMany _ _ => true
  | _ => false

def FrontendStep.isOwn : FrontendStep → Bool
  | .sensorReading _ | .nodeStatus _ => false
  | _ => true

def SubscriptionEvent.isOwn : SubscriptionEvent → Bool
  | .status _ | .reading _ => false
  | _ => true

namespace System

def init (otClient : OtClient) : System :=
  ⟨Poll.init otClient, Sessions.init, Frontend.new, SubscriptionHandler.init, 0⟩

/-- The requests of `main`, the front end's and then the database's: each client has the channels
with its id. -/
def requests : List ClientApi := [.subscribe 0 ⟨0, 0⟩, .subscribe 1 ⟨1, 1⟩]

/-- What the poll loop's step hands over to the broker: the receive task's stream, and then the
registration. -/
def handedOver (s : Poll) (e : PollEvent) : List SessionEvent :=
  match s.pc, e with
  | .newHandler call _, .newHandler => [.handler call.addr]
  | .emit call answer, .emit =>
    [.registration ⟨answer.eui, call.ip, Poll.plantName answer.name⟩]
  | _, _ => []

/-- What has been sent on a channel since. -/
def grown {α : Type} (before after : Channel α) : List α := after.sent.drop before.sent.length

def readingsOn (ch : ℕ) (b b' : Broker) : List NodeSensorReading :=
  grown (b.readings ch) (b'.readings ch)

def statusesOn (ch : ℕ) (b b' : Broker) : List NodeStatus :=
  grown (b.statuses ch) (b'.statuses ch)

/-- What the broker's step puts on the front end's queues, while its handler takes from them. -/
def toFrontend (s : Frontend) (b b' : Broker) : List FrontendStep :=
  if s.handler = .selecting then
    (statusesOn 0 b b').map .nodeStatus ++ (readingsOn 0 b b').map .sensorReading
  else []

def toDatabase (b b' : Broker) : List SubscriptionEvent :=
  (statusesOn 1 b b').map .status ++ (readingsOn 1 b b').map .reading

/-- The broker's step is done: its clients have what it has sent them. -/
def deliver [Chrono] (self : System) (sessions : Sessions) : Option System :=
  (run Frontend.step self.frontend
      (toFrontend self.frontend self.sessions.broker sessions.broker)).bind fun frontend =>
    (run SubscriptionHandler.step self.database
        (toDatabase self.sessions.broker sessions.broker)).map fun database =>
      { self with sessions, frontend, database }

def step [Chrono] (coap : CoapLite) (json : SerdeJson) (self : System) :
    SystemEvent → Option System
  | .poll e => (self.poll.step coap e).bind fun poll =>
    (run (Sessions.step json) self.sessions (handedOver self.poll e)).map fun sessions =>
      { self with poll, sessions }
  | .socket i e => (self.sessions.step json (.socket i e)).map fun sessions =>
    { self with sessions }
  | .broker e =>
    if e.isTask then (self.sessions.step json (.broker e)).bind self.deliver else none
  | .subscribe => (requests[self.requested]?).bind fun msg =>
    (self.sessions.step json (.broker (.request msg))).map fun sessions =>
      { self with sessions, requested := self.requested + 1 }
  | .frontend e =>
    if e.isOwn ∧ (e.isMain → self.requested = requests.length) then
      (self.frontend.step e).map fun frontend => { self with frontend }
    else none
  | .database e =>
    if e.isOwn then (self.database.step e).map fun database => { self with database } else none

end System

end Pmind
