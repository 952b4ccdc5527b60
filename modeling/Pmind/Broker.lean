import Pmind.Lib.Broadcast
import Pmind.Node

/-!
# The broker

The tasks of the broker and the unbounded channels between them: the router hands over a stream for
each node it registers and a registration (`nodeEventStream`, `nodeRegStream`), which one task
passes on as a `BrokerEvent`; `event_loop` takes from there, from `dataQueue` and from the clients'
requests, whichever its `select!` comes to; and each stream that came has a task,
`sensor_stream_process`, that passes on what the node's receive task placed on it. A channel is the
list of what is on it; a client's is what was sent on it so far.
-/

namespace Pmind

open HashMap

abbrev ClientId := UInt32

structure Channel (α : Type*) where
  sent : List α
  /-- The receiver was dropped. -/
  closed : Bool

namespace Channel

variable {α : Type*}

def new : Channel α := ⟨[], false⟩

/-- `send`: an error, which is only logged, if the receiver was dropped. -/
def send (self : Channel α) (m : α) : Channel α :=
  if self.closed then self else { self with sent := self.sent ++ [m] }

def close (self : Channel α) : Channel α := { self with closed := true }

end Channel

structure Senders where
  sensorReadings : ℕ
  nodeStatus : ℕ
deriving DecidableEq

inductive ClientApi where
  | subscribe (id : ClientId) (senders : Senders)
  | unsubscribe (id : ClientId)
deriving DecidableEq

inductive BrokerEvent where
  | nodeRegistration (reg : Registration)
  | nodeTermination (addr : SocketAddrV6) (state : ErrorState)
  | sensorReportHandleCreate (rcv : ℕ)
deriving DecidableEq

structure Stream where
  queue : List NodeEvent
  /-- The node's receive task has ended. -/
  ended : Bool
  spawned : Bool
  /-- That task has ended. -/
  closed : Bool

structure Broker where
  nodeEventStream : List ℕ
  nodeRegStream : List Registration
  receiver : List BrokerEvent
  dataQueue : List NodeSensorReading
  subscriptionReceiver : List ClientApi
  subscribers : HashMap ClientId Senders
  streams : List Stream
  readings : ℕ → Channel NodeSensorReading
  statuses : ℕ → Channel NodeStatus

inductive BrokerStep where
  | stream
  /-- A node's receive task places an event on its stream. -/
  | place (i : ℕ) (e : NodeEvent)
  | nodeEnds (i : ℕ)
  | registration (reg : Registration)
  | request (msg : ClientApi)
  | closeReadings (ch : ℕ)
  | closeStatuses (ch : ℕ)
  | forwardStream
  | forwardRegistration
  /-- The event loop takes from `receiver`, and goes through its subscribers in an order. -/
  | incoming (iter : List (ClientId × Senders))
  | data (iter : List (ClientId × Senders))
  | subscription
  /-- A stream's task comes to what is next on it. -/
  | process (i : ℕ)

namespace Broker

def init : Broker :=
  ⟨[], [], [], [], [], ∅, [], fun _ => Channel.new, fun _ => Channel.new⟩

def fanOut {α : Type*} (sender : Senders → ℕ) (iter : List (ClientId × Senders)) (m : α)
    (channels : ℕ → Channel α) : ℕ → Channel α :=
  iter.foldl (fun channels (_, val) =>
    Function.update channels (sender val) ((channels (sender val)).send m)) channels

def handleIncoming (self : Broker) (iter : List (ClientId × Senders)) : BrokerEvent → Broker
  | .nodeRegistration reg => { self with
    statuses := fanOut Senders.nodeStatus iter (.registration reg) self.statuses }
  | .nodeTermination addr state => { self with
    statuses := fanOut Senders.nodeStatus iter (.termination addr state) self.statuses }
  | .sensorReportHandleCreate rcv => { self with
    streams := self.streams.modify rcv fun stream => { stream with spawned := true } }

def handleRequest (self : Broker) : ClientApi → Broker
  | .subscribe id senders => { self with subscribers := self.subscribers.insert id senders }
  | .unsubscribe id => { self with subscribers := self.subscribers.erase id }

/-- The body of `sensor_stream_process` for a message, with what is left on the stream. -/
def handleStream (self : Broker) (i : ℕ) (stream : Stream) (rest : List NodeEvent) :
    NodeEvent → Broker
  | .sensorReading node => { self with
    dataQueue := self.dataQueue ++ [node]
    streams := self.streams.set i { stream with queue := rest } }
  | .setupError => { self with
    streams := self.streams.set i { stream with queue := [], closed := true } }
  | .socketError addr => { self with
    receiver := self.receiver ++ [.nodeTermination addr .socketError]
    streams := self.streams.set i { stream with queue := rest } }
  | .nodeTimeout addr => { self with
    receiver := self.receiver ++ [.nodeTermination addr .timeout]
    streams := self.streams.set i { stream with queue := rest } }

/-- A stream's task: it waits on an empty stream, and ends with one that gets nothing more. -/
def process (self : Broker) (i : ℕ) (stream : Stream) : Option Broker :=
  if stream.spawned ∧ ¬ stream.closed then
    match stream.queue with
    | msg :: rest => some (self.handleStream i stream rest msg)
    | [] =>
      if stream.ended then
        some { self with streams := self.streams.set i { stream with closed := true } }
      else none
  else none

def step (self : Broker) : BrokerStep → Option Broker
  | .stream => some { self with
    nodeEventStream := self.nodeEventStream ++ [self.streams.length]
    streams := self.streams ++ [⟨[], false, false, false⟩] }
  | .place i e =>
    match self.streams[i]? with
    | some stream =>
      if stream.ended then none
      else if stream.closed then some self
      else some { self with
        streams := self.streams.set i { stream with queue := stream.queue ++ [e] } }
    | none => none
  | .nodeEnds i => some { self with
    streams := self.streams.modify i fun stream => { stream with ended := true } }
  | .registration reg => some { self with nodeRegStream := self.nodeRegStream ++ [reg] }
  | .request msg => some { self with subscriptionReceiver := self.subscriptionReceiver ++ [msg] }
  | .closeReadings ch => some { self with
    readings := Function.update self.readings ch (self.readings ch).close }
  | .closeStatuses ch => some { self with
    statuses := Function.update self.statuses ch (self.statuses ch).close }
  | .forwardStream =>
    match self.nodeEventStream with
    | nodeEvt :: rest => some { self with
      nodeEventStream := rest
      receiver := self.receiver ++ [.sensorReportHandleCreate nodeEvt] }
    | [] => none
  | .forwardRegistration =>
    match self.nodeRegStream with
    | reg :: rest => some { self with
      nodeRegStream := rest
      receiver := self.receiver ++ [.nodeRegistration reg] }
    | [] => none
  | .incoming iter =>
    match self.receiver with
    | incoming :: rest =>
      if self.subscribers.Iter iter then
        some ({ self with receiver := rest }.handleIncoming iter incoming)
      else none
    | [] => none
  | .data iter =>
    match self.dataQueue with
    | data :: rest =>
      if self.subscribers.Iter iter then
        some { self with
          dataQueue := rest
          readings := fanOut Senders.sensorReadings iter data self.readings }
      else none
    | [] => none
  | .subscription =>
    match self.subscriptionReceiver with
    | msg :: rest => some ({ self with subscriptionReceiver := rest }.handleRequest msg)
    | [] => none
  | .process i =>
    match self.streams[i]? with
    | some stream => self.process i stream
    | none => none

end Broker

end Pmind
