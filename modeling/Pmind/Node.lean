import Pmind.Router
import Pmind.Sensor

/-!
# The receive task of a node

`NodeEventHandler::new` spawns a task that binds the address the node was told to report to, and
sends on what it makes of the datagrams there, until its receiver is dropped, no datagram has come
for `DEFAULT_TIMEOUT` seconds, or the socket fails. A `SocketEvent` is what the task's `select!`
comes to next.
-/

namespace Pmind

inductive ErrorState where
  | timeout
  | socketError
  | setupError
  | other
deriving DecidableEq, Repr

inductive NodeState where
  | unknown
  | offline (state : ErrorState)
  | online
deriving DecidableEq

structure Registration where
  eui : Eui
  ip : Ipv6Addr
  name : String
deriving DecidableEq

inductive NodeStatus where
  | registration (reg : Registration)
  | termination (addr : SocketAddrV6) (state : ErrorState)
deriving DecidableEq

structure NodeSensorReading where
  addr : SocketAddrV6
  data : SensorReading

inductive NodeEvent where
  | nodeTimeout (addr : SocketAddrV6)
  | socketError (addr : SocketAddrV6)
  | setupError
  | sensorReading (reading : NodeSensorReading)

inductive TaskPhase where
  | binding
  | receiving
  | ended
deriving DecidableEq

structure NodeEventHandler where
  addr : SocketAddrV6
  /-- The last sender, and before there is one the address the task itself is bound to. -/
  nodeAddr : SocketAddrV6
  phase : TaskPhase
deriving DecidableEq

inductive SocketEvent where
  | bind (ok : Bool)
  | closed
  | timeout
  /-- A datagram, and the time it is handled at. -/
  | received (datagram : Received) (now : Int64)
  | error

namespace NodeEventHandler

def new (addr : SocketAddrV6) : NodeEventHandler := ⟨addr, addr, .binding⟩

def step (h : NodeEventHandler) (e : SocketEvent) : Option NodeEventHandler :=
  match h.phase, e with
  | .binding, .bind true => some { h with phase := .receiving }
  | .binding, .bind false => some { h with phase := .ended }
  | .receiving, .received d _ => some { h with nodeAddr := d.sender }
  | .receiving, .closed => some { h with phase := .ended }
  | .receiving, .timeout => some { h with phase := .ended }
  | .receiving, .error => some { h with phase := .ended }
  | _, _ => none

/-- What the task sends on `sender` as it takes the step. -/
def sent (json : SerdeJson) (h : NodeEventHandler) (e : SocketEvent) : List NodeEvent :=
  match h.phase, e with
  | .binding, .bind false => [.setupError]
  | .receiving, .received d now =>
    match json.fromSlice (d.bytes.take bufferSize) with
    | some data => [.sensorReading ⟨d.sender, { data with ts := now }⟩]
    | none => []
  | .receiving, .timeout => [.nodeTimeout h.nodeAddr]
  | .receiving, .error => [.socketError h.nodeAddr]
  | _, _ => []

end NodeEventHandler

end Pmind
