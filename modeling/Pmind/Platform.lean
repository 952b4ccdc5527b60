import Pmind.Coap
import Pmind.Sensor

/-!
# The node

`Esp32Platform::coap_server_event_loop`, an iteration at a time. The node answers a CoAP message on
its port with its EUI and its plant's name, and from then on reports its readings to who sent it, on
the port the message id names. What it cannot parse it answers with a fixed text. An `unwrap` that
fails halts it, an error of a sensor or of the socket resets it.
-/

namespace Pmind

structure Datagram where
  src : SocketAddrV6
  dst : SocketAddrV6
  bytes : List UInt8
deriving DecidableEq

def boundPort : UInt16 := 1212

structure Esp32Platform where
  ip : Ipv6Addr
  eui : Eui
  plantName : String
  /-- Who the readings go to, and on which port. -/
  observerAddr : Option (Ipv6Addr × UInt16)
  halted : Bool
deriving DecidableEq

inductive LoopEvent where
  /-- The sensor timer has fired: what `sensor_read` gives, and whether a send succeeds. -/
  | sensor (reading : Option SensorReading) (sendOk : Bool)
  | receive (src : SocketAddrV6) (bytes : List UInt8) (sendOk : Bool)

def LoopEvent.sendOk : LoopEvent → Bool
  | .sensor _ sendOk | .receive _ _ sendOk => sendOk

namespace Esp32Platform

def send (p : Esp32Platform) (ip : Ipv6Addr) (port : UInt16) (bytes : List UInt8) : Datagram :=
  ⟨⟨p.ip, boundPort⟩, ⟨ip, port⟩, bytes⟩

/-- `reset` restarts the node: nobody observes it. -/
def reset (p : Esp32Platform) : Esp32Platform := { p with observerAddr := none }

def halt (p : Esp32Platform) : Esp32Platform := { p with halted := true }

def record (p : Esp32Platform) : List UInt8 := p.eui.toList ++ p.plantName.toUTF8.toList

def report (json : SerdeJson) (p : Esp32Platform) (reading : Option SensorReading)
    (sendOk : Bool) : Esp32Platform × List Datagram :=
  match p.observerAddr, reading with
  | none, _ => (p, [])
  | some (observer, port), some r =>
    match json.toVec r with
    | some bytes => if sendOk then (p, [p.send observer port bytes]) else (p.reset, [])
    | none => (p, [])
  | some _, none => (p.reset, [])

def receive (coap : CoapLite) (p : Esp32Platform) (src : SocketAddrV6) (bytes : List UInt8)
    (sendOk : Bool) : Esp32Platform × List Datagram :=
  if bytes = [] then
    (p, [])
  else
    match coap.fromBytes bytes with
    | some packet =>
      match coap.response packet with
      | some response =>
        match coap.toBytes { response with payload := p.record } with
        | some reply =>
          ({ p with observerAddr := some (src.ip, packet.messageId) },
            if sendOk then [p.send src.ip packet.messageId reply] else [])
        | none => (p.halt, [])
      | none => (p.halt, [])
    | none =>
      if sendOk then (p, [p.send src.ip boundPort "beefface authenticate!".toUTF8.toList])
      else (p.halt, [])

/-- One iteration of the loop: the node after it, and what it sent. -/
def coapServerEventLoop (coap : CoapLite) (json : SerdeJson) (p : Esp32Platform) (e : LoopEvent) :
    Esp32Platform × List Datagram :=
  if p.halted then
    (p, [])
  else
    match e with
    | .sensor reading sendOk => p.report json reading sendOk
    | .receive src bytes sendOk => p.receive coap src (bytes.take 512) sendOk

def step (coap : CoapLite) (json : SerdeJson) (p : Esp32Platform) (e : LoopEvent) :
    Option Esp32Platform :=
  some (p.coapServerEventLoop coap json e).1

end Esp32Platform

end Pmind
