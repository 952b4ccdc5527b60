import Pmind.Lib.Run
import Pmind.Monitor
import Pmind.Coap

/-!
# The poll loop

`EventRouter::spawn_child_mon_task` is one task that talks to the `OtMonitor` actor a message at a
time: it asks for the new nodes, tries to register each in turn (`coap_observer_register`), and
asks for the nodes that fell off. Nothing else sends the actor a message, so the loop and the
monitor are one state machine, `Poll`. A `PollEvent` is the next thing the loop does, with what it
is answered: the `OtClient`'s answers, the order a set or map is iterated in, and what the
registration socket gives. `16`-bit additions wrap, as they do in a release build.
-/

namespace Pmind

def maxPlantNameSize : Nat := 20

/-- The size of the buffer a datagram is received in: what is longer is cut. -/
def bufferSize : Nat := 512

structure Received where
  sender : SocketAddrV6
  bytes : List UInt8
deriving DecidableEq

/-- One call of `coap_observer_register`, with what is left of the round behind it. -/
structure Call where
  omrAddr : Ipv6Addr
  rloc : Rloc
  ip : Ipv6Addr
  port : NodeRcvPort
  index : Nat
  rest : List (Rloc × Ipv6Addr)
deriving DecidableEq

/-- The address whose socket waits for the reply, and later for the readings. -/
def Call.addr (c : Call) : SocketAddrV6 := ⟨c.omrAddr, c.port⟩

def Call.sendAddr (c : Call) : SocketAddrV6 := ⟨c.ip, 1212⟩

inductive RegisterPc where
  | bind
  /-- The first `recv_from` and the 30 s sleep race in the `select!`. -/
  | select
  /-- The `recv_from` failed, which leaves the sleep. -/
  | sleepOnly
  /-- The reply was empty: the request goes out again, and a `recv_from` waits with no sleep. -/
  | retry
deriving DecidableEq

/-- What a call of `coap_observer_register` came back with, and all it received on the way. -/
structure Answer where
  eui : Eui
  name : List UInt8
  received : List Received
deriving DecidableEq

inductive PollPc where
  | networkStatus
  | checkNewNode
  | omrIp (nodes : List (Rloc × Ipv6Addr))
  | reserve (omrAddr : Ipv6Addr) (index : Nat) (nodes : List (Rloc × Ipv6Addr))
  | attempt (call : Call) (pc : RegisterPc) (received : List Received)
  | registerNode (call : Call) (answer : Answer)
  | newHandler (call : Call) (answer : Answer)
  | emit (call : Call) (answer : Answer)
  | returnPort (call : Call)
  | getNodeStatus
  | sleep
  | exited
deriving DecidableEq

namespace PollPc

/-- The port handed out to the call under way, until it is registered or returned. -/
def handedOut : PollPc → Option NodeRcvPort
  | .attempt call _ _ | .registerNode call _ | .returnPort call => some call.port
  | _ => none

/-- The new nodes of the round that are not registered and not given up yet. -/
def pending : PollPc → List (Rloc × Ipv6Addr)
  | .omrIp nodes | .reserve _ _ nodes => nodes
  | .attempt call _ _ | .registerNode call _ => (call.rloc, call.ip) :: call.rest
  | .newHandler call _ | .emit call _ | .returnPort call => call.rest
  | _ => []

/-- Those of them that have no port yet. -/
def waiting : PollPc → List (Rloc × Ipv6Addr)
  | .omrIp nodes | .reserve _ _ nodes => nodes
  | .attempt call _ _ | .registerNode call _ | .newHandler call _ | .emit call _
  | .returnPort call => call.rest
  | _ => []

/-- A round is under way: the new nodes are known and the lost ones not yet asked for. -/
def inRound : PollPc → Prop
  | .networkStatus | .checkNewNode | .sleep | .exited => False
  | _ => True

end PollPc

inductive PollEvent where
  | networkStatus (otClient : OtClient)
  | checkNewNode (otClient : OtClient)
  | omrIp (otClient : OtClient)
  | reserve (top : Option NodeRcvPort)
  | bind (ok : Bool)
  | recv (datagram : Received)
  | recvErr
  | elapsed
  | registerNode
  | newHandler
  | emit
  | returnPort
  | getNodeStatus (otClient : OtClient) (iter : List (NodeRcvPort × InternalRegistration))
  | sleep

def PollEvent.otClient : PollEvent → Option OtClient
  | .networkStatus c | .checkNewNode c | .omrIp c | .getNodeStatus c _ => some c
  | _ => none

structure Poll where
  monitor : OtMonitor
  pc : PollPc
deriving DecidableEq

namespace Poll

def init (otClient : OtClient) : Poll := ⟨OtMonitor.new otClient, .networkStatus⟩

/-- `for_each` over the nodes left: the next one, or on to the lost nodes. -/
def next (omrAddr : Ipv6Addr) (index : Nat) : List (Rloc × Ipv6Addr) → PollPc
  | [] => .getNodeStatus
  | nodes => .reserve omrAddr index nodes

/-- The port used when none is free. -/
def fallbackPort (index : Nat) : NodeRcvPort := 1213 + UInt16.ofNat index

/-- The request a call sends: it tells the node, in the message id, what port the readings are
wanted on. -/
def request (port : NodeRcvPort) : Packet where
  mtype := .confirmable
  code := Packet.codeGet
  messageId := port
  token := [0xfa, 0xce, 0xbe, 0xef]
  observe := some Packet.observeRegister
  uriPath := ["soilmoisture"]
  payload := []

/-- `eui.copy_from_slice(&payload[..6])`. -/
def euiOf (payload : List UInt8) : Eui := Vector.ofFn fun i => payload.getD i 0

variable (coap : CoapLite)

/-- A datagram on the registration socket. An empty one is waited out in the retry loop; what is
not a CoAP message leaves the zero EUI and no name; of a message with less than six bytes of
payload the slice of the name panics, which ends the task. -/
def recv (call : Call) (received : List Received) (d : Received) : PollPc :=
  let d := { d with bytes := d.bytes.take bufferSize }
  let received := received ++ [d]
  if d.bytes = [] then
    .attempt call .retry received
  else
    match coap.fromBytes d.bytes with
    | none => .registerNode call ⟨Vector.replicate 6 0, [], received⟩
    | some packet =>
      if 6 ≤ packet.payload.length then
        .registerNode call ⟨euiOf packet.payload, packet.payload.drop 6, received⟩
      else
        .exited

/-- The name as it is sent on: cut to size, and empty if it is not UTF-8. -/
def plantName (name : List UInt8) : String :=
  (String.fromUTF8? ⟨(name.take maxPlantNameSize).toArray⟩).getD ""

def step (s : Poll) (e : PollEvent) : Option Poll :=
  match s.pc, e with
  | .networkStatus, .networkStatus c =>
    -- an error is logged and dropped
    some ⟨(s.monitor.monitorNetworkStatus c).2, .checkNewNode⟩
  | .checkNewNode, .checkNewNode c =>
    match s.monitor.checkNewNode c with
    | .ok nodes => some { s with pc := .omrIp nodes }
    | .error _ => some { s with pc := .exited }
  | .omrIp nodes, .omrIp c =>
    match OtMonitor.getOmrIp c with
    | .ok omrAddr => some { s with pc := next omrAddr 0 nodes }
    | .error _ => some { s with pc := .getNodeStatus }
  | .reserve omrAddr index ((rloc, ip) :: rest), .reserve top =>
    if HashMap.IterNext s.monitor.ports.ports top then
      let (res, monitor) := s.monitor.getFreePort top
      let port := match res with
        | .ok freePort => freePort
        | .error _ => fallbackPort index
      some ⟨monitor, .attempt ⟨omrAddr, rloc, ip, port, index, rest⟩ .bind []⟩
    else none
  | .attempt call .bind received, .bind ok =>
    match coap.toBytes (request call.port), ok with
    | some _, true => some { s with pc := .attempt call .select received }
    | _, _ => some { s with pc := .returnPort call }
  | .attempt call .select received, .recv d => some { s with pc := recv coap call received d }
  | .attempt call .retry received, .recv d => some { s with pc := recv coap call received d }
  | .attempt call .select received, .recvErr =>
    some { s with pc := .attempt call .sleepOnly received }
  | .attempt call .retry _, .recvErr => some { s with pc := .returnPort call }
  | .attempt call .select _, .elapsed => some { s with pc := .returnPort call }
  | .attempt call .sleepOnly _, .elapsed => some { s with pc := .returnPort call }
  | .registerNode call answer, .registerNode =>
    some ⟨s.monitor.registerNode ⟨call.rloc, call.ip, call.port, answer.eui⟩,
      .newHandler call answer⟩
  | .newHandler call answer, .newHandler => some { s with pc := .emit call answer }
  | .emit call _, .emit => some { s with pc := next call.omrAddr (call.index + 1) call.rest }
  | .returnPort call, .returnPort =>
    some ⟨s.monitor.returnPort call.port, next call.omrAddr (call.index + 1) call.rest⟩
  | .getNodeStatus, .getNodeStatus c iter =>
    if s.monitor.nodes.Iter iter then
      some ⟨(s.monitor.getNodeStatus c iter).2, .sleep⟩
    else none
  | .sleep, .sleep => some { s with pc := .networkStatus }
  | _, _ => none

/-! ## What the loop does to others -/

/-- A registration sent on `registration_tx`, with all the call for it received. -/
structure Emission where
  eui : Eui
  ip : Ipv6Addr
  name : String
  received : List Received
deriving DecidableEq

def emitted (s : Poll) (e : PollEvent) : List Emission :=
  match s.pc, e with
  | .emit call answer, .emit => [⟨answer.eui, call.ip, plantName answer.name, answer.received⟩]
  | _, _ => []

/-- The node whose registration attempt a step brings to success. -/
def succeeded (s : Poll) (e : PollEvent) : List (Rloc × Ipv6Addr) :=
  match s.pc, e with
  | .registerNode call _, .registerNode => [(call.rloc, call.ip)]
  | _, _ => []

def lost (s : Poll) (e : PollEvent) : List (Rloc × Ipv6Addr) :=
  match s.pc, e with
  | .getNodeStatus, .getNodeStatus c iter =>
    match (s.monitor.getNodeStatus c iter).1 with
    | .ok lost => lost
    | .error _ => []
  | _, _ => []

end Poll

end Pmind
