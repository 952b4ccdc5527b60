import Pmind.Platform
import Pmind.Router

/-!
# The broker and the nodes on the mesh

The poll loop and any number of nodes, and the datagrams between them. A datagram that was sent may
be delivered at any later time, any number of times, or never, and others on the network may send
what they like: so the network is the list of all that was sent. Only the attempts' datagrams are
followed here: those of a receive task come to the same port at other times.
-/

namespace Pmind

structure Mesh where
  poll : Poll
  nodes : List Esp32Platform
  sent : List Datagram

inductive MeshEvent where
  | broker (e : PollEvent)
  | node (i : ℕ) (e : LoopEvent)
  | stray (d : Datagram)

namespace Mesh

def init (otClient : OtClient) (nodes : List Esp32Platform) : Mesh :=
  ⟨Poll.init otClient, nodes, []⟩

def delivered (s : Mesh) : MeshEvent → Option Datagram
  | .broker (.recv d) =>
    match s.poll.pc with
    | .attempt call _ _ => some ⟨d.sender, call.addr, d.bytes⟩
    | _ => none
  | .node i (.receive src bytes _) =>
    (s.nodes[i]?).map fun node => ⟨src, ⟨node.ip, boundPort⟩, bytes⟩
  | _ => none

/-- What a step of the poll loop sends: the request, once the socket is bound, and again after an
empty datagram. -/
def requests (coap : CoapLite) (s : Poll) (e : PollEvent) : List Datagram :=
  match s.pc, e with
  | .attempt call .bind _, .bind true =>
    ((coap.toBytes (Poll.request call.port)).map fun bytes =>
      ⟨call.addr, call.sendAddr, bytes⟩).toList
  | .attempt call _ _, .recv d =>
    if d.bytes.take bufferSize = [] then
      ((coap.toBytes (Poll.request call.port)).map fun bytes =>
        ⟨call.addr, call.sendAddr, bytes⟩).toList
    else []
  | _, _ => []

def step (coap : CoapLite) (json : SerdeJson) (s : Mesh) (e : MeshEvent) : Option Mesh :=
  if ∀ d ∈ s.delivered e, d ∈ s.sent then
    match e with
    | .broker e => (s.poll.step coap e).map fun poll =>
        { s with poll, sent := requests coap s.poll e ++ s.sent }
    | .node i e => (s.nodes[i]?).map fun node =>
        let (node, sent) := node.coapServerEventLoop coap json e
        { s with nodes := s.nodes.set i node, sent := sent ++ s.sent }
    | .stray d => some { s with sent := d :: s.sent }
  else none

def emitted (s : Mesh) : MeshEvent → List Poll.Emission
  | .broker e => s.poll.emitted e
  | _ => []

end Mesh

end Pmind
