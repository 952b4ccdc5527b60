import Pmind.Mesh
import Pmind.System

/-!
# The daemon and the nodes

The whole daemon, the nodes, and what has been sent between them. The poll loop's attempts and the
receive tasks take their datagrams from the network, and the nodes theirs: each was sent there
before, by the broker, by a node, or by a stranger.
-/

namespace Pmind

structure Deployment where
  system : System
  nodes : List Esp32Platform
  sent : List Datagram

inductive DeploymentEvent where
  | system (e : SystemEvent)
  | node (i : ℕ) (e : LoopEvent)
  | stray (d : Datagram)

namespace Deployment

def init (otClient : OtClient) (nodes : List Esp32Platform) : Deployment :=
  ⟨System.init otClient, nodes, []⟩

/-- What the poll loop and the nodes see of it. -/
def mesh (s : Deployment) : Mesh := ⟨s.system.poll, s.nodes, s.sent⟩

def delivered (s : Deployment) : DeploymentEvent → Option Datagram
  | .system (.poll e) => s.mesh.delivered (.broker e)
  | .system (.socket i (.received d _)) =>
    (s.system.sessions.handlers[i]?).map fun h => ⟨d.sender, h.addr, d.bytes⟩
  | .node i e => s.mesh.delivered (.node i e)
  | _ => none

def requests (coap : CoapLite) (s : System) : SystemEvent → List Datagram
  | .poll e => Mesh.requests coap s.poll e
  | _ => []

def step [Chrono] (coap : CoapLite) (json : SerdeJson) (s : Deployment) (e : DeploymentEvent) :
    Option Deployment :=
  if ∀ d ∈ s.delivered e, d ∈ s.sent then
    match e with
    | .system e => (s.system.step coap json e).map fun system =>
        { s with system, sent := requests coap s.system e ++ s.sent }
    | .node i e => (s.nodes[i]?).map fun node =>
        let (node, sent) := node.coapServerEventLoop coap json e
        { s with nodes := s.nodes.set i node, sent := sent ++ s.sent }
    | .stray d => some { s with sent := d :: s.sent }
  else none

end Deployment

end Pmind
