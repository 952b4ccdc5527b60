import Pmind.Node

/-!
# The host: the poll loop and the receive tasks

The poll loop spawns a receive task for each node it registers, and from then on the two know
nothing of each other: the task ends when it ends, and the monitor keeps the node until it falls off
the child table. What they share is the sockets, of which the operating system gives an address to
one at a time. The host counts its rounds by their `CheckNewNode`.
-/

namespace Pmind

structure Receiver where
  call : Call
  handler : NodeEventHandler
  endedIn : Option ℕ
deriving DecidableEq

def Receiver.after (r : Receiver) (round : ℕ) (handler : NodeEventHandler) : Receiver :=
  { r with handler, endedIn := if handler.phase = .ended then some round else none }

structure Host where
  poll : Poll
  /-- The receive tasks, the last one first. -/
  receivers : List Receiver
  round : ℕ
deriving DecidableEq

inductive HostEvent where
  | poll (e : PollEvent)
  | socket (i : ℕ) (e : SocketEvent)

namespace Host

def init (otClient : OtClient) : Host := ⟨Poll.init otClient, [], 0⟩

def Bound (s : Host) (a : SocketAddrV6) : Prop :=
  ∃ r ∈ s.receivers, r.handler.phase = .receiving ∧ r.handler.addr = a

instance (s : Host) (a : SocketAddrV6) : Decidable (s.Bound a) :=
  inferInstanceAs (Decidable (∃ r ∈ s.receivers, r.handler.phase = .receiving ∧ r.handler.addr = a))

/-- The address the call under way has a socket bound to. -/
def callSocket (s : Host) : Option SocketAddrV6 :=
  match s.poll.pc with
  | .attempt _ .bind _ => none
  | .attempt call _ _ => some call.addr
  | _ => none

/-- The address an event binds a socket to. -/
def binds (s : Host) (e : HostEvent) : Option SocketAddrV6 :=
  match e with
  | .poll (.bind true) =>
    match s.poll.pc with
    | .attempt call _ _ => some call.addr
    | _ => none
  | .socket i (.bind true) => (s.receivers[i]?).map (·.handler.addr)
  | _ => none

/-- The operating system's part: an address is bound once at a time. -/
def Admits (s : Host) (e : HostEvent) : Prop :=
  ∀ a ∈ s.binds e, ¬ s.Bound a ∧ s.callSocket ≠ some a

instance (s : Host) (e : HostEvent) : Decidable (s.Admits e) :=
  inferInstanceAs (Decidable (∀ a ∈ s.binds e, ¬ s.Bound a ∧ s.callSocket ≠ some a))

def spawned (s : Poll) (e : PollEvent) : List Receiver :=
  match s.pc, e with
  | .newHandler call _, .newHandler => [⟨call, NodeEventHandler.new call.addr, none⟩]
  | _, _ => []

def nextRound (e : PollEvent) (round : ℕ) : ℕ :=
  match e with
  | .checkNewNode _ => round + 1
  | _ => round

def step (coap : CoapLite) (s : Host) (e : HostEvent) : Option Host :=
  if s.Admits e then
    match e with
    | .poll e => (s.poll.step coap e).map fun poll =>
        ⟨poll, spawned s.poll e ++ s.receivers, nextRound e s.round⟩
    | .socket i e => (s.receivers[i]?).bind fun r => (r.handler.step e).map fun handler =>
        { s with receivers := s.receivers.set i (r.after s.round handler) }
  else none

/-- The receive task of a port: the last one spawned for it. -/
def receiver (s : Host) (p : NodeRcvPort) : Option Receiver :=
  s.receivers.find? fun r => r.call.port = p

end Host

end Pmind
