import Pmind.Cli

/-!
# The monitor and the OMR prefix

The monitor as an actor that handles one message after the other, with what the CLI client finds
each time it is asked. Beside its state stands the prefix it has last been brought up to date with,
as long as the client finds no other.
-/

namespace Pmind

/-- The address as a number of 128 bits. -/
def Ipv6Addr.toBits (a : Ipv6Addr) : ℕ :=
  a.segments.toList.foldl (fun n s => n * 2 ^ 16 + s.toNat) 0

/-- The address has the first `prefixLen` bits of the prefix. -/
def Ipv6Net.Contains (net : Ipv6Net) (a : Ipv6Addr) : Prop :=
  a.toBits / 2 ^ (128 - net.prefixLen) = net.addr.toBits / 2 ^ (128 - net.prefixLen)

instance (net : Ipv6Net) (a : Ipv6Addr) : Decidable (net.Contains a) :=
  inferInstanceAs (Decidable (_ = _))

/-- The client, where the address is asked for after the prefix, when it finds what `later` does. -/
def OtCliClient.otClientThen (self later : OtCliClient) : OtClient :=
  { self.otClient with getOmrIp := later.getOmrIpAddrFromCli }

inductive MonitorMessage where
  | getNodeStatus (client : OtCliClient) (iter : List (NodeRcvPort × InternalRegistration))
  | internalRegistration (node : InternalRegistration)
  | checkNewNode (client : OtCliClient)
  | monitorNetworkStatus (client later : OtCliClient)
  | omrIp (client : OtCliClient)
  | reserveFreePort (top : Option NodeRcvPort)
  | returnFreePort (port : NodeRcvPort)

def OtMonitor.handle (self : OtMonitor) : MonitorMessage → OtMonitor
  | .getNodeStatus client iter => (self.getNodeStatus client.otClient iter).2
  | .internalRegistration node => self.registerNode node
  | .checkNewNode _ => self
  | .monitorNetworkStatus client later =>
    (self.monitorNetworkStatus (client.otClientThen later)).2
  | .omrIp _ => self
  | .reserveFreePort top => (self.getFreePort top).2
  | .returnFreePort port => self.returnPort port

def MonitorMessage.clients : MonitorMessage → List OtCliClient
  | .getNodeStatus client _ => [client]
  | .checkNewNode client => [client]
  | .monitorNetworkStatus client later => [client, later]
  | .omrIp client => [client]
  | .internalRegistration _ | .reserveFreePort _ | .returnFreePort _ => []

structure Scoped where
  monitor : OtMonitor
  scope : Option Ipv6Net

namespace Scoped

def init (monitor : OtMonitor) : Scoped := ⟨monitor, none⟩

/-- The prefix the monitor is in, unless the client finds another. -/
def kept (s : Scoped) (msg : MonitorMessage) : Option Ipv6Net :=
  s.scope.filter fun p => ∀ client ∈ msg.clients, ∀ q ∈ client.getOmrPrefixFromCli.toOption, q = p

/-- The prefix that a `MonitorNetworkStatus` that returns `Ok` has found, last if it asked twice. -/
def told (s : Scoped) : MonitorMessage → Option Ipv6Net
  | .monitorNetworkStatus client later =>
    match (s.monitor.monitorNetworkStatus (client.otClientThen later)).1 with
    | .ok _ =>
      match s.monitor.checkAddrUpdateNeeded (client.otClientThen later) with
      | .ok true => later.getOmrPrefixFromCli.toOption
      | _ => client.getOmrPrefixFromCli.toOption
    | .error _ => none
  | _ => none

def step (s : Scoped) (msg : MonitorMessage) : Option Scoped :=
  some ⟨s.monitor.handle msg, (s.told msg).or (s.kept msg)⟩

end Scoped

end Pmind
