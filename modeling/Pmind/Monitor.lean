import Mathlib.Data.Finset.Basic
import Pmind.Lib.HashMap
import Pmind.Net

/-!
# The OT monitor

`Ports` is the pool of receive ports, `OtMonitor` the registry of the nodes that hold one. The
messages the actor handles are functions of its state and of what the `OtClient` answers at the
time. A `HashSet` or `HashMap` is iterated in an order the program does not choose, so a function
that iterates takes the order, or the element it came to first, as an argument.
-/

namespace Pmind

inductive OtClientError where
  | io
  | strParse
  | addrParse
  | otClientErr (msg : String)
deriving DecidableEq, Repr

inductive OtMonitorError where
  | io
  | otClientError (e : OtClientError)
  | portError (msg : String)
deriving DecidableEq, Repr

/-- What the otbr-agent layer answers if it is asked now. -/
structure OtClient where
  getChildIps : Except OtClientError (List (Rloc × Ipv6Addr))
  getOmrPrefix : Except OtClientError Ipv6Net
  getOmrIp : Except OtClientError Ipv6Addr

abbrev NodeRcvPort := UInt16

/-! ## The port pool -/

structure Ports where
  base : NodeRcvPort
  ports : Finset NodeRcvPort
deriving DecidableEq

namespace Ports

def default : Ports := ⟨6666, {6666, 6667, 6668, 6669}⟩

def new (base : NodeRcvPort) (size : UInt16) : Except OtMonitorError Ports :=
  -- `checked_add`
  if base.toNat + size.toNat < 2 ^ 16 then
    .ok ⟨base,
      (List.range size.toNat).foldl (fun ports i => insert (base + UInt16.ofNat i) ports) ∅⟩
  else
    .error (.portError "Incompatible port base + size requested")

def markPortFreeToUse (self : Ports) (port : NodeRcvPort) : Ports :=
  { self with ports := insert port self.ports }

/-- Removes a port from the set to indicate it is in use; `top` is what `iter().next()` gives. -/
def getFreePort (self : Ports) (top : Option NodeRcvPort) :
    Except OtMonitorError NodeRcvPort × Ports :=
  if self.ports = ∅ then
    (.error (.portError "No free ports available"), self)
  else
    let port := top.getD self.base
    (.ok port, { self with ports := self.ports.erase port })

end Ports

/-! ## The monitor -/

structure InternalRegistration where
  rloc : Rloc
  ip : Ipv6Addr
  port : NodeRcvPort
  eui : Eui
deriving DecidableEq

def InternalRegistration.pair (n : InternalRegistration) : Rloc × Ipv6Addr := (n.rloc, n.ip)

structure OtMonitor where
  nodes : HashMap NodeRcvPort InternalRegistration
  ports : Ports
  addr : Ipv6Addr
deriving DecidableEq

namespace OtMonitor

def new (otClient : OtClient) : OtMonitor where
  nodes := ∅
  ports := match Ports.new 1213 100 with
    | .ok ports => ports
    | .error _ => Ports.default
  addr := match otClient.getOmrIp with
    | .ok addr => addr
    -- This will trigger logic to update later if possible
    | .error _ => Ipv6Addr.localhost

def getOmrIp (otClient : OtClient) : Except OtMonitorError Ipv6Addr :=
  otClient.getOmrIp.mapError .otClientError

def checkAddrUpdateNeeded (self : OtMonitor) (otClient : OtClient) : Except OtMonitorError Bool :=
  if self.addr.isLoopback then
    .ok true
  else
    (otClient.getOmrPrefix.mapError .otClientError).map fun p =>
      self.addr.segment0 != p.addr.segment0

def updateAddr (self : OtMonitor) (otClient : OtClient) : Except OtMonitorError OtMonitor :=
  (getOmrIp otClient).map fun addr => { self with addr }

/-- The addresses of a child table that match the addr scope (OMR). -/
def inScope (addr : Ipv6Addr) (children : List (Rloc × Ipv6Addr)) : List (Rloc × Ipv6Addr) :=
  children.filter fun (_, ip) => ip.segment0 = addr.segment0

def getNodes (self : OtMonitor) (otClient : OtClient) :
    Except OtMonitorError (List (Rloc × Ipv6Addr)) :=
  (otClient.getChildIps.mapError .otClientError).map (inScope self.addr)

def registerNode (self : OtMonitor) (node : InternalRegistration) : OtMonitor :=
  { self with nodes := self.nodes.insert node.port node }

def evictNode (self : OtMonitor) (key : NodeRcvPort) : OtMonitor :=
  { self with nodes := self.nodes.erase key, ports := self.ports.markPortFreeToUse key }

def getFreePort (self : OtMonitor) (top : Option NodeRcvPort) :
    Except OtMonitorError NodeRcvPort × OtMonitor :=
  let (port, ports) := self.ports.getFreePort top
  (port, { self with ports })

def returnPort (self : OtMonitor) (port : NodeRcvPort) : OtMonitor :=
  { self with ports := self.ports.markPortFreeToUse port }

/-! ## Message handlers -/

/-- The registered nodes missing from `active`, in the order `iter` the map is iterated in. -/
def missingNodes (active : List (Rloc × Ipv6Addr))
    (iter : List (NodeRcvPort × InternalRegistration)) : List (NodeRcvPort × (Rloc × Ipv6Addr)) :=
  iter.filterMap fun (key, node) => if node.pair ∈ active then none else some (key, node.pair)

/-- `Handler<GetNodeStatus>`: evicts the registered nodes that fell off the network. -/
def getNodeStatus (self : OtMonitor) (otClient : OtClient)
    (iter : List (NodeRcvPort × InternalRegistration)) :
    Except OtMonitorError (List (Rloc × Ipv6Addr)) × OtMonitor :=
  match self.getNodes otClient with
  | .error e => (.error e, self)
  | .ok active =>
    let missing := missingNodes active iter
    (.ok (missing.map (·.2)), missing.foldl (fun m node => m.evictNode node.1) self)

/-- `Handler<CheckNewNode>`: the active nodes no registered node is. -/
def checkNewNode (self : OtMonitor) (otClient : OtClient) :
    Except OtMonitorError (List (Rloc × Ipv6Addr)) :=
  (self.getNodes otClient).map fun active =>
    active.filter fun node => ¬ HashMap.Holds InternalRegistration.pair self.nodes node

/-- `Handler<MonitorNetworkStatus>`: updates the address if the OMR prefix has changed. -/
def monitorNetworkStatus (self : OtMonitor) (otClient : OtClient) :
    Except OtMonitorError Unit × OtMonitor :=
  match self.checkAddrUpdateNeeded otClient with
  | .error e => (.error e, self)
  | .ok false => (.ok (), self)
  | .ok true =>
    match self.updateAddr otClient with
    | .error e => (.error e, self)
    | .ok m => (.ok (), m)

end OtMonitor

end Pmind
