import Pmind.Lib.HashMap
import Pmind.Node

/-!
# The terminal front end

`PlantMinder` keeps a `Node` for each address that was registered, with the last readings from it,
and the address of each device. Its main loop handles an event at a time: a batch of readings, a
key press, or a change of a node's state. A batch comes with the order `recv_many` goes through the
addresses in.
-/

namespace Pmind

def numTabs : Nat := 5

def maxWindow : Nat := 50

structure Node where
  addr : Ipv6Addr
  eui : Eui
  name : String
  history : List NodeSensorReading
  state : NodeState

namespace Node

/-- `Node::default`. -/
def unset : Node where
  addr := ⟨Vector.replicate 8 0⟩
  eui := Vector.replicate 6 0
  name := ""
  history := []
  state := .unknown

/-- The node with new readings, the 5 oldest gone if the window is full. -/
def received (a : Node) (data : List NodeSensorReading) : Node :=
  { a with history :=
      (if maxWindow ≤ a.history.length + data.length then a.history.drop 5 else a.history) ++ data }

end Node

structure PlantMinder where
  running : Bool
  nodes : HashMap Ipv6Addr Node
  nodeAddrs : HashMap Eui Ipv6Addr
  tab : Nat
  row : Nat

inductive AppCmd where
  | quit
  | invalid
  | error
  | next
  | back
  | up
  | down
deriving DecidableEq

inductive MinderEvent where
  /-- `recv_many` gives a batch of at most `limit` readings. -/
  | recvMany (limit : ℕ) (buffer : List NodeSensorReading) (keys : List Ipv6Addr)
  | appCmd (cmd : AppCmd)
  | nodeState (status : NodeStatus)

namespace PlantMinder

def new : PlantMinder := ⟨true, ∅, ∅, 0, 0⟩

/-- `new_data`: `drain(..5)` panics where there are fewer. -/
def newData (self : PlantMinder) (key : Ipv6Addr) (data : List NodeSensorReading) :
    Option PlantMinder :=
  match self.nodes.lookup key with
  | some a =>
    if maxWindow ≤ a.history.length + data.length ∧ a.history.length < 5 then none
    else some { self with nodes := self.nodes.insert key (a.received data) }
  | none => some { self with nodes := self.nodes.insert key Node.unset }

/-- The turn of `recv_many` that takes an address's readings from the batch. -/
def newDataOf (buffer : List NodeSensorReading) (self : PlantMinder) (key : Ipv6Addr) :
    Option PlantMinder :=
  let newData := buffer.filter fun e => e.addr.ip = key
  if newData.isEmpty then some self else self.newData key newData

def recvMany (self : PlantMinder) (buffer : List NodeSensorReading) (keys : List Ipv6Addr) :
    Option PlantMinder :=
  if buffer.length ≠ 0 then keys.foldlM (newDataOf buffer) self else some self

def previousHistory (self : PlantMinder) (eui : Eui) : List NodeSensorReading :=
  match self.nodeAddrs.lookup eui with
  | some previous =>
    match self.nodes.lookup previous with
    | some entry => entry.history
    | none => []
  | none => []

/-- Evicts the old address from both maps, if it has a history. -/
def evict (self : PlantMinder) (eui : Eui) : PlantMinder :=
  if (self.previousHistory eui).isEmpty then self
  else { self with
    nodes :=
      match self.nodeAddrs.lookup eui with
      | some p => self.nodes.erase p
      | none => self.nodes
    nodeAddrs := self.nodeAddrs.erase eui }

def entry (reg : Registration) (history : List NodeSensorReading) : Option Node → Node
  | some a => { a with history }
  | none => { history, addr := reg.ip, eui := reg.eui, name := reg.name, state := .online }

def nodeRegistration (self : PlantMinder) (reg : Registration) : PlantMinder :=
  let history := self.previousHistory reg.eui
  let self := self.evict reg.eui
  { self with
    nodeAddrs := self.nodeAddrs.insert reg.eui reg.ip
    nodes := self.nodes.insert reg.ip (entry reg history (self.nodes.lookup reg.ip)) }

def handleAppCmd (self : PlantMinder) : AppCmd → PlantMinder
  | .quit => { self with running := false }
  | .next => { self with tab := if self.tab = numTabs - 1 then 0 else self.tab + 1 }
  | .back => { self with tab := if self.tab = 0 then numTabs - 1 else self.tab - 1 }
  | .down => { self with row := self.row + 1 }
  | .up => { self with row :=
      if self.row = 0 then
        if self.nodeAddrs ≠ ∅ then self.nodeAddrs.keys.card - 1 else 0
      else self.row - 1 }
  | .invalid | .error => self

def handleNodeStateChange (self : PlantMinder) : NodeStatus → PlantMinder
  | .registration reg => self.nodeRegistration reg
  | .termination _ _ => self

/-- A turn of the main loop: `none` if it has ended or panics. -/
def step (self : PlantMinder) (e : MinderEvent) : Option PlantMinder :=
  if self.running then
    match e with
    | .recvMany limit buffer keys =>
      if buffer.length ≤ limit ∧ (keys : Multiset Ipv6Addr) = self.nodes.keys.val then
        self.recvMany buffer keys
      else none
    | .appCmd cmd => some (self.handleAppCmd cmd)
    | .nodeState status => some (self.handleNodeStateChange status)
  else none

end PlantMinder

end Pmind
