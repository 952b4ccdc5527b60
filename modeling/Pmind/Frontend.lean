import Pmind.NodeHistory

/-!
# The event handler and the main loop

Two tasks share the terminal front end. `EventHandler::new` spawns one: its `select!` takes ticks,
terminal events and what the broker sends, and sends the main loop an `Event`, but readings go on a
channel of their own. The other is `main`: it draws, takes an event and handles it, for a tick by
`recv_many` on the channel of the readings. A channel is the list of what is on it.
-/

namespace Pmind

inductive KeyCode where
  | esc
  | tab
  | backTab
  | up
  | down
  | char (c : Char)
  /-- A key without a command. -/
  | other
deriving DecidableEq

inductive KeyEventKind where
  | press
  | repeat
  | release
deriving DecidableEq

structure KeyEvent where
  code : KeyCode
  /-- A bit for each modifier that is held. -/
  modifiers : UInt8
  kind : KeyEventKind
deriving DecidableEq

/-- `KeyModifiers::CONTROL`. -/
def keyControl : UInt8 := 0b10

inductive CrosstermEvent where
  | key (key : KeyEvent)
  /-- A mouse, focus, paste or resize event. -/
  | untracked
deriving DecidableEq

/-- The command of a key. -/
def AppCmd.ofKey (key : KeyEvent) : AppCmd :=
  match key.code with
  | .esc => .quit
  | .char c =>
    if c = 'q' ∨ c = 'Q' then .quit
    else if c = 'c' ∨ c = 'C' then
      if key.modifiers = keyControl then .quit else .invalid
    else .invalid
  | .tab => .next
  | .backTab => .back
  | .up => .up
  | .down => .down
  | .other => .invalid

def CrosstermEvent.cmds : CrosstermEvent → List AppCmd
  | .key evt => if evt.kind = .press then [.ofKey evt] else []
  | .untracked => []

inductive Event where
  | tick
  | appCmd (cmd : AppCmd)
  | nodeState (status : NodeStatus)

inductive MainLoop where
  /-- At `events.next()`. -/
  | next
  /-- In `recv_many`, for a tick. -/
  | tick
  | exited
  | panicked
deriving DecidableEq

inductive HandlerTask where
  | selecting
  | ended
  | panicked
deriving DecidableEq

structure Frontend where
  sensorStream : List NodeSensorReading
  nodeState : List NodeStatus
  events : List Event
  dataQueue : List NodeSensorReading
  handler : HandlerTask
  main : MainLoop
  app : PlantMinder

inductive FrontendStep where
  /-- The broker sends a reading or a status. -/
  | sensorReading (reading : NodeSensorReading)
  | nodeStatus (status : NodeStatus)
  /-- The branches of the handler's `select!`. -/
  | closed
  | tickDelay
  | crosstermEvent (evt : CrosstermEvent)
  | nodeStateStream
  | nodeDataStream
  /-- The main loop takes an event, or its `draw` before that fails. -/
  | next
  | drawError
  /-- `recv_many` takes `size` readings, none if its timeout is first, and goes through the
  addresses in an order. -/
  | recvMany (size : ℕ) (keys : List Ipv6Addr)

namespace Frontend

/-- The most readings a tick asks for. -/
def tickLimit : ℕ := 20

def new : Frontend := ⟨[], [], [], [], .selecting, .next, .new⟩

/-- `main` has its receivers. -/
def receiving (self : Frontend) : Prop := self.main = .next ∨ self.main = .tick

instance (self : Frontend) : Decidable self.receiving :=
  inferInstanceAs (Decidable (_ ∨ _))

/-- `_sender.send(..).unwrap()`. -/
def send (self : Frontend) (e : Event) : Frontend :=
  if self.receiving then { self with events := self.events ++ [e] }
  else { self with handler := .panicked }

/-- `client_data_tx.send(..).unwrap()`. -/
def sendData (self : Frontend) (data : NodeSensorReading) : Frontend :=
  if self.receiving then { self with dataQueue := self.dataQueue ++ [data] }
  else { self with handler := .panicked }

/-- The head of the main loop. -/
def loop (self : Frontend) : Frontend :=
  { self with main := if self.app.running then .next else .exited }

def handle (self : Frontend) : Event → Frontend
  | .tick => { self with main := .tick }
  | .appCmd cmd => { self with app := self.app.handleAppCmd cmd }.loop
  | .nodeState status => { self with app := self.app.handleNodeStateChange status }.loop

def select (self : Frontend) : FrontendStep → Option Frontend
  | .sensorReading reading => some { self with sensorStream := self.sensorStream ++ [reading] }
  | .nodeStatus status => some { self with nodeState := self.nodeState ++ [status] }
  | .closed => if self.receiving then none else some { self with handler := .ended }
  | .tickDelay => some (self.send .tick)
  | .crosstermEvent evt => some (evt.cmds.foldl (fun self cmd => self.send (.appCmd cmd)) self)
  | .nodeStateStream =>
    match self.nodeState with
    | state :: rest => some ({ self with nodeState := rest }.send (.nodeState state))
    | [] => none
  | .nodeDataStream =>
    match self.sensorStream with
    | data :: rest => some ({ self with sensorStream := rest }.sendData data)
    | [] => none
  | _ => none

/-- The end of a tick: `recv_many` panics where the app does. -/
def recvMany (self : Frontend) (size : ℕ) (keys : List Ipv6Addr) : Frontend :=
  let self' := { self with dataQueue := self.dataQueue.drop size }
  match self.app.recvMany (self.dataQueue.take size) keys with
  | some app => { self' with app }.loop
  | none => { self' with main := .panicked }

def step (self : Frontend) : FrontendStep → Option Frontend
  | .next =>
    match self.main, self.events with
    | .next, e :: rest => some ({ self with events := rest }.handle e)
    | _, _ => none
  | .drawError => if self.main = .next then some { self with main := .exited } else none
  | .recvMany size keys =>
    if self.main = .tick ∧ size ≤ tickLimit ∧ size ≤ self.dataQueue.length
        ∧ (keys : Multiset Ipv6Addr) = self.app.nodes.keys.val then
      some (self.recvMany size keys)
    else none
  -- what the broker sends to a task that is gone is dropped
  | e => if self.handler = .selecting then self.select e else none

/-! ## What becomes of what is sent -/

/-- What the main loop has the app do. -/
def turns (self : Frontend) : FrontendStep → List MinderEvent
  | .next =>
    match self.events with
    | .appCmd cmd :: _ => [.appCmd cmd]
    | .nodeState status :: _ => [.nodeState status]
    | _ => []
  | .recvMany size keys => [.recvMany tickLimit (self.dataQueue.take size) keys]
  | _ => []

end Frontend

end Pmind
