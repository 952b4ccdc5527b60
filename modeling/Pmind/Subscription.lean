import Pmind.Database

/-!
# The database's two tasks

`SubscriptionHandler` spawns a task for each of the channels the broker serves the database on: one
forwards the registrations to the `PlantDatabase` actor, the other the readings. Each takes its
channel in order and awaits the actor's answer to a message before it takes the next, so at most
one message of each is in the actor's mailbox; what comes first there is up to the scheduler.
-/

namespace Pmind

/-- A reading on the sensor channel, and whether a registration of its address had been put on the
status channel before it. -/
structure Put where
  reading : NodeSensorReading
  due : Bool

inductive DatabaseMsg where
  | createOrModify (msg : CreateOrModify)
  | nodeSensorData (put : Put)

def DatabaseMsg.isCreateOrModify : DatabaseMsg → Bool
  | .createOrModify _ => true
  | .nodeSensorData _ => false

structure SubscriptionHandler where
  statusRcvr : List NodeStatus
  receiver : List Put
  mailbox : List DatabaseMsg
  archive : Archive
  /-- The addresses whose registration has been put on the status channel. -/
  announced : List Ipv6Addr

inductive SubscriptionEvent where
  | status (e : NodeStatus)
  | reading (r : NodeSensorReading)
  | registryTask
  | sensorStreamTask
  /-- The actor handles a message; `row` is what a query for a reading's address gives. -/
  | handle (row : Option PlantRecord)

def SubscriptionEvent.row : SubscriptionEvent → Option PlantRecord
  | .handle row => row
  | _ => none

namespace SubscriptionHandler

def init : SubscriptionHandler := ⟨[], [], [], Archive.init, []⟩

/-- The registry task's message for what it took off the channel: a termination is only logged. -/
def forwardStatus : NodeStatus → List DatabaseMsg
  | .registration reg => [.createOrModify ⟨reg.eui, reg.ip, reg.name⟩]
  | .termination _ _ => []

def step [Chrono] (s : SubscriptionHandler) : SubscriptionEvent → Option SubscriptionHandler
  | .status e => some
    { s with
      statusRcvr := s.statusRcvr ++ [e]
      announced := match e with
        | .registration reg => reg.ip :: s.announced
        | .termination _ _ => s.announced }
  | .reading r => some { s with receiver := s.receiver ++ [⟨r, r.addr.ip ∈ s.announced⟩] }
  | .registryTask =>
    match s.statusRcvr with
    | [] => none
    | e :: rest =>
      if ∃ m ∈ s.mailbox, m.isCreateOrModify = true then none
      else some { s with statusRcvr := rest, mailbox := s.mailbox ++ forwardStatus e }
  | .sensorStreamTask =>
    match s.receiver with
    | [] => none
    | put :: rest =>
      if ∃ m ∈ s.mailbox, m.isCreateOrModify = false then none
      else some { s with receiver := rest, mailbox := s.mailbox ++ [.nodeSensorData put] }
  | .handle row =>
    match s.mailbox with
    | [] => none
    | .createOrModify msg :: rest => (s.archive.step (.createOrModify msg)).map fun archive =>
      { s with mailbox := rest, archive }
    | .nodeSensorData put :: rest =>
      (s.archive.step (.nodeSensorData put.reading row)).map fun archive =>
        { s with mailbox := rest, archive }

/-! ## What becomes of the readings and registrations -/

def puts (s : SubscriptionHandler) : SubscriptionEvent → List Put
  | .reading r => [⟨r, r.addr.ip ∈ s.announced⟩]
  | _ => []

/-- The reading a step handles, if it handles one. -/
def handling (s : SubscriptionHandler) : SubscriptionEvent → Option Put
  | .handle _ =>
    match s.mailbox with
    | .nodeSensorData put :: _ => some put
    | _ => none
  | _ => none

/-- The registration a step handles. -/
def registering (s : SubscriptionHandler) : SubscriptionEvent → List CreateOrModify
  | .handle _ =>
    match s.mailbox with
    | .createOrModify msg :: _ => [msg]
    | _ => []
  | _ => []

/-- A reading that is handled, and the EUI of the plant it is stored under if it is. -/
def handled (s : SubscriptionHandler) (e : SubscriptionEvent) : List (Put × Option Eui) :=
  (s.handling e).toList.map fun put => (put, e.row.map (·.eui))

/-- The readings on the way, in the order they will be handled. -/
def queued (s : SubscriptionHandler) : List Put :=
  (s.mailbox.filterMap fun
    | .nodeSensorData put => some put
    | .createOrModify _ => none) ++ s.receiver

end SubscriptionHandler

end Pmind
