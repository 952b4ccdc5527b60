import Pmind.Database

/-!
# The database's tasks and the end of their channels

Both tasks of `SubscriptionHandler` take their channel with a loop `while let Some(..) =
receiver.recv().await`, and await the actor's answer to what they forward. `recv` waits on an empty
channel, and gives `None` at once if it has no senders left. The registry task is done when its loop
is. The sensor stream task has that loop inside another, which has no end.
-/

namespace Pmind

inductive TaskPc (α : Type) where
  | loop
  | recv
  | handle (data : α)
  | exited

/-- A task, and the channel it takes. -/
structure ChannelTask (α μ : Type) where
  queue : List α
  /-- All senders are dropped. -/
  closed : Bool
  pc : TaskPc α
  forwarded : List μ

inductive TaskEvent (α : Type) where
  | send (data : α)
  | close
  | poll

namespace ChannelTask

section

variable {α μ : Type}

def new (pc : TaskPc α) : ChannelTask α μ := ⟨[], false, pc, []⟩

/-- `while let Some(data) = receiver.recv().await`, with what its body forwards, and where the task
is after it. -/
def whileLet (body : α → List μ) (done : TaskPc α) (t : ChannelTask α μ) :
    Option (ChannelTask α μ) :=
  match t.pc with
  | .recv =>
    match t.queue with
    | data :: rest => some { t with queue := rest, pc := .handle data }
    | [] => if t.closed then some { t with pc := done } else none
  | .handle data => some { t with forwarded := t.forwarded ++ body data, pc := .recv }
  | .loop | .exited => none

def step (task : ChannelTask α μ → Option (ChannelTask α μ)) (t : ChannelTask α μ) :
    TaskEvent α → Option (ChannelTask α μ)
  | .send data => if t.closed then none else some { t with queue := t.queue ++ [data] }
  | .close => some { t with closed := true }
  | .poll => task t

/-- What is put on the channel. -/
def puts (_ : ChannelTask α μ) : TaskEvent α → List α
  | .send data => [data]
  | _ => []

end

/-- A registration is forwarded, a termination only logged. -/
def createOrModify : NodeStatus → List CreateOrModify
  | .registration reg => [⟨reg.eui, reg.ip, reg.name⟩]
  | .termination _ _ => []

def spawnDbConnRegistryTask (t : ChannelTask NodeStatus CreateOrModify) :
    Option (ChannelTask NodeStatus CreateOrModify) :=
  t.whileLet createOrModify .exited

def spawnDbConnSensorStreamTask (t : ChannelTask NodeSensorReading NodeSensorReading) :
    Option (ChannelTask NodeSensorReading NodeSensorReading) :=
  match t.pc with
  | .loop => some { t with pc := .recv }
  | _ => t.whileLet (fun data => [data]) .loop

end ChannelTask

end Pmind
