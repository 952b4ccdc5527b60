import Pmind.Lib.Run
import Pmind.Lib.Watchdog
import Pmind.Node

/-!
# The receive task in time

Each turn of the loop in `NodeEventHandler::new` arms a sleep of `DEFAULT_TIMEOUT` seconds, and
takes what comes first: that, or what the socket gives. A `Timeline` is what arrives at the socket
from when the loop starts, in nanoseconds, up to some time. Nothing in it happens at once with
anything else.
-/

namespace Pmind

def defaultTimeout : ℕ := 100 * 10 ^ 9

structure Arrival where
  time : ℕ
  /-- What `recv_from` gives: a datagram, with the date it is handled at, or an error. -/
  result : Option (Received × Int64)

namespace Arrival

def event (a : Arrival) : SocketEvent :=
  match a.result with
  | some (d, now) => .received d now
  | none => .error

/-- The times of the datagrams. -/
def beats (arrivals : List Arrival) : List ℕ :=
  (arrivals.filter fun a => a.result.isSome).map Arrival.time

def FailedBefore (arrivals : List Arrival) (x : ℕ) : Prop :=
  ∃ a ∈ arrivals, a.result = none ∧ a.time < x

instance (arrivals : List Arrival) (x : ℕ) : Decidable (FailedBefore arrivals x) :=
  decidable_of_iff (∃ a ∈ arrivals, a.result.isNone ∧ a.time < x) (by simp [FailedBefore])

end Arrival

structure Timeline where
  arrivals : List Arrival
  upTo : ℕ
  sorted : (0 :: arrivals.map Arrival.time).Pairwise (· < ·)
  inside : ∀ a ∈ arrivals, a.time ≤ upTo
  apart : ∀ u ∈ 0 :: Arrival.beats arrivals, ∀ a ∈ arrivals, a.time ≠ u + defaultTimeout

namespace NodeEventHandler

open Transition

/-- What the loop's `select!` comes to from the turn that begins at `since`. -/
def selects (upTo : ℕ) : (since : ℕ) → List Arrival → List SocketEvent
  | since, [] => if since + defaultTimeout ≤ upTo then [.timeout] else []
  | since, a :: arrivals =>
    if since + defaultTimeout < a.time then [.timeout]
    else
      match a.result with
      | some (d, now) => .received d now :: selects upTo a.time arrivals
      | none => [.error]

/-- What the task sends that has bound its socket to `addr`. -/
def messages (json : SerdeJson) (addr : SocketAddrV6) (t : Timeline) : List NodeEvent :=
  outputs step (sent json) (new addr) (.bind true :: selects t.upTo 0 t.arrivals)

end NodeEventHandler

/-! ## What the messages should be -/

/-- The message for a datagram, if its first bytes decode. -/
def Arrival.reading (json : SerdeJson) (a : Arrival) : Option NodeEvent :=
  a.result.bind fun (d, now) => (json.fromSlice (d.bytes.take bufferSize)).map fun data =>
    .sensorReading ⟨d.sender, { data with ts := now }⟩

namespace Timeline

variable (t : Timeline)

/-- By `x`, `DEFAULT_TIMEOUT` seconds have passed without a datagram since the start or the datagram
before. -/
def TimedOutBy (x : ℕ) : Prop :=
  ∃ u ∈ 0 :: Arrival.beats t.arrivals,
    Watchdog.Quiet defaultTimeout (Arrival.beats t.arrivals) u ∧ u + defaultTimeout ≤ x

instance (x : ℕ) : Decidable (t.TimedOutBy x) :=
  inferInstanceAs (Decidable (∃ u ∈ 0 :: Arrival.beats t.arrivals, _ ∧ _))

/-- What arrives before the task has ended. -/
def heard : List Arrival :=
  t.arrivals.filter fun a => ¬ t.TimedOutBy a.time ∧ ¬ Arrival.FailedBefore t.arrivals a.time

/-- The timeout passes before an error comes. -/
def TimesOut : Prop :=
  ∃ u ∈ 0 :: Arrival.beats t.arrivals,
    Watchdog.Quiet defaultTimeout (Arrival.beats t.arrivals) u ∧ u + defaultTimeout ≤ t.upTo
      ∧ ¬ Arrival.FailedBefore t.arrivals (u + defaultTimeout)

/-- An error comes before the timeout has passed. -/
def Fails : Prop := ∃ a ∈ t.arrivals, a.result = none ∧ ¬ t.TimedOutBy a.time

end Timeline

end Pmind
