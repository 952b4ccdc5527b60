import Pmind.Lib.Run
import Pmind.Platform

/-!
# The node's program

`init` starts a timer whose interrupt sets `SENSOR_TIMER_FIRED` and starts it again. An iteration of
the event loop takes the flag if the node is observed, and if it was set, reads the sensors and
sends what they give; then it takes what the socket has. If the reading or the sending fails, the
loop ends and `main` resets the chip. The interrupt may come between any two steps of this.
-/

namespace Pmind

/-- The milliseconds `init` sets the timer to. -/
def sensorTimerInterval : ℕ := 25000

inductive FirmwarePc where
  /-- At the flag. -/
  | timer
  /-- At `sensor_read`, with the flag taken. -/
  | sensorRead
  | receive
deriving DecidableEq

structure Firmware where
  platform : Esp32Platform
  /-- `SENSOR_TIMER_FIRED`. -/
  fired : Bool
  /-- The milliseconds until the timer fires. -/
  countdown : ℕ
  pc : FirmwarePc
deriving DecidableEq

inductive FirmwareEvent where
  /-- A millisecond passes. -/
  | millis
  /-- `SENSOR_TIMER_TG0_T0_LEVEL`. -/
  | interrupt
  | timer
  | sensorRead (reading : Option SensorReading) (sendOk : Bool)
  | receive (src : SocketAddrV6) (bytes : List UInt8) (sendOk : Bool)

/-- A reading that is to be sent and cannot be read or sent ends the loop. -/
def Esp32Platform.breaks (json : SerdeJson) (p : Esp32Platform) (reading : Option SensorReading)
    (sendOk : Bool) : Bool :=
  match p.observerAddr, reading with
  | none, _ => false
  | some _, some r => (json.toVec r).isSome && !sendOk
  | some _, none => true

namespace Firmware

def boot (p : Esp32Platform) : Firmware := ⟨p.reset, false, sensorTimerInterval, .timer⟩

/-- The loop's own step. -/
def loop (coap : CoapLite) (json : SerdeJson) (s : Firmware) (e : FirmwareEvent) :
    Option Firmware :=
  match s.pc, e with
  | .timer, .timer => some
    (if s.platform.observerAddr.isSome then
      { s with fired := false, pc := if s.fired then .sensorRead else .receive }
    else { s with pc := .receive })
  | .sensorRead, .sensorRead reading sendOk => some
    (if s.platform.breaks json reading sendOk then boot s.platform
    else { s with platform := (s.platform.report json reading sendOk).1, pc := .receive })
  | .receive, .receive src bytes sendOk => some
    { s with platform := (s.platform.receive coap src (bytes.take 512) sendOk).1, pc := .timer }
  | _, _ => none

def step (coap : CoapLite) (json : SerdeJson) (s : Firmware) : FirmwareEvent → Option Firmware
  | .millis => some { s with countdown := s.countdown - 1 }
  | .interrupt =>
    if s.countdown = 0 then some { s with fired := true, countdown := sensorTimerInterval }
    else none
  | e => if s.platform.halted then none else s.loop coap json e

/-- What a step sends of the sensors. -/
def reports (json : SerdeJson) (s : Firmware) : FirmwareEvent → List Datagram
  | .sensorRead reading sendOk => (s.platform.report json reading sendOk).2
  | _ => []

end Firmware

/-- What a step is to `Esp32Platform`. -/
def FirmwareEvent.loopEvents : FirmwareEvent → List LoopEvent
  | .sensorRead reading sendOk => [.sensor reading sendOk]
  | .receive src bytes sendOk => [.receive src bytes sendOk]
  | _ => []

end Pmind
