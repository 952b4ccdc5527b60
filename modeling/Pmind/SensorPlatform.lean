import Mathlib.Data.List.InsertIdx
import Pmind.Drivers

/-!
# `sensor_read`

The platform reads its sensors one after another into one buffer, each behind what the last has
written, and decodes what a sensor wrote as the record of the slot the sensor is in.
-/

namespace Pmind

open Buffer

variable {I2C : Type} [I2c I2C]

inductive Sensor (I2C : Type) where
  | atsamd10 (s : ATSAMD10 I2C)
  | probeCircuit (s : ProbeCircuit)
  | tsl2591 (s : TSL2591 I2C)
  | bme680 (s : BME680)
  | sht40 (s : SHT40)

def Sensor.read (json : RecordJson) (buffer : List UInt8) (start : ℕ) :
    Sensor I2C → Option (ReadResult × Sensor I2C × List UInt8)
  | .atsamd10 s => (s.read json buffer start).map fun (res, s, buffer) => (res, .atsamd10 s, buffer)
  | .probeCircuit s =>
    (s.read buffer start).map fun (res, s, buffer) => (res, .probeCircuit s, buffer)
  | .tsl2591 s => (s.read json buffer start).map fun (res, s, buffer) => (res, .tsl2591 s, buffer)
  | .bme680 s => (s.read json buffer start).map fun (res, s, buffer) => (res, .bme680 s, buffer)
  | .sht40 s => (s.read json buffer start).map fun (res, s, buffer) => (res, .sht40 s, buffer)

abbrev SensorVec (I2C : Type) := List (Option (Sensor I2C))

def maxSensors : ℕ := 5

@[match_pattern] abbrev soilIdx : ℕ := 0

@[match_pattern] abbrev lightIdx1 : ℕ := 1

@[match_pattern] abbrev humIdx : ℕ := 2

/-! ## The sensors a node is built with -/

inductive SoilSensor (I2C : Type) where
  | atsamd10 (s : ATSAMD10 I2C)
  | probeCircuit (s : ProbeCircuit)

def SoilSensor.toSensor : SoilSensor I2C → Sensor I2C
  | .atsamd10 s => .atsamd10 s
  | .probeCircuit s => .probeCircuit s

inductive GasSensor where
  | bme680 (s : BME680)
  | sht40 (s : SHT40)

def GasSensor.toSensor : GasSensor → Sensor I2C
  | .bme680 s => .bme680 s
  | .sht40 s => .sht40 s

structure SensorConfig (I2C : Type) where
  soil : SoilSensor I2C
  light : Option (TSL2591 I2C)
  gas : Option GasSensor

def SensorConfig.sensors (c : SensorConfig I2C) : SensorVec I2C :=
  let sensors := (List.replicate maxSensors none).insertIdx soilIdx (some c.soil.toSensor)
  let sensors := match c.light with
    | some light => sensors.insertIdx lightIdx1 (some (.tsl2591 light))
    | none => sensors
  match c.gas with
  | some gas => sensors.insertIdx humIdx (some gas.toSensor)
  | none => sensors

/-! ## A pass over the sensors -/

structure Pass where
  d : SensorReading
  start : ℕ
  buffer : List UInt8

/-- The reading with what `text` is of the record of a slot. -/
def SensorReading.withRecord (json : RecordJson) (idx : ℕ) (d : SensorReading)
    (text : List UInt8) : SensorReading :=
  match idx with
  | soilIdx =>
    match json.soil.fromSlice text with
    | some soil => { d with soil }
    | none => d
  | lightIdx1 =>
    match json.light.fromSlice text with
    | some light => { d with light }
    | none => d
  | humIdx =>
    match json.gas.fromSlice text with
    | some gas => { d with gas }
    | none => d
  | _ => d

/-- Only what is in a slot that has a record is sliced out of the buffer. -/
def Pass.decode (json : RecordJson) (p : Pass) (idx size : ℕ) : Option SensorReading :=
  match idx with
  | soilIdx | lightIdx1 | humIdx =>
    (slice p.buffer p.start (p.start + size)).map (p.d.withRecord json idx)
  | _ => some p.d

def readSlot (json : RecordJson) (idx : ℕ) (s : Option (Sensor I2C)) (p : Pass) :
    Option (Option (Sensor I2C) × Pass) :=
  match s with
  | none => some (none, p)
  | some s =>
    match s.read json p.buffer p.start with
    | none => none
    | some (.error _, s, buffer) => some (some s, { p with buffer })
    | some (.ok size, s, buffer) =>
      ({ p with buffer }.decode json idx size).map fun d =>
        (some s, { d, start := p.start + size, buffer })

def readFrom (json : RecordJson) : ℕ → SensorVec I2C → Pass → Option (SensorVec I2C × Pass)
  | _, [], p => some ([], p)
  | idx, s :: sensors, p => do
    let (s, p) ← readSlot json idx s p
    let (sensors, p) ← readFrom json (idx + 1) sensors p
    return (s :: sensors, p)

/-- The reading that is reported of the sensors, with the sensors and the buffer after it. -/
def sensorRead (json : RecordJson) (sensors : SensorVec I2C) (buffer : List UInt8) :
    Option (Except PlatformSensorError SensorReading × SensorVec I2C × List UInt8) :=
  (readFrom json 0 sensors ⟨⟨⟨0, 0⟩, none, none, 0⟩, 0, buffer⟩).map fun (sensors, p) =>
    (.ok { p.d with ts := 0 }, sensors, p.buffer)

end Pmind
