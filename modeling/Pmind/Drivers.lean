import Pmind.Lib.Buffer
import Pmind.Sensor

/-!
# The sensors of a node

What a sensor's `read` measures, and what it writes of it to the buffer it is given: all but the
probe circuit write the JSON text of a record. A driver has its bus, `I2c`, and reads through it;
what the crates for the gas sensors answer and what the analog converter gives are data. A read is
none if it panics, which it does if what it writes is not within the buffer.
-/

namespace Pmind

open Buffer

inductive I2cError where
  | i2cReadError
  | i2cWriteError
  | i2cWriteReadError
deriving DecidableEq

inductive LightSensorError where
  | i2cError (e : I2cError)
  | setupError
  | sensorError
  | signalOverflow
deriving DecidableEq

inductive SoilSensorError where
  | i2cReadError
  | i2cWriteError
deriving DecidableEq

inductive PlatformSensorError where
  | soilSensorError (e : SoilSensorError)
  | lightSensorError (e : LightSensorError)
  | sensorSetup
  | other
deriving DecidableEq

/-- `serde_json`'s `to_vec` and `from_slice` of one type. -/
structure Codec (α : Type) where
  toVec : α → Option (List UInt8)
  fromSlice : List UInt8 → Option α

structure RecordJson where
  soil : Codec Soil
  light : Codec Light
  gas : Codec Gas

/-- `embedded_hal`'s trait: whether a transfer went through, and what was read by it. -/
class I2c (I2C : Type) where
  write : I2C → UInt8 → List UInt8 → Bool × I2C
  read : I2C → UInt8 → (n : ℕ) → Option (Vector UInt8 n) × I2C
  writeRead : I2C → UInt8 → List UInt8 → (n : ℕ) → Option (Vector UInt8 n) × I2C

abbrev ReadResult := Except PlatformSensorError ℕ

/-- How a sensor's `read` ends that has measured a record, or failed to. -/
def writeJson {α : Type} (codec : Codec α) (measured : Except PlatformSensorError α)
    (buffer : List UInt8) (start : ℕ) : Option (ReadResult × List UInt8) :=
  match measured with
  | .error e => some (.error e, buffer)
  | .ok reading =>
    match codec.toVec reading with
    | none => some (.error .other, buffer)
    | some text => (copyAt buffer start text).map fun buffer => (.ok text.length, buffer)

variable {I2C : Type} [I2c I2C]

/-! ## Soil -/

structure ATSAMD10 (I2C : Type) where
  address : UInt8
  i2c : I2C

namespace ATSAMD10

def readMoisture : List UInt8 := [0x0f, 0x10]

def readTemp : List UInt8 := [0x00, 0x04]

def readSensor (n : ℕ) (wBuffer : List UInt8) :
    ExceptT SoilSensorError (StateM (ATSAMD10 I2C)) (Vector UInt8 n) := do
  let self ← get
  let (ok, i2c) := I2c.write self.i2c self.address wBuffer
  set { self with i2c }
  unless ok do throw .i2cWriteError
  let (rBuffer, i2c) := I2c.read i2c self.address n
  set { self with i2c }
  match rBuffer with
  | some rBuffer => return rBuffer
  | none => throw .i2cReadError

def moisture : ExceptT SoilSensorError (StateM (ATSAMD10 I2C)) UInt16 := do
  let buffer ← readSensor 2 readMoisture
  return buffer[0].toUInt16 <<< 8 ||| buffer[1].toUInt16

/-- `as f32`, by the magnitude. -/
def asF32 (raw : Int32) : Float32 :=
  if raw < 0 then -(-raw).toUInt32.toFloat32 else raw.toUInt32.toFloat32

def temperature : ExceptT SoilSensorError (StateM (ATSAMD10 I2C)) Float32 := do
  let buffer ← readSensor 4 readTemp
  let raw := asF32 (buffer[0].toUInt32 <<< 24 ||| buffer[1].toUInt32 <<< 16
    ||| buffer[2].toUInt32 <<< 8 ||| buffer[3].toUInt32).toInt32
  let raw := ((1.0 : Float32) / asF32 ((1 : Int32) <<< 16)) * raw
  return (raw * 1.8) + 32.0

def measure : ExceptT PlatformSensorError (StateM (ATSAMD10 I2C)) Soil := do
  let temp ← temperature.adapt .soilSensorError
  let moisture ← moisture.adapt .soilSensorError
  return ⟨moisture, temp⟩

def read (json : RecordJson) (self : ATSAMD10 I2C) (buffer : List UInt8) (start : ℕ) :
    Option (ReadResult × ATSAMD10 I2C × List UInt8) :=
  let (measured, self) := measure.run.run self
  (writeJson json.soil measured buffer start).map fun (size, buffer) => (size, self, buffer)

end ATSAMD10

structure ProbeCircuit where
  /-- What the analog converter gives when it is read. -/
  adc1 : UInt16

namespace ProbeCircuit

def moisture (self : ProbeCircuit) : UInt16 := self.adc1

def toLeBytes (reading : UInt16) : List UInt8 := [reading.toUInt8, (reading >>> 8).toUInt8]

def read (self : ProbeCircuit) (buffer : List UInt8) (start : ℕ) :
    Option (ReadResult × ProbeCircuit × List UInt8) :=
  let bytes := toLeBytes self.moisture
  (copyAt buffer start bytes).map fun buffer => (.ok bytes.length, self, buffer)

end ProbeCircuit

/-! ## Light -/

inductive Tsl2591Error where
  | i2cError (e : I2cError)
  | setupError
  | sensorError
  | signalOverflow
deriving DecidableEq

def Tsl2591Error.toLightSensorError : Tsl2591Error → LightSensorError
  | .i2cError i => .i2cError i
  | .sensorError => .sensorError
  | .signalOverflow => .signalOverflow
  | .setupError => .setupError

inductive Gain where
  | low
  | medium
  | high
  | max
deriving DecidableEq

def Gain.bits : Gain → UInt8
  | .low => 0
  | .medium => 0x10
  | .high => 0x20
  | .max => 0x30

inductive Mode where
  | fullSpectrum
  | infrared
  | visible
deriving DecidableEq

inductive IntegrationTime where
  | intTime100
  | intTime200
  | intTime300
  | intTime400
  | intTime500
  | intTime600
deriving DecidableEq

def IntegrationTime.bits : IntegrationTime → UInt8
  | .intTime100 => 0x0
  | .intTime200 => 0x1
  | .intTime300 => 0x2
  | .intTime400 => 0x3
  | .intTime500 => 0x4
  | .intTime600 => 0x5

structure TSL2591 (I2C : Type) where
  address : UInt8
  i2c : I2C
  gain : Gain
  intTime : IntegrationTime
  faultCount : UInt32

namespace TSL2591

/-- `COMMAND_BIT | CONTROL`. -/
def cmdCtrlSet : UInt8 := 0xa0 ||| 0x01

/-- `COMMAND_BIT | ENABLE`. -/
def cmdEnableSet : UInt8 := 0xa0 ||| 0x00

/-- `ENABLE_POWERON | ENABLE_AEN | ENABLE_AIEN | ENABLE_NPIEN`. -/
def enableFlags : UInt8 := 0x01 ||| 0x02 ||| 0x10 ||| 0x80

def enablePoweroff : UInt8 := 0x00

/-- `COMMAND_BIT | CHAN0_LOW`. -/
def cmdChan0LowData : UInt8 := 0xa0 ||| 0x14

def luxDf : Float32 := 408.0

def faultThreshold : UInt32 := 5

def enable : ExceptT I2cError (StateM (TSL2591 I2C)) Unit := do
  let self ← get
  let (ok, i2c) := I2c.write self.i2c self.address [cmdEnableSet, enableFlags]
  set { self with i2c }
  unless ok do throw .i2cWriteError

def disable : ExceptT I2cError (StateM (TSL2591 I2C)) Unit := do
  let self ← get
  let (ok, i2c) := I2c.write self.i2c self.address [cmdEnableSet, enablePoweroff]
  set { self with i2c }
  unless ok do throw .i2cWriteError

/-- The mode is a field that no function reads, and is left out. -/
def setMode (_mode : Mode) : StateM (TSL2591 I2C) Unit := pure ()

def setGain (gain : Gain) : ExceptT I2cError (StateM (TSL2591 I2C)) Unit := do
  let self ← get
  let (ok, i2c) := I2c.write self.i2c self.address [cmdCtrlSet, self.intTime.bits ||| gain.bits]
  set { self with i2c }
  unless ok do throw .i2cWriteError

def setTiming (intTime : IntegrationTime) : ExceptT I2cError (StateM (TSL2591 I2C)) Unit := do
  let self ← get
  let (ok, i2c) := I2c.write self.i2c self.address [cmdCtrlSet, intTime.bits ||| self.gain.bits]
  set { self with i2c }
  unless ok do throw .i2cWriteError

/-- `Gain::default` and `IntegrationTime::default` are what the driver starts with, and sets. -/
def new (i2c : I2C) (address : UInt8) : Except I2cError (TSL2591 I2C) :=
  let init : ExceptT I2cError (StateM (TSL2591 I2C)) Unit := do
    enable
    setTiming .intTime300
    setGain .medium
  let (res, sensor) := init.run.run ⟨address, i2c, .medium, .intTime300, 0⟩
  res.map fun _ => sensor

def configure (gain : Option Gain) (intTime : Option IntegrationTime) :
    ExceptT Tsl2591Error (StateM (TSL2591 I2C)) Unit := do
  if let some gain := gain then
    (setGain gain).adapt .i2cError
    modify fun self => { self with gain }
  if let some intTime := intTime then
    (setTiming intTime).adapt .i2cError
    modify fun self => { self with intTime }

def getChannelData : ExceptT I2cError (StateM (TSL2591 I2C)) UInt32 := do
  let self ← get
  let (data, i2c) := I2c.writeRead self.i2c self.address [cmdChan0LowData] 4
  set { self with i2c }
  match data with
  | some data => return data[0].toUInt32 ||| data[1].toUInt32 <<< 8 ||| data[2].toUInt32 <<< 16
      ||| data[3].toUInt32 <<< 24
  | none => throw .i2cWriteReadError

/-- A measurement that cannot be right is counted. -/
def fault {α : Type} : ExceptT Tsl2591Error (StateM (TSL2591 I2C)) α := do
  modify fun self => { self with faultCount := self.faultCount + 1 }
  throw .signalOverflow

def getLuminosity (channel : Mode) : ExceptT Tsl2591Error (StateM (TSL2591 I2C)) UInt16 := do
  let fullLuminosity ← getChannelData.adapt .i2cError
  let full := (fullLuminosity &&& 0xffff).toUInt16
  let infra := (fullLuminosity >>> 16).toUInt16
  match channel with
  | .visible => if full < infra then fault else return full - infra
  | .infrared => return infra
  | .fullSpectrum => return full

def getIntTimeFloat : IntegrationTime → Float32
  | .intTime100 => 100.0
  | .intTime200 => 200.0
  | .intTime300 => 300.0
  | .intTime400 => 400.0
  | .intTime500 => 500.0
  | .intTime600 => 600.0

def getGainFloat : Gain → Float32
  | .low => 1.0
  | .medium => 25.0
  | .high => 428.0
  | .max => 9876.0

def getLux : ExceptT Tsl2591Error (StateM (TSL2591 I2C)) Float32 := do
  let fullLuminosity ← getChannelData.adapt .i2cError
  let infra := ((fullLuminosity >>> 16) &&& 0xffff).toFloat32
  let full := (fullLuminosity &&& 0xffff).toFloat32
  if full.toUInt16 = 0xffff ∨ infra.toUInt16 = 0xffff then fault else
  let self ← get
  let check := (getIntTimeFloat self.intTime * getGainFloat self.gain) / luxDf
  if full < infra ∨ full == 0.0 then fault else
  return (full - infra) * (1.0 - (infra / full)) / check

def adjustForBrightLight : ExceptT Tsl2591Error (StateM (TSL2591 I2C)) Unit :=
  configure (some .low) (some .intTime100)

def adjustForMidLight : ExceptT Tsl2591Error (StateM (TSL2591 I2C)) Unit :=
  configure (some .medium) (some .intTime300)

def adjustForLowLight : ExceptT Tsl2591Error (StateM (TSL2591 I2C)) Unit :=
  configure (some .high) (some .intTime500)

def adjustForUltraLowLight : ExceptT Tsl2591Error (StateM (TSL2591 I2C)) Unit :=
  configure (some .max) (some .intTime600)

def adjustForCurrentLight : ExceptT Tsl2591Error (StateM (TSL2591 I2C)) Unit := do
  match (← get).gain with
  | .low => adjustForMidLight
  | .medium => adjustForLowLight
  | .high => adjustForUltraLowLight
  | .max => adjustForBrightLight
  modify fun self => { self with faultCount := 0 }

def faultCountThreshold (self : TSL2591 I2C) : Bool := self.faultCount ≥ faultThreshold

def measure : ExceptT PlatformSensorError (StateM (TSL2591 I2C)) Light :=
  ExceptT.adapt (fun e => .lightSensorError e.toLightSensorError) do
    if (← get).faultCountThreshold then adjustForCurrentLight
    let fs ← getLuminosity .fullSpectrum
    let lux ← getLux
    return ⟨fs, lux⟩

def read (json : RecordJson) (self : TSL2591 I2C) (buffer : List UInt8) (start : ℕ) :
    Option (ReadResult × TSL2591 I2C × List UInt8) :=
  let (measured, self) := measure.run.run self
  (writeJson json.light measured buffer start).map fun (size, buffer) => (size, self, buffer)

end TSL2591

/-! ## Humidity and gas -/

/-- What the `bme680` crate has measured. -/
structure FieldData where
  temperatureCelsius : Float32
  humidityPercent : Float32
  gasResistanceOhm : UInt32
  pressureHpa : Float32

/-- The sensor, by what its crate answers to `get_sensor_data` and `set_sensor_mode`. -/
structure BME680 where
  getSensorData : Option FieldData
  setSensorMode : Bool

namespace BME680

def readSensor (self : BME680) : Except PlatformSensorError Gas :=
  match self.getSensorData with
  | none => .error .other
  | some data =>
    let temp := (data.temperatureCelsius * 1.8) + 32.0
    if self.setSensorMode then
      .ok ⟨temp, data.pressureHpa, data.humidityPercent, data.gasResistanceOhm⟩
    else .error .other

def read (json : RecordJson) (self : BME680) (buffer : List UInt8) (start : ℕ) :
    Option (ReadResult × BME680 × List UInt8) :=
  (writeJson json.gas self.readSensor buffer start).map fun (size, buffer) => (size, self, buffer)

end BME680

/-- What the `sht4x` crate has measured. -/
structure Measurement where
  temperatureCelsius : Float32
  humidityPercent : Float32

/-- The sensor, by what its crate answers to `measure`. -/
structure SHT40 where
  measure : Option Measurement

namespace SHT40

def readSensor (self : SHT40) : Except PlatformSensorError Gas :=
  match self.measure with
  | none => .error .other
  | some data => .ok ⟨(data.temperatureCelsius * 1.8) + 32.0, 0.0, data.humidityPercent, 0⟩

def read (json : RecordJson) (self : SHT40) (buffer : List UInt8) (start : ℕ) :
    Option (ReadResult × SHT40 × List UInt8) :=
  (writeJson json.gas self.readSensor buffer start).map fun (size, buffer) => (size, self, buffer)

end SHT40

end Pmind
