import Mathlib.Data.Nat.Notation

/-!
# Sensor readings

The record a node reports, as it is sent in JSON and stored. Reading and writing the JSON text is
`serde_json`'s own, `SerdeJson`.
-/

namespace Pmind

structure Soil where
  moisture : UInt16
  temp : Float32

structure Light where
  fs : UInt16
  lux : Float32

structure Gas where
  temp : Float32
  p : Float32
  h : Float32
  gas : UInt32

structure SensorReading where
  soil : Soil
  light : Option Light
  gas : Option Gas
  ts : Int64

/-- `serde_json`'s `from_slice` and `to_vec` of a `SensorReading`. -/
structure SerdeJson where
  fromSlice : List UInt8 → Option SensorReading
  toVec : SensorReading → Option (List UInt8)

end Pmind
