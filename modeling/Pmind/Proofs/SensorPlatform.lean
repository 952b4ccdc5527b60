import Pmind.SensorPlatform

/-!
# What a pass over the sensors reports

A sensor writes to its own part of the buffer, and there alone the platform reads its record, so
what the reading has of a slot is what that slot's sensor wrote (`readFrom_eq`). That is the record
the sensor measured if it was written as JSON, which the probe circuit's is not.
-/

namespace Pmind

open Buffer

variable {I2C : Type} [I2c I2C] {json : RecordJson}

/-! ## What a sensor writes -/

def ATSAMD10.measured (s : ATSAMD10 I2C) : Except PlatformSensorError Soil := (measure.run.run s).1

def TSL2591.measured (s : TSL2591 I2C) : Except PlatformSensorError Light := (measure.run.run s).1

theorem ATSAMD10.read_eq (s : ATSAMD10 I2C) (buffer : List UInt8) (start : ℕ) :
    s.read json buffer start = (writeJson json.soil s.measured buffer start).map
      fun (size, buffer) => (size, (measure.run.run s).2, buffer) := rfl

theorem TSL2591.read_eq (s : TSL2591 I2C) (buffer : List UInt8) (start : ℕ) :
    s.read json buffer start = (writeJson json.light s.measured buffer start).map
      fun (size, buffer) => (size, (measure.run.run s).2, buffer) := rfl

def GasSensor.measured : GasSensor → Except PlatformSensorError Gas
  | .bme680 s => s.readSensor
  | .sht40 s => s.readSensor

/-- What a sensor writes of the record it measured. -/
def Codec.written {α : Type} (codec : Codec α) (measured : Except PlatformSensorError α) :
    Option (List UInt8) :=
  measured.toOption.bind codec.toVec

theorem writeJson_of_none {α : Type} {codec : Codec α} {measured : Except PlatformSensorError α}
    (h : codec.written measured = none) (buffer : List UInt8) (start : ℕ) :
    ∃ e, writeJson codec measured buffer start = some (.error e, buffer) := by
  rcases measured with e | reading
  · exact ⟨e, rfl⟩
  · have hnone : codec.toVec reading = none := h
    exact ⟨.other, by simp [writeJson, hnone]⟩

theorem writeJson_of_some {α : Type} {codec : Codec α} {measured : Except PlatformSensorError α}
    {text buffer buffer' : List UInt8} {start : ℕ} (h : codec.written measured = some text)
    (hcopy : copyAt buffer start text = some buffer') :
    writeJson codec measured buffer start = some (.ok text.length, buffer') := by
  rcases measured with e | reading
  · cases h
  · have hsome : codec.toVec reading = some text := h
    simp [writeJson, hsome, hcopy]

namespace Sensor

/-- What a sensor's read writes, if it succeeds. -/
def written (json : RecordJson) : Sensor I2C → Option (List UInt8)
  | .atsamd10 s => json.soil.written s.measured
  | .probeCircuit s => some (ProbeCircuit.toLeBytes s.moisture)
  | .tsl2591 s => json.light.written s.measured
  | .bme680 s => json.gas.written s.readSensor
  | .sht40 s => json.gas.written s.readSensor

theorem read_of_none {s : Sensor I2C} (h : s.written json = none) (buffer : List UInt8)
    (start : ℕ) : ∃ e s', s.read json buffer start = some (.error e, s', buffer) := by
  rcases s with s | s | s | s | s
  · obtain ⟨e, hw⟩ := writeJson_of_none h buffer start
    exact ⟨e, _, by simp only [read, ATSAMD10.read_eq, hw]; rfl⟩
  · cases h
  · obtain ⟨e, hw⟩ := writeJson_of_none h buffer start
    exact ⟨e, _, by simp only [read, TSL2591.read_eq, hw]; rfl⟩
  · obtain ⟨e, hw⟩ := writeJson_of_none h buffer start
    exact ⟨e, _, by simp only [read, BME680.read, hw]; rfl⟩
  · obtain ⟨e, hw⟩ := writeJson_of_none h buffer start
    exact ⟨e, _, by simp only [read, SHT40.read, hw]; rfl⟩

theorem read_of_some {s : Sensor I2C} {bytes buffer buffer' : List UInt8} {start : ℕ}
    (h : s.written json = some bytes) (hcopy : copyAt buffer start bytes = some buffer') :
    ∃ s', s.read json buffer start = some (.ok bytes.length, s', buffer') := by
  rcases s with s | s | s | s | s
  · exact ⟨_, by simp only [read, ATSAMD10.read_eq, writeJson_of_some h hcopy]; rfl⟩
  · cases h
    exact ⟨_, by simp only [read, ProbeCircuit.read, hcopy]; rfl⟩
  · exact ⟨_, by simp only [read, TSL2591.read_eq, writeJson_of_some h hcopy]; rfl⟩
  · exact ⟨_, by simp only [read, BME680.read, writeJson_of_some h hcopy]; rfl⟩
  · exact ⟨_, by simp only [read, SHT40.read, writeJson_of_some h hcopy]; rfl⟩

end Sensor

theorem GasSensor.written_toSensor (s : GasSensor) :
    (s.toSensor : Sensor I2C).written json = json.gas.written s.measured := by
  rcases s with s | s <;> rfl

/-! ## A pass -/

/-- What the sensor in a slot writes. -/
def slotWritten (json : RecordJson) (s : Option (Sensor I2C)) : Option (List UInt8) :=
  s.bind (Sensor.written json)

/-- The reading with the records of the slots from `idx` on. -/
def SensorReading.withRecords (json : RecordJson) : ℕ → List (Option (List UInt8)) →
    SensorReading → SensorReading
  | _, [], d => d
  | idx, text :: texts, d => withRecords json (idx + 1) texts (text.elim d (d.withRecord json idx))

/-- How much of the buffer the slots take up. -/
def room : List (Option (List UInt8)) → ℕ
  | [] => 0
  | text :: texts => text.elim 0 List.length + room texts

theorem decode_eq {p : Pass} {idx size : ℕ} {text : List UInt8}
    (h : slice p.buffer p.start (p.start + size) = some text) :
    p.decode json idx size = some (p.d.withRecord json idx text) := by
  rcases idx with _ | _ | _ | idx
  · simp [Pass.decode, h]
  · simp [Pass.decode, h]
  · simp [Pass.decode, h]
  · rfl

theorem readSlot_eq (idx : ℕ) (s : Option (Sensor I2C)) (p : Pass)
    (hroom : p.start + (slotWritten json s).elim 0 List.length ≤ p.buffer.length) :
    ∃ s' buffer, buffer.length = p.buffer.length ∧ readSlot json idx s p = some (s',
      { d := (slotWritten json s).elim p.d (p.d.withRecord json idx)
        start := p.start + (slotWritten json s).elim 0 List.length
        buffer }) := by
  rcases s with _ | s
  · exact ⟨none, p.buffer, rfl, rfl⟩
  rcases hw : s.written json with _ | bytes
  · obtain ⟨e, s', hread⟩ := Sensor.read_of_none hw p.buffer p.start
    exact ⟨some s', p.buffer, rfl, by simp [readSlot, hread, slotWritten, hw]⟩
  · have hlen : p.start + bytes.length ≤ p.buffer.length := by
      simpa [slotWritten, hw] using hroom
    obtain ⟨buffer, hcopy⟩ := exists_copyAt hlen
    obtain ⟨s', hread⟩ := Sensor.read_of_some hw hcopy
    have hdecode : { p with buffer }.decode json idx bytes.length
        = some (p.d.withRecord json idx bytes) := decode_eq (slice_copyAt hcopy)
    exact ⟨some s', buffer, length_copyAt hcopy, by
      simp [readSlot, hread, hdecode, slotWritten, hw]⟩

/-- With room for what all of them write, a pass gives of each slot what its own sensor wrote. -/
theorem readFrom_eq : ∀ (sensors : SensorVec I2C) (idx : ℕ) (p : Pass),
    p.start + room (sensors.map (slotWritten json)) ≤ p.buffer.length →
      ∃ sensors' p', readFrom json idx sensors p = some (sensors', p')
        ∧ p'.d = p.d.withRecords json idx (sensors.map (slotWritten json))
  | [], _, p, _ => ⟨[], p, rfl, rfl⟩
  | s :: sensors, idx, p, hroom => by
    rw [List.map_cons, room, ← Nat.add_assoc] at hroom
    obtain ⟨s', buffer, hlen, hslot⟩ :=
      readSlot_eq idx s p (Nat.le_trans (Nat.le_add_right _ _) hroom)
    rw [← hlen] at hroom
    obtain ⟨sensors', p', hrest, hd⟩ := readFrom_eq sensors (idx + 1)
      { d := (slotWritten json s).elim p.d (p.d.withRecord json idx)
        start := p.start + (slotWritten json s).elim 0 List.length
        buffer } hroom
    refine ⟨s' :: sensors', p', ?_, hd⟩
    simp [readFrom, hslot, hrest]

theorem withRecord_soil (d : SensorReading) (text : Option (List UInt8)) :
    text.elim d (d.withRecord json soilIdx)
      = { d with soil := (text.bind json.soil.fromSlice).getD d.soil } := by
  rcases text with _ | text
  · rfl
  · simp only [Option.elim_some, Option.bind_some, SensorReading.withRecord]
    rcases json.soil.fromSlice text <;> rfl

theorem withRecord_light (d : SensorReading) (text : Option (List UInt8)) :
    text.elim d (d.withRecord json lightIdx1)
      = { d with light := (text.bind json.light.fromSlice).or d.light } := by
  rcases text with _ | text
  · rfl
  · simp only [Option.elim_some, Option.bind_some, SensorReading.withRecord]
    rcases json.light.fromSlice text <;> rfl

theorem withRecord_gas (d : SensorReading) (text : Option (List UInt8)) :
    text.elim d (d.withRecord json humIdx)
      = { d with gas := (text.bind json.gas.fromSlice).or d.gas } := by
  rcases text with _ | text
  · rfl
  · simp only [Option.elim_some, Option.bind_some, SensorReading.withRecord]
    rcases json.gas.fromSlice text <;> rfl

theorem withRecords_replicate : ∀ (n idx : ℕ) (d : SensorReading),
    d.withRecords json idx (List.replicate n none) = d
  | 0, _, _ => rfl
  | n + 1, idx, d => withRecords_replicate n (idx + 1) d

theorem withRecords_eq (soil light gas : Option (List UInt8)) (n : ℕ) (d : SensorReading) :
    d.withRecords json soilIdx (soil :: light :: gas :: List.replicate n none)
      = { d with
        soil := (soil.bind json.soil.fromSlice).getD d.soil
        light := (light.bind json.light.fromSlice).or d.light
        gas := (gas.bind json.gas.fromSlice).or d.gas } := by
  rw [SensorReading.withRecords, withRecord_soil, SensorReading.withRecords, withRecord_light,
    SensorReading.withRecords, withRecord_gas, withRecords_replicate]

theorem SensorConfig.sensors_eq {I2C : Type} (c : SensorConfig I2C) : ∃ n, c.sensors
    = some c.soil.toSensor :: c.light.map Sensor.tsl2591 :: c.gas.map GasSensor.toSensor
      :: List.replicate n none := by
  rcases c with ⟨soil, _ | light, _ | gas⟩
  · exact ⟨3, rfl⟩
  · exact ⟨4, rfl⟩
  · exact ⟨4, rfl⟩
  · exact ⟨5, rfl⟩

/-! ## What is reported -/

def Soil.Finite (r : Soil) : Prop := r.temp.isFinite = true

def Light.Finite (r : Light) : Prop := r.lux.isFinite = true

def Gas.Finite (r : Gas) : Prop :=
  r.temp.isFinite = true ∧ r.p.isFinite = true ∧ r.h.isFinite = true

/-- An object or an array that is not empty, with nothing but white space around it. -/
def JsonText (text : List UInt8) : Prop :=
  ∃ pre body post, (text = pre ++ 0x7b :: body ++ 0x7d :: post
      ∨ text = pre ++ 0x5b :: body ++ 0x5d :: post)
    ∧ body ≠ [] ∧ ∀ b ∈ pre ++ post, b ∈ [0x20, 0x09, 0x0a, 0x0d]

/-- What is encoded of a finite record is decoded to it, and nothing is decoded but JSON. -/
structure Codec.Lawful {α : Type} (codec : Codec α) (Finite : α → Prop) : Prop where
  decodes : ∀ r text, Finite r → codec.toVec r = some text → codec.fromSlice text = some r
  texts : ∀ text r, codec.fromSlice text = some r → JsonText text

structure RecordJson.Lawful (json : RecordJson) : Prop where
  soil : json.soil.Lawful Soil.Finite
  light : json.light.Lawful Light.Finite
  gas : json.gas.Lawful Gas.Finite

/-- The record a sensor measured, if its read succeeds. -/
def Codec.recorded {α : Type} (codec : Codec α) (measured : Except PlatformSensorError α) :
    Option α :=
  measured.toOption.filter fun r => (codec.toVec r).isSome

theorem Codec.Lawful.written_bind {α : Type} {codec : Codec α} {Finite : α → Prop}
    (h : codec.Lawful Finite) {measured : Except PlatformSensorError α}
    (hfinite : ∀ r, measured = .ok r → Finite r) :
    (codec.written measured).bind codec.fromSlice = codec.recorded measured := by
  rcases measured with e | r
  · rfl
  · rcases ht : codec.toVec r with _ | text
    · simp [written, recorded, Except.toOption, Option.filter, ht]
    · simp [written, recorded, Except.toOption, Option.filter, ht,
        h.decodes r text (hfinite r rfl) ht]

theorem JsonText.two_lt_length {text : List UInt8} (h : JsonText text) : 2 < text.length := by
  obtain ⟨pre, body, post, htext, hbody, -⟩ := h
  have hpos := List.length_pos_iff.mpr hbody
  rcases htext with rfl | rfl <;> simp only [List.length_append, List.length_cons] <;> omega

namespace SensorConfig

/-- No sensor measures an infinite value, or none at all. -/
structure Finite (c : SensorConfig I2C) : Prop where
  soil : ∀ s r, c.soil = .atsamd10 s → s.measured = .ok r → r.Finite
  light : ∀ s r, c.light = some s → s.measured = .ok r → r.Finite
  gas : ∀ s r, c.gas = some s → s.measured = .ok r → r.Finite

/-- The reading has of each sensor what it measured, and the default if its read failed. -/
def Exact (json : RecordJson) (c : SensorConfig I2C) (d : SensorReading) : Prop :=
  (match c.soil with
    | .atsamd10 s => d.soil = (json.soil.recorded s.measured).getD ⟨0, 0⟩
    | .probeCircuit s => d.soil.moisture = s.moisture)
  ∧ d.light = c.light.bind (fun s => json.light.recorded s.measured)
  ∧ d.gas = c.gas.bind fun s => json.gas.recorded s.measured

theorem sensorRead_eq (json : RecordJson) (c : SensorConfig I2C) (buffer : List UInt8)
    (hroom : room (c.sensors.map (slotWritten json)) ≤ buffer.length) :
    ∃ sensors buffer', sensorRead json c.sensors buffer = some (.ok
      ⟨((c.soil.toSensor.written json).bind json.soil.fromSlice).getD ⟨0, 0⟩,
        (c.light.bind fun s => json.light.written s.measured).bind json.light.fromSlice,
        (c.gas.bind fun s => json.gas.written s.measured).bind json.gas.fromSlice, 0⟩,
      sensors, buffer') := by
  obtain ⟨sensors, p, hrun, hd⟩ := readFrom_eq c.sensors 0
    ⟨⟨⟨0, 0⟩, none, none, 0⟩, 0, buffer⟩ (by rw [Nat.zero_add]; exact hroom)
  obtain ⟨n, hsensors⟩ := c.sensors_eq
  have hfields : p.d = ⟨((c.soil.toSensor.written json).bind json.soil.fromSlice).getD ⟨0, 0⟩,
      (c.light.bind fun s => json.light.written s.measured).bind json.light.fromSlice,
      (c.gas.bind fun s => json.gas.written s.measured).bind json.gas.fromSlice, 0⟩ := by
    rw [hd, hsensors, List.map_cons, List.map_cons, List.map_cons, List.map_replicate]
    simp only [slotWritten, Option.bind_none, Option.bind_some, withRecords_eq, Option.or_none,
      Option.bind_map]
    have hgas : (Sensor.written json : Sensor I2C → _) ∘ GasSensor.toSensor
        = fun s => json.gas.written s.measured := funext GasSensor.written_toSensor
    rw [hgas]
    rfl
  exact ⟨sensors, p.buffer, by simp [sensorRead, hrun, hfields]⟩

/-- With room for what the sensors write, and records that JSON can carry, a pass ends with a
reading that has of each sensor exactly what it measured, or the default if its read failed, exactly
if no probe circuit has measured moisture. -/
theorem exact_iff (json : RecordJson) (hjson : json.Lawful) (c : SensorConfig I2C)
    (hfinite : c.Finite) (buffer : List UInt8)
    (hroom : room (c.sensors.map (slotWritten json)) ≤ buffer.length) :
    ∃ d sensors buffer', sensorRead json c.sensors buffer = some (.ok d, sensors, buffer')
      ∧ (c.Exact json d ↔ ∀ s, c.soil = .probeCircuit s → s.moisture = 0) := by
  obtain ⟨sensors, buffer', hread⟩ := sensorRead_eq json c buffer hroom
  refine ⟨_, sensors, buffer', hread, ?_⟩
  have hlight : (c.light.bind fun s => json.light.written s.measured).bind json.light.fromSlice
      = c.light.bind fun s => json.light.recorded s.measured := by
    rcases hl : c.light with _ | s
    · rfl
    · exact hjson.light.written_bind fun r => hfinite.light s r hl
  have hgas : (c.gas.bind fun s => json.gas.written s.measured).bind json.gas.fromSlice
      = c.gas.bind fun s => json.gas.recorded s.measured := by
    rcases hg : c.gas with _ | s
    · rfl
    · exact hjson.gas.written_bind fun r => hfinite.gas s r hg
  simp only [Exact, hlight, hgas, and_true]
  rcases hs : c.soil with s | s
  · refine iff_of_true ?_ nofun
    exact congrArg (Option.getD · ⟨0, 0⟩) (hjson.soil.written_bind fun r => hfinite.soil s r hs)
  · -- two bytes are no JSON text
    have hnone : json.soil.fromSlice (ProbeCircuit.toLeBytes s.moisture) = none := by
      rcases h : json.soil.fromSlice (ProbeCircuit.toLeBytes s.moisture) with _ | r
      · rfl
      · exact absurd (hjson.soil.texts _ r h).two_lt_length (by simp [ProbeCircuit.toLeBytes])
    simp only [SoilSensor.toSensor, Sensor.written, Option.bind_some, hnone, Option.getD_none,
      SoilSensor.probeCircuit.injEq, forall_eq']
    exact eq_comm

/-- A bus on which every write goes through, and the reads get these answers while there are. -/
structure Bus where
  answers : List (List UInt8)

def Bus.answer (bus : Bus) (n : ℕ) : Option (Vector UInt8 n) × Bus :=
  match bus.answers with
  | [] => (none, bus)
  | bytes :: answers => (if h : bytes.length = n then some ⟨bytes.toArray, h⟩ else none, ⟨answers⟩)

instance : I2c Bus where
  write bus _ _ := (true, bus)
  read bus _ n := bus.answer n
  writeRead bus _ _ n := bus.answer n

def soilText : List UInt8 := "\x7b\"moisture\":700,\"temp\":32.0\x7d".toUTF8.toList

def gasText : List UInt8 :=
  "\x7b\"temp\":32.0,\"p\":0.0,\"h\":50.0,\"gas\":0\x7d".toUTF8.toList

/-- What `serde_json` makes of one record of the soil, and of one of the air. -/
def recordJson : RecordJson where
  soil := ⟨fun r => if r.moisture = 700 ∧ r.temp = 32 then some soilText else none,
    fun text => if text = soilText then some ⟨700, 32⟩ else none⟩
  light := ⟨fun _ => none, fun _ => none⟩
  gas := ⟨fun r => if r.temp = 32 ∧ r.p = 0 ∧ r.h = 50 ∧ r.gas = 0 then some gasText else none,
    fun text => if text = gasText then some ⟨32, 0, 50, 0⟩ else none⟩

theorem jsonText_soilText : JsonText soilText :=
  ⟨[], soilText.tail.dropLast, [], Or.inl (by decide +kernel), by decide +kernel, by simp⟩

theorem jsonText_gasText : JsonText gasText :=
  ⟨[], gasText.tail.dropLast, [], Or.inl (by decide +kernel), by decide +kernel, by simp⟩

theorem lawful_recordJson : recordJson.Lawful where
  soil := by
    refine ⟨?_, ?_⟩
    · rintro ⟨moisture, temp⟩ text - h
      simp only [recordJson, Option.ite_none_right_eq_some, Option.some.injEq] at h
      obtain ⟨⟨rfl, rfl⟩, rfl⟩ := h
      simp [recordJson]
    · intro text r h
      obtain ⟨rfl, -⟩ := Option.ite_none_right_eq_some.mp h
      exact jsonText_soilText
  light := ⟨nofun, nofun⟩
  gas := by
    refine ⟨?_, ?_⟩
    · rintro ⟨temp, p, h, gas⟩ text - ht
      simp only [recordJson, Option.ite_none_right_eq_some, Option.some.injEq] at ht
      obtain ⟨⟨rfl, rfl, rfl, rfl⟩, rfl⟩ := ht
      simp [recordJson]
    · intro text r h
      obtain ⟨rfl, -⟩ := Option.ite_none_right_eq_some.mp h
      exact jsonText_gasText

instance (r : Soil) : Decidable r.Finite := inferInstanceAs (Decidable (_ = true))

instance (r : Gas) : Decidable r.Finite := inferInstanceAs (Decidable (_ ∧ _))

/-- A soil sensor, a light sensor that cannot be read, and one of the air's humidity. -/
def jsonConfig : SensorConfig Bus :=
  ⟨.atsamd10 ⟨0x36, ⟨[[0, 0, 0, 0], [0x02, 0xbc]]⟩⟩,
    some ⟨0x29, ⟨[]⟩, .medium, .intTime300, 0⟩, some (.sht40 ⟨some ⟨0, 50⟩⟩)⟩

def probeConfig : SensorConfig Bus := ⟨.probeCircuit ⟨700⟩, none, none⟩

theorem exact_json : ∃ d sensors buffer, sensorRead recordJson jsonConfig.sensors
    (List.replicate 127 0) = some (.ok d, sensors, buffer) ∧ jsonConfig.Exact recordJson d := by
  have hfinite : jsonConfig.Finite := by
    refine ⟨?_, ?_, ?_⟩
    · rintro s r hs hr
      cases hs
      cases hr
      decide +kernel
    · rintro s r hs hr
      cases hs
      cases hr
    · rintro s r hs hr
      cases hs
      cases hr
      decide +kernel
  obtain ⟨d, sensors, buffer, hread, hexact⟩ := exact_iff recordJson lawful_recordJson jsonConfig
    hfinite (List.replicate 127 0) (by decide +kernel)
  exact ⟨d, sensors, buffer, hread, hexact.mpr nofun⟩

theorem not_exact : ∃ d sensors buffer, sensorRead recordJson probeConfig.sensors
    (List.replicate 127 0) = some (.ok d, sensors, buffer) ∧ d.soil.moisture = 0
      ∧ ¬ probeConfig.Exact recordJson d := by
  obtain ⟨sensors, buffer, hread⟩ :=
    sensorRead_eq recordJson probeConfig (List.replicate 127 0) (by decide +kernel)
  have hdry : (((probeConfig.soil.toSensor.written recordJson).bind
      recordJson.soil.fromSlice).getD ⟨0, 0⟩).moisture = 0 := by decide +kernel
  refine ⟨_, sensors, buffer, hread, hdry, ?_⟩
  rintro ⟨hsoil, -⟩
  have hmeasured : (0 : UInt16) = 700 := hdry.symm.trans hsoil
  cases hmeasured

end SensorConfig

end Pmind
