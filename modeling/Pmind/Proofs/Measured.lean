import Pmind.Platform
import Pmind.Proofs.SensorPlatform

/-!
# Whether a reported soil value was measured

The soil sensor is read first, and no later slot changes what its slot has set
(`readFrom_soil`). A slot whose read or whose decoding fails leaves the reading as it is, and the
pass goes on: it gives a soil value whatever has failed, and a measured one exactly if the soil
sensor was read and what it wrote decoded (`soilReported_iff`).
-/

namespace Pmind

open Buffer SensorConfig

variable {I2C : Type} [I2c I2C] {json : RecordJson}

/-! ## The slots after the first -/

theorem SensorReading.withRecord_soil_eq {idx : ℕ} (h : idx ≠ soilIdx) (d : SensorReading)
    (text : List UInt8) : (d.withRecord json idx text).soil = d.soil := by
  unfold SensorReading.withRecord
  split
  · exact absurd rfl h
  · split <;> rfl
  · split <;> rfl
  · rfl

theorem Pass.decode_soil {p : Pass} {idx size : ℕ} {d : SensorReading} (h : idx ≠ soilIdx)
    (hd : p.decode json idx size = some d) : d.soil = p.d.soil := by
  unfold Pass.decode at hd
  split at hd
  · exact absurd rfl h
  · obtain ⟨text, -, rfl⟩ := Option.map_eq_some_iff.mp hd
    exact SensorReading.withRecord_soil_eq h p.d text
  · obtain ⟨text, -, rfl⟩ := Option.map_eq_some_iff.mp hd
    exact SensorReading.withRecord_soil_eq h p.d text
  · cases hd
    rfl

theorem readSlot_soil {idx : ℕ} {s s' : Option (Sensor I2C)} {p p' : Pass} (hidx : idx ≠ soilIdx)
    (h : readSlot json idx s p = some (s', p')) : p'.d.soil = p.d.soil := by
  unfold readSlot at h
  split at h
  · cases h
    rfl
  · split at h
    · cases h
    · cases h
      rfl
    · obtain ⟨d, hd, heq⟩ := Option.map_eq_some_iff.mp h
      cases heq
      exact (Pass.decode_soil hidx hd :)

theorem readFrom_soil : ∀ {sensors sensors' : SensorVec I2C} {idx : ℕ} {p p' : Pass},
    idx ≠ soilIdx → readFrom json idx sensors p = some (sensors', p') → p'.d.soil = p.d.soil
  | [], _, _, _, _, _, h => by
    cases h
    rfl
  | s :: sensors, _, idx, p, p', _, h => by
    simp only [readFrom, Option.bind_eq_bind, Option.bind_eq_some_iff] at h
    obtain ⟨⟨s', p₁⟩, hslot, ⟨sensors', p₂⟩, hrest, heq⟩ := h
    cases heq
    rw [readFrom_soil (Nat.succ_ne_zero idx) hrest]
    exact readSlot_soil ‹_› hslot

/-! ## The first slot -/

/-- The read of the soil sensor by a pass over `buffer` succeeds, and what it wrote is decoded as
`soil`. -/
def SoilMeasured (json : RecordJson) (sensors : SensorVec I2C) (buffer : List UInt8)
    (soil : Soil) : Prop :=
  ∃ s size s' buffer', sensors[soilIdx]? = some (some s)
    ∧ s.read json buffer 0 = some (.ok size, s', buffer')
    ∧ (slice buffer' 0 size).bind json.soil.fromSlice = some soil

theorem soilMeasured_of_written {s : Sensor I2C} {sensors : SensorVec I2C}
    {text buffer : List UInt8} {soil : Soil} (hs : sensors[soilIdx]? = some (some s))
    (hw : s.written json = some text) (hroom : text.length ≤ buffer.length)
    (hdec : json.soil.fromSlice text = some soil) : SoilMeasured json sensors buffer soil := by
  obtain ⟨buffer', hcopy⟩ := exists_copyAt (show 0 + text.length ≤ buffer.length by omega)
  obtain ⟨s', hread⟩ := Sensor.read_of_some hw hcopy
  have hslice := slice_copyAt hcopy
  rw [Nat.zero_add] at hslice
  exact ⟨s, text.length, s', buffer', hs, hread, by rw [hslice, Option.bind_some, hdec]⟩

theorem not_soilMeasured_of_written {s : Sensor I2C} {sensors : SensorVec I2C}
    (hs : sensors[soilIdx]? = some (some s)) (hw : s.written json = none) (buffer : List UInt8)
    (soil : Soil) : ¬ SoilMeasured json sensors buffer soil := by
  rintro ⟨s', size, t, buffer', hs', hread, -⟩
  rw [hs] at hs'
  cases hs'
  obtain ⟨e, t', hfail⟩ := Sensor.read_of_none hw buffer 0
  rw [hread] at hfail
  cases hfail

/-- The soil sensor's slot sets what was measured, if it was. -/
theorem readSlot_measured {s : Sensor I2C} {s' : Option (Sensor I2C)} {sensors : SensorVec I2C}
    {buffer : List UInt8} {soil : Soil} {d : SensorReading} {p' : Pass}
    (hm : SoilMeasured json (some s :: sensors) buffer soil)
    (h : readSlot json soilIdx (some s) ⟨d, 0, buffer⟩ = some (s', p')) : p'.d.soil = soil := by
  obtain ⟨t, size, t', buffer', ht, hread, hsoil⟩ := hm
  cases ht
  obtain ⟨text, htext, hdec⟩ := Option.bind_eq_some_iff.mp hsoil
  have hslice : slice buffer' 0 (0 + size) = some text := by rw [Nat.zero_add, htext]
  simp only [readSlot, hread, Pass.decode, hslice, Option.map_some, SensorReading.withRecord,
    hdec, Option.some.injEq, Prod.mk.injEq] at h
  obtain ⟨-, rfl⟩ := h
  rfl

theorem sensorRead_ok {sensors sensors' : SensorVec I2C} {buffer buffer' : List UInt8}
    {r : Except PlatformSensorError SensorReading}
    (h : sensorRead json sensors buffer = some (r, sensors', buffer')) :
    ∃ d, r = .ok d ∧ ∀ soil, SoilMeasured json sensors buffer soil → d.soil = soil := by
  obtain ⟨⟨sensors₁, p⟩, hrun, heq⟩ := Option.map_eq_some_iff.mp h
  cases heq
  refine ⟨_, rfl, fun soil hm => ?_⟩
  obtain ⟨s, size, s', buf, hs, -, -⟩ := id hm
  obtain ⟨rest, rfl⟩ : ∃ rest, sensors = some s :: rest := by
    rcases sensors with _ | ⟨s₀, rest⟩
    · cases hs
    · exact ⟨rest, by cases hs; rfl⟩
  simp only [readFrom, Option.bind_eq_bind, Option.bind_eq_some_iff] at hrun
  obtain ⟨⟨t, p₁⟩, hslot, ⟨sensors₂, p₂⟩, hrest, heq⟩ := hrun
  cases heq
  rw [← readSlot_measured hm hslot]
  exact readFrom_soil (Nat.succ_ne_zero 0) hrest

/-! ## What is reported -/

/-- A soil value is reported only if it was measured, and a node that has none to report resets. -/
structure SoilReported (json : RecordJson) (sensors : SensorVec I2C) (buffer : List UInt8)
    (r : Except PlatformSensorError SensorReading) : Prop where
  measured : ∀ d, r = .ok d → SoilMeasured json sensors buffer d.soil
  refused : (∀ soil, ¬ SoilMeasured json sensors buffer soil) → ∃ e, r = .error e
  reset : (∀ soil, ¬ SoilMeasured json sensors buffer soil) →
    ∀ coap serde (p : Esp32Platform) sendOk, p.halted = false → p.observerAddr ≠ none →
      p.coapServerEventLoop coap serde (.sensor r.toOption sendOk) = (p.reset, [])

/-- What a pass gives is as it should be exactly if the soil sensor's read succeeded and what it
wrote was decoded: without that the reading is given all the same. -/
theorem soilReported_iff (sensors sensors' : SensorVec I2C) (buffer buffer' : List UInt8)
    (r : Except PlatformSensorError SensorReading)
    (h : sensorRead json sensors buffer = some (r, sensors', buffer')) :
    SoilReported json sensors buffer r ↔ ∃ soil, SoilMeasured json sensors buffer soil := by
  obtain ⟨d, rfl, hd⟩ := sensorRead_ok h
  constructor
  · intro hr
    exact ⟨d.soil, hr.measured d rfl⟩
  · rintro ⟨soil, hm⟩
    refine ⟨?_, fun hno => absurd hm (hno soil), fun hno => absurd hm (hno soil)⟩
    intro d' hd'
    cases hd'
    exact (hd soil hm).symm ▸ hm

theorem soilReported_json : ∃ r sensors buffer, sensorRead recordJson jsonConfig.sensors
    (List.replicate 127 0) = some (r, sensors, buffer)
      ∧ SoilReported recordJson jsonConfig.sensors (List.replicate 127 0) r := by
  obtain ⟨sensors, buffer, hread⟩ := sensorRead_eq recordJson jsonConfig
    (List.replicate 127 0) (by decide +kernel)
  have hw : jsonConfig.soil.toSensor.written recordJson = some soilText := by decide +kernel
  refine ⟨_, sensors, buffer, hread, (soilReported_iff _ _ _ _ _ hread).mpr ⟨⟨700, 32⟩, ?_⟩⟩
  exact soilMeasured_of_written rfl hw (by decide +kernel) (if_pos rfl)

/-- A soil sensor that does not answer on the bus. -/
def deafConfig : SensorConfig Bus := ⟨.atsamd10 ⟨0x36, ⟨[]⟩⟩, none, none⟩

/-- The soil sensor cannot be read, and the node reports a dry plant. -/
theorem not_soilReported : ∃ d sensors buffer, sensorRead recordJson deafConfig.sensors
    (List.replicate 127 0) = some (.ok d, sensors, buffer) ∧ d.soil.moisture = 0
      ∧ ¬ SoilReported recordJson deafConfig.sensors (List.replicate 127 0) (.ok d) := by
  obtain ⟨sensors, buffer, hread⟩ := sensorRead_eq recordJson deafConfig
    (List.replicate 127 0) (by decide +kernel)
  refine ⟨_, sensors, buffer, hread, rfl, fun hr => ?_⟩
  exact not_soilMeasured_of_written rfl (by rfl) _ _ (hr.measured _ rfl)

end Pmind
