import Mathlib.Data.Nat.Digits.Defs
import Pmind.Proofs.SensorPlatform
import Pmind.RecordText

/-!
# Whether the buffer has room for a pass

A pass panics exactly if what the sensors write does not fit behind each other in the buffer
(`exists_sensorRead_iff`). For a soil, a light and a gas sensor that is a matter of the digits of
eight fields: 61 bytes of their three records are always the same, which leaves 66 of the 127 for
the digits (`fits_iff`). The three integers can have 20 of them, and each `f32` as many as its
longest text (`fits_of_length`).
-/

namespace Pmind

open Buffer

variable {I2C : Type} [I2c I2C] {json : RecordJson}

/-! ## When a pass panics -/

theorem writeJson_of_full {α : Type} {codec : Codec α} {measured : Except PlatformSensorError α}
    {text buffer : List UInt8} {start : ℕ} (h : codec.written measured = some text)
    (hcopy : copyAt buffer start text = none) : writeJson codec measured buffer start = none := by
  rcases measured with e | reading
  · cases h
  · have hsome : codec.toVec reading = some text := h
    simp [writeJson, hsome, hcopy]

theorem Sensor.read_of_full {s : Sensor I2C} {bytes buffer : List UInt8} {start : ℕ}
    (h : s.written json = some bytes) (hcopy : copyAt buffer start bytes = none) :
    s.read json buffer start = none := by
  rcases s with s | s | s | s | s
  · simp only [read, ATSAMD10.read_eq, writeJson_of_full h hcopy, Option.map_none]
  · cases h
    simp only [read, ProbeCircuit.read, hcopy, Option.map_none]
  · simp only [read, TSL2591.read_eq, writeJson_of_full h hcopy, Option.map_none]
  · simp only [read, BME680.read, writeJson_of_full h hcopy, Option.map_none]
  · simp only [read, SHT40.read, writeJson_of_full h hcopy, Option.map_none]

theorem readSlot_of_full {idx : ℕ} {s : Option (Sensor I2C)} {p : Pass}
    (hstart : p.start ≤ p.buffer.length)
    (h : p.buffer.length < p.start + (slotWritten json s).elim 0 List.length) :
    readSlot json idx s p = none := by
  rcases s with _ | s
  · exact absurd h (Nat.not_lt.mpr hstart)
  rcases hw : s.written json with _ | bytes
  · simp only [slotWritten, Option.bind_some, hw, Option.elim_none] at h
    exact absurd h (Nat.not_lt.mpr hstart)
  · simp only [slotWritten, Option.bind_some, hw, Option.elim_some] at h
    have hread := Sensor.read_of_full hw (copyAt_eq_none.mpr h)
    simp only [readSlot, hread]

theorem exists_readFrom_iff : ∀ (sensors : SensorVec I2C) (idx : ℕ) (p : Pass),
    p.start ≤ p.buffer.length → ((∃ r, readFrom json idx sensors p = some r)
      ↔ p.start + room (sensors.map (slotWritten json)) ≤ p.buffer.length)
  | [], _, p, hstart => iff_of_true ⟨_, rfl⟩ hstart
  | s :: sensors, idx, p, hstart => by
    rw [List.map_cons, room, ← Nat.add_assoc]
    by_cases hown : p.start + (slotWritten json s).elim 0 List.length ≤ p.buffer.length
    · obtain ⟨s', buffer, hlen, hslot⟩ := readSlot_eq idx s p hown
      rw [← hlen] at hown ⊢
      rw [← exists_readFrom_iff sensors (idx + 1)
        ⟨(slotWritten json s).elim p.d (p.d.withRecord json idx),
          p.start + (slotWritten json s).elim 0 List.length, buffer⟩ hown]
      simp only [readFrom, hslot, Option.bind_eq_bind, Option.bind_some]
      constructor
      · rintro ⟨r, hr⟩
        obtain ⟨r', hr', -⟩ := Option.bind_eq_some_iff.mp hr
        exact ⟨r', hr'⟩
      · rintro ⟨r', hr'⟩
        exact ⟨_, by rw [hr']; rfl⟩
    · have hslot : readSlot json idx s p = none := readSlot_of_full hstart (Nat.not_le.mp hown)
      refine iff_of_false ?_ (by omega)
      rintro ⟨r, hr⟩
      simp [readFrom, hslot] at hr

theorem exists_sensorRead_iff (sensors : SensorVec I2C) (buffer : List UInt8) :
    (∃ r, sensorRead json sensors buffer = some r)
      ↔ room (sensors.map (slotWritten json)) ≤ buffer.length := by
  have hiff : (∃ r, readFrom json 0 sensors ⟨⟨⟨0, 0⟩, none, none, 0⟩, 0, buffer⟩ = some r)
      ↔ 0 + room (sensors.map (slotWritten json)) ≤ buffer.length :=
    exists_readFrom_iff sensors 0 _ (Nat.zero_le _)
  rw [Nat.zero_add] at hiff
  rw [← hiff]
  simp only [sensorRead, Option.map_eq_some_iff]
  constructor
  · rintro ⟨_, r, hr, -⟩
    exact ⟨r, hr⟩
  · rintro ⟨r, hr⟩
    exact ⟨_, r, hr, rfl⟩

/-- The slices of the buffer that a pass copies to and decodes from. -/
def slices : ℕ → List (Option (List UInt8)) → List (ℕ × ℕ)
  | _, [] => []
  | start, none :: texts => slices start texts
  | start, some text :: texts =>
    (start, start + text.length) :: slices (start + text.length) texts

theorem forall_mem_slices_iff {n : ℕ} : ∀ {start : ℕ} {texts : List (Option (List UInt8))},
    start ≤ n → ((∀ s ∈ slices start texts, s.2 ≤ n) ↔ start + room texts ≤ n)
  | start, [], h => by simpa [slices, room] using h
  | start, none :: texts, h => by
    rw [slices, room, Option.elim_none, Nat.zero_add]
    exact forall_mem_slices_iff h
  | start, some text :: texts, h => by
    rw [slices, room, Option.elim_some, List.forall_mem_cons, ← Nat.add_assoc]
    by_cases hle : start + text.length ≤ n
    · rw [forall_mem_slices_iff hle]
      exact and_iff_right hle
    · exact iff_of_false (fun h' => hle h'.1) (by omega)

/-- Every slice of the pass is within the buffer, and none of its copies panics. -/
structure Fits (json : RecordJson) (sensors : SensorVec I2C) (buffer : List UInt8) : Prop where
  slices : ∀ s ∈ slices 0 (sensors.map (slotWritten json)), s.2 ≤ buffer.length
  completes : ∃ r, sensorRead json sensors buffer = some r

theorem fits_iff_room (sensors : SensorVec I2C) (buffer : List UInt8) :
    Fits json sensors buffer ↔ room (sensors.map (slotWritten json)) ≤ buffer.length := by
  have hslices : (∀ s ∈ slices 0 (sensors.map (slotWritten json)), s.2 ≤ buffer.length)
      ↔ 0 + room (sensors.map (slotWritten json)) ≤ buffer.length :=
    forall_mem_slices_iff (Nat.zero_le _)
  rw [Nat.zero_add] at hslices
  have hread : (∃ r, sensorRead json sensors buffer = some r)
      ↔ room (sensors.map (slotWritten json)) ≤ buffer.length :=
    exists_sensorRead_iff sensors buffer
  exact ⟨fun h => hread.mp h.completes, fun h => ⟨hslices.mpr h, hread.mpr h⟩⟩

/-! ## The lengths of the records -/

variable (f32 : Float32 → List UInt8)

def digits (n : ℕ) : ℕ := (Nat.toDigits 10 n).length

/-- How many bytes the values of a record take up in its text. -/
def Soil.digits (r : Soil) : ℕ := Pmind.digits r.moisture.toNat + (f32 r.temp).length

def Light.digits (r : Light) : ℕ := Pmind.digits r.fs.toNat + (f32 r.lux).length

def Gas.digits (r : Gas) : ℕ :=
  (f32 r.temp).length + (f32 r.p).length + (f32 r.h).length + Pmind.digits r.gas.toNat

theorem length_decimal (n : ℕ) : (decimal n).length = digits n := List.length_map _

theorem Soil.length_text (r : Soil) : (r.text f32).length = 21 + r.digits f32 := by
  have hmoisture : (ascii "\x7b\"moisture\":").length = 12 := by decide +kernel
  have htemp : (ascii ",\"temp\":").length = 8 := by decide +kernel
  have hend : (ascii "\x7d").length = 1 := by decide +kernel
  simp only [text, digits, List.length_append, length_decimal, hmoisture, htemp, hend]
  omega

theorem Light.length_text (r : Light) : (r.text f32).length = 14 + r.digits f32 := by
  have hfs : (ascii "\x7b\"fs\":").length = 6 := by decide +kernel
  have hlux : (ascii ",\"lux\":").length = 7 := by decide +kernel
  have hend : (ascii "\x7d").length = 1 := by decide +kernel
  simp only [text, digits, List.length_append, length_decimal, hfs, hlux, hend]
  omega

theorem Gas.length_text (r : Gas) : (r.text f32).length = 26 + r.digits f32 := by
  have htemp : (ascii "\x7b\"temp\":").length = 8 := by decide +kernel
  have hp : (ascii ",\"p\":").length = 5 := by decide +kernel
  have hh : (ascii ",\"h\":").length = 5 := by decide +kernel
  have hgas : (ascii ",\"gas\":").length = 7 := by decide +kernel
  have hend : (ascii "\x7d").length = 1 := by decide +kernel
  simp only [text, digits, List.length_append, length_decimal, htemp, hp, hh, hgas, hend]
  omega

/-- `serde_json` writes a record as its text. -/
structure RecordJson.Compact (json : RecordJson) (f32 : Float32 → List UInt8) : Prop where
  soil : ∀ r : Soil, r.Finite → json.soil.toVec r = some (r.text f32)
  light : ∀ r : Light, r.Finite → json.light.toVec r = some (r.text f32)
  gas : ∀ r : Gas, r.Finite → json.gas.toVec r = some (r.text f32)

/-- The room that the records take up which were measured. -/
def recordRoom (soil : Option Soil) (light : Option Light) (gas : Option Gas) : ℕ :=
  soil.elim 0 (fun r => 21 + r.digits f32) + light.elim 0 (fun r => 14 + r.digits f32)
    + gas.elim 0 (fun r => 26 + r.digits f32)

theorem Codec.length_written {α : Type} {codec : Codec α} {Finite : α → Prop}
    {text : α → List UInt8} {length : α → ℕ} (hvec : ∀ r, Finite r → codec.toVec r = some (text r))
    (hlen : ∀ r, (text r).length = length r) {measured : Except PlatformSensorError α}
    (hfinite : ∀ r, measured = .ok r → Finite r) :
    (codec.written measured).elim 0 List.length = measured.toOption.elim 0 length := by
  rcases measured with e | r
  · rfl
  · have hw : codec.written (.ok r) = some (text r) := hvec r (hfinite r rfl)
    rw [hw]
    exact hlen r

theorem room_replicate (n : ℕ) : room (List.replicate n none) = 0 := by
  induction n with
  | zero => rfl
  | succ n ih => rw [List.replicate_succ, room, ih]; rfl

/-- The configuration with a soil, a light and a gas sensor in the first three slots. -/
def fullConfig (s : ATSAMD10 I2C) (l : TSL2591 I2C) (g : BME680) : SensorConfig I2C :=
  ⟨.atsamd10 s, some l, some (.bme680 g)⟩

theorem room_fullConfig (hjson : json.Compact f32) {s : ATSAMD10 I2C} {l : TSL2591 I2C}
    {g : BME680} (hfinite : (fullConfig s l g).Finite) :
    room ((fullConfig s l g).sensors.map (slotWritten json))
      = recordRoom f32 s.measured.toOption l.measured.toOption g.readSensor.toOption := by
  obtain ⟨n, hsensors⟩ := (fullConfig s l g).sensors_eq
  have hsoil := Codec.length_written hjson.soil (Soil.length_text f32)
    fun r => hfinite.soil s r rfl
  have hlight := Codec.length_written hjson.light (Light.length_text f32)
    fun r => hfinite.light l r rfl
  have hgas : (json.gas.written g.readSensor).elim 0 List.length
      = g.readSensor.toOption.elim 0 fun r => 26 + r.digits f32 :=
    Codec.length_written hjson.gas (Gas.length_text f32) fun r => hfinite.gas (.bme680 g) r rfl
  have hrest : (List.replicate n none).map (slotWritten json : Option (Sensor I2C) → _)
      = List.replicate n none := List.map_replicate
  rw [hsensors, List.map_cons, List.map_cons, List.map_cons, hrest]
  simp only [room, room_replicate, recordRoom]
  rw [← hsoil, ← hlight, ← hgas]
  simp only [Nat.add_zero, Nat.add_assoc]
  rfl

/-- A pass over the soil, the light and the gas sensor stays within the 127 bytes exactly if the
records they measured do: if all three did, with no more than 66 bytes for their values. -/
theorem fits_iff (json : RecordJson) (hjson : json.Compact f32) (s : ATSAMD10 I2C)
    (l : TSL2591 I2C) (g : BME680) (hfinite : (fullConfig s l g).Finite) (buffer : List UInt8)
    (hbuffer : buffer.length = 127) : Fits json (fullConfig s l g).sensors buffer
      ↔ recordRoom f32 s.measured.toOption l.measured.toOption g.readSensor.toOption ≤ 127 := by
  rw [fits_iff_room, room_fullConfig f32 hjson hfinite, hbuffer]

theorem digits_le {n k : ℕ} (hk : 0 < k) (h : n < 10 ^ k) : digits n ≤ k :=
  Nat.toDigits_length 10 n k hk h

theorem digits_uint16_le (n : UInt16) : digits n.toNat ≤ 5 :=
  digits_le (by decide) (Nat.lt_of_lt_of_le n.toNat_lt (by decide))

/-- If no `f32` takes up more than `k` bytes, the three records take up `81 + 5 * k` at most. -/
theorem fits_of_length (hjson : json.Compact f32) {k : ℕ}
    (hk : ∀ x : Float32, x.isFinite = true → (f32 x).length ≤ k) {s : ATSAMD10 I2C}
    {l : TSL2591 I2C} {g : BME680} (hfinite : (fullConfig s l g).Finite) {buffer : List UInt8}
    (hbuffer : 81 + 5 * k ≤ buffer.length) : Fits json (fullConfig s l g).sensors buffer := by
  have hsoil : s.measured.toOption.elim 0 (fun r => 21 + r.digits f32) ≤ 26 + k := by
    rcases hm : s.measured with e | r
    · exact Nat.zero_le _
    · have htemp := hk r.temp (hfinite.soil s r rfl hm)
      have hmoisture := digits_uint16_le r.moisture
      change 21 + (digits r.moisture.toNat + (f32 r.temp).length) ≤ 26 + k
      omega
  have hlight : l.measured.toOption.elim 0 (fun r => 14 + r.digits f32) ≤ 19 + k := by
    rcases hm : l.measured with e | r
    · exact Nat.zero_le _
    · have hlux := hk r.lux (hfinite.light l r rfl hm)
      have hfs := digits_uint16_le r.fs
      change 14 + (digits r.fs.toNat + (f32 r.lux).length) ≤ 19 + k
      omega
  have hgas : g.readSensor.toOption.elim 0 (fun r => 26 + r.digits f32) ≤ 36 + 3 * k := by
    rcases hm : g.readSensor with e | r
    · exact Nat.zero_le _
    · obtain ⟨htemp, hp, hh⟩ := hfinite.gas (.bme680 g) r rfl hm
      have htemp := hk r.temp htemp
      have hp := hk r.p hp
      have hh := hk r.h hh
      have hres : digits r.gas.toNat ≤ 10 :=
        digits_le (by decide) (Nat.lt_of_lt_of_le r.gas.toNat_lt (by decide))
      change 26 + ((f32 r.temp).length + (f32 r.p).length + (f32 r.h).length
        + digits r.gas.toNat) ≤ 36 + 3 * k
      omega
  rw [fits_iff_room, room_fullConfig f32 hjson hfinite, recordRoom]
  omega

instance (r : Light) : Decidable r.Finite := inferInstanceAs (Decidable (_ = true))

/-- The shortest text of the values measured below. -/
def sampleText (x : Float32) : List UInt8 :=
  if x = 75.607834 then ascii "75.607834"
  else if x = 0.0000014364242 then ascii "0.0000014364242"
  else if x = 74.119995 then ascii "74.119995"
  else if x = 1013.2512 then ascii "1013.2512"
  else if x = 45.678123 then ascii "45.678123"
  else ascii "0.0"

def sampleGas (resistance : UInt32) : Gas := ⟨74.119995, 1013.2512, 45.678123, resistance⟩

def sampleJson (resistance : UInt32) : RecordJson where
  soil := ⟨fun r => some (r.text sampleText),
    fun text => if text = Soil.text sampleText ⟨1015, 75.607834⟩ then some ⟨1015, 75.607834⟩
      else none⟩
  light := ⟨fun r => some (r.text sampleText),
    fun text => if text = Light.text sampleText ⟨37889, 0.0000014364242⟩
      then some ⟨37889, 0.0000014364242⟩ else none⟩
  gas := ⟨fun r => some (r.text sampleText),
    fun text => if text = Gas.text sampleText (sampleGas resistance)
      then some (sampleGas resistance) else none⟩

theorem compact_sample (resistance : UInt32) : (sampleJson resistance).Compact sampleText :=
  ⟨fun _ _ => rfl, fun _ _ => rfl, fun _ _ => rfl⟩

def sampleSoil : ATSAMD10 SensorConfig.Bus := ⟨0x36, ⟨[[0x00, 0x18, 0x3a, 0x01], [0x03, 0xf7]]⟩⟩

/-- Almost all of the light is infrared. -/
def sampleLight : TSL2591 SensorConfig.Bus :=
  ⟨0x29, ⟨[[0x01, 0x94, 0x00, 0x94], [0x01, 0x94, 0x00, 0x94]]⟩, .medium, .intTime300, 0⟩

def sampleAir (resistance : UInt32) : BME680 :=
  ⟨some ⟨23.4, 45.678123, resistance, 1013.2512⟩, true⟩

theorem finite_sample (resistance : UInt32) :
    (fullConfig sampleSoil sampleLight (sampleAir resistance)).Finite := by
  refine ⟨?_, ?_, ?_⟩
  · rintro s r hs hr
    cases hs
    cases hr
    decide +kernel
  · rintro s r hs hr
    cases hs
    cases hr
    decide +kernel
  · rintro s r hs hr
    cases hs
    cases hr
    have htemp : ((23.4 : Float32) * 1.8 + 32.0).isFinite = true := by decide +kernel
    have hp : (1013.2512 : Float32).isFinite = true := by decide +kernel
    have hh : (45.678123 : Float32).isFinite = true := by decide +kernel
    exact ⟨htemp, hp, hh⟩

theorem fits_sample : Fits (sampleJson 123456)
    (fullConfig sampleSoil sampleLight (sampleAir 123456)).sensors (List.replicate 127 0) :=
  (fits_iff sampleText (sampleJson 123456) (compact_sample 123456) sampleSoil sampleLight
    (sampleAir 123456) (finite_sample 123456) _ (by simp)).mpr (by decide +kernel)

/-- One more digit of the gas resistance, and the copy of the last record panics. -/
theorem not_fits : sensorRead (sampleJson 1234567)
      (fullConfig sampleSoil sampleLight (sampleAir 1234567)).sensors (List.replicate 127 0) = none
    ∧ ¬ Fits (sampleJson 1234567)
      (fullConfig sampleSoil sampleLight (sampleAir 1234567)).sensors (List.replicate 127 0) := by
  have hroom : recordRoom sampleText sampleSoil.measured.toOption sampleLight.measured.toOption
      (sampleAir 1234567).readSensor.toOption = 128 := by decide +kernel
  have hfull : ¬ Fits (sampleJson 1234567)
      (fullConfig sampleSoil sampleLight (sampleAir 1234567)).sensors (List.replicate 127 0) := by
    rw [fits_iff_room, room_fullConfig sampleText (compact_sample 1234567) (finite_sample 1234567),
      hroom, List.length_replicate]
    decide
  refine ⟨?_, hfull⟩
  refine Option.eq_none_iff_forall_ne_some.mpr fun r hr => hfull ?_
  exact (fits_iff_room _ _).mpr ((exists_sensorRead_iff _ _).mp ⟨r, hr⟩)

end Pmind
