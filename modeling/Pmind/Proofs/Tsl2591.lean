import Pmind.Lib.Exec
import Pmind.Lib.Run
import Pmind.Tsl2591

/-!
# What each operation of the light sensor's driver does

On a device whose transfers come to what is given beforehand, each operation of the driver is one
equation for its result and the state it leaves.
-/

namespace Pmind

open Fallible Transition

namespace TSL2591

variable {s : TSL2591 Device}

/-! ## One transfer -/

/-- Whether the next write goes through. -/
def writes (s : TSL2591 Device) : Bool := s.i2c.writes.headD false

/-- The driver and its device after the next write. -/
def wrote (s : TSL2591 Device) (bytes : List UInt8) : TSL2591 Device :=
  { s with i2c := (I2c.write s.i2c s.address bytes).2 }

/-- What the next read of the channels gives. -/
def word (s : TSL2591 Device) : Option (Vector UInt8 4) := s.i2c.words.headD none

def asked (s : TSL2591 Device) : TSL2591 Device :=
  { s with i2c := { s.i2c with asked := s.i2c.asked + 1, words := s.i2c.words.tail } }

def wordOf (data : Vector UInt8 4) : UInt32 :=
  (data.get 0).toUInt32 ||| (data.get 1).toUInt32 <<< 8 ||| (data.get 2).toUInt32 <<< 16
    ||| (data.get 3).toUInt32 <<< 24

/-- A write changes the two registers at most, and is the next of the writes no more. -/
theorem wrote_i2c (s : TSL2591 Device) (bytes : List UInt8) : ∃ enabled control,
    (s.wrote bytes).i2c = { s.i2c with enabled, control, writes := s.i2c.writes.tail } := by
  simp only [wrote, I2c.write, Device.store]
  split
  · split
    · split_ifs <;> exact ⟨_, _, rfl⟩
    · exact ⟨_, _, rfl⟩
  · exact ⟨_, _, rfl⟩

@[simp] theorem wrote_asked (s : TSL2591 Device) (bytes : List UInt8) :
    (s.wrote bytes).i2c.asked = s.i2c.asked := by
  obtain ⟨enabled, control, h⟩ := s.wrote_i2c bytes
  rw [h]

@[simp] theorem wrote_words (s : TSL2591 Device) (bytes : List UInt8) :
    (s.wrote bytes).i2c.words = s.i2c.words := by
  obtain ⟨enabled, control, h⟩ := s.wrote_i2c bytes
  rw [h]

theorem wrote_ctrl (s : TSL2591 Device) (value : UInt8) :
    (s.wrote [cmdCtrlSet, value]).i2c.control = if s.writes then value else s.i2c.control := by
  simp only [wrote, I2c.write, Device.store, writes, if_true]
  exact apply_ite Device.control _ _ _

theorem wrote_enable (s : TSL2591 Device) (value : UInt8) :
    (s.wrote [cmdEnableSet, value]).i2c.control = s.i2c.control := by
  have hcmd : cmdEnableSet ≠ cmdCtrlSet := by decide
  simp only [wrote, I2c.write, Device.store, if_neg hcmd, if_true]
  split_ifs <;> rfl

/-- The transfer of each of the four below: `bytes` goes to the sensor. -/
def send (bytes : TSL2591 Device → List UInt8) :
    ExceptT I2cError (StateM (TSL2591 Device)) Unit := do
  let self ← get
  let (ok, i2c) := I2c.write self.i2c self.address (bytes self)
  set { self with i2c }
  unless ok do throw .i2cWriteError

theorem exec_send (bytes : TSL2591 Device → List UInt8) (s : TSL2591 Device) :
    exec (send bytes) s
      = (if s.writes then .ok () else .error .i2cWriteError, s.wrote (bytes s)) := by
  unfold send
  simp only [exec_bind, exec_get, exec_set, exec_unless]
  rfl

theorem exec_enable (s : TSL2591 Device) : exec enable s
    = (if s.writes then .ok () else .error .i2cWriteError,
      s.wrote [cmdEnableSet, enableFlags]) :=
  exec_send (fun _ => [cmdEnableSet, enableFlags]) s

theorem exec_disable (s : TSL2591 Device) : exec disable s
    = (if s.writes then .ok () else .error .i2cWriteError,
      s.wrote [cmdEnableSet, enablePoweroff]) :=
  exec_send (fun _ => [cmdEnableSet, enablePoweroff]) s

theorem exec_setGain (gain : Gain) (s : TSL2591 Device) : exec (setGain gain) s
    = (if s.writes then .ok () else .error .i2cWriteError,
      s.wrote [cmdCtrlSet, s.intTime.bits ||| gain.bits]) :=
  exec_send (fun self => [cmdCtrlSet, self.intTime.bits ||| gain.bits]) s

theorem exec_setTiming (intTime : IntegrationTime) (s : TSL2591 Device) :
    exec (setTiming intTime) s = (if s.writes then .ok () else .error .i2cWriteError,
      s.wrote [cmdCtrlSet, intTime.bits ||| s.gain.bits]) :=
  exec_send (fun self => [cmdCtrlSet, intTime.bits ||| self.gain.bits]) s

theorem exec_getChannelData (s : TSL2591 Device) : exec getChannelData s
    = (match s.word with
      | some data => .ok (wordOf data)
      | none => .error .i2cWriteReadError, s.asked) := by
  unfold getChannelData
  simp only [exec_bind, exec_get, exec_set]
  rcases h : s.word with _ | data
  · have h' : (I2c.writeRead s.i2c s.address [cmdChan0LowData] 4).1 = none := h
    rw [h']
    rfl
  · have h' : (I2c.writeRead s.i2c s.address [cmdChan0LowData] 4).1 = some data := h
    rw [h']
    rfl

/-- A successful `new` has written the register last for the gain. -/
theorem new_ok {device : Device} {address : UInt8} {s : TSL2591 Device}
    (h : new device address = .ok s) : ∃ s' : TSL2591 Device, s'.writes = true
      ∧ s'.gain = .medium ∧ s'.faultCount = 0
      ∧ s = s'.wrote [cmdCtrlSet, s'.intTime.bits ||| Gain.medium.bits] := by
  let init : ExceptT I2cError (StateM (TSL2591 Device)) Unit :=
    enable >>= fun _ => setTiming .intTime300 >>= fun _ => setGain .medium
  let s₀ : TSL2591 Device := ⟨address, device, .medium, .intTime300, 0⟩
  have hnew : new device address = (exec init s₀).1.map fun _ => (exec init s₀).2 := rfl
  let s₁ := s₀.wrote [cmdEnableSet, enableFlags]
  let s₂ := s₁.wrote [cmdCtrlSet, IntegrationTime.intTime300.bits ||| s₁.gain.bits]
  have henable := exec_enable s₀
  have htiming := exec_setTiming .intTime300 s₁
  have hgain := exec_setGain .medium s₂
  rcases h₀ : s₀.writes <;> rw [h₀] at henable
  · rw [hnew, exec_bind_error henable] at h
    cases h
  have hinit := exec_bind_ok henable fun _ => setTiming .intTime300 >>= fun _ => setGain .medium
  rcases h₁ : s₁.writes <;> rw [h₁] at htiming
  · rw [hnew, hinit, exec_bind_error htiming] at h
    cases h
  rw [exec_bind_ok htiming, hgain] at hinit
  rcases h₂ : s₂.writes <;> rw [h₂] at hinit
  · rw [hnew, hinit] at h
    cases h
  · rw [hnew, hinit] at h
    cases h
    exact ⟨s₂, h₂, rfl, rfl, rfl⟩

/-! ## The settings -/

/-- What `configure` does of the gain: the cache follows the register. -/
def gained (s : TSL2591 Device) : Option Gain → Except Tsl2591Error Unit × TSL2591 Device
  | none => (.ok (), s)
  | some gain =>
    let s' := s.wrote [cmdCtrlSet, s.intTime.bits ||| gain.bits]
    if s.writes then (.ok (), { s' with gain }) else (.error (.i2cError .i2cWriteError), s')

/-- What `configure` does of the integration time. -/
def timed (s : TSL2591 Device) : Option IntegrationTime → Except Tsl2591Error Unit × TSL2591 Device
  | none => (.ok (), s)
  | some intTime =>
    let s' := s.wrote [cmdCtrlSet, intTime.bits ||| s.gain.bits]
    if s.writes then (.ok (), { s' with intTime }) else (.error (.i2cError .i2cWriteError), s')

theorem gained_ok (h : s.writes = true) (gain : Gain) : ∃ s', s.gained (some gain) = (.ok (), s')
    ∧ s'.gain = gain ∧ s'.faultCount = s.faultCount ∧ s'.i2c.writes = s.i2c.writes.tail
    ∧ s'.i2c.words = s.i2c.words := by
  unfold gained
  simp only [if_pos h]
  exact ⟨_, rfl, rfl, rfl, rfl, s.wrote_words _⟩

theorem gained_error (h : s.writes = false) (gain : Gain) : ∃ s',
    s.gained (some gain) = (.error (.i2cError .i2cWriteError), s')
      ∧ s'.gain = s.gain ∧ s'.intTime = s.intTime ∧ s'.faultCount = s.faultCount := by
  unfold gained
  simp only [h]
  exact ⟨_, rfl, rfl, rfl, rfl⟩

theorem timed_ok (h : s.writes = true) (intTime : IntegrationTime) : ∃ s',
    s.timed (some intTime) = (.ok (), s') ∧ s'.gain = s.gain ∧ s'.i2c.words = s.i2c.words := by
  unfold timed
  simp only [if_pos h]
  exact ⟨_, rfl, rfl, s.wrote_words _⟩

theorem timed_error (h : s.writes = false) (intTime : IntegrationTime) : ∃ s',
    s.timed (some intTime) = (.error (.i2cError .i2cWriteError), s')
      ∧ s'.gain = s.gain ∧ s'.faultCount = s.faultCount := by
  unfold timed
  simp only [h]
  exact ⟨_, rfl, rfl, rfl⟩

theorem exec_configure (gain : Option Gain) (intTime : Option IntegrationTime)
    (s : TSL2591 Device) : exec (configure gain intTime) s = match s.gained gain with
      | (.ok _, s') => s'.timed intTime
      | (.error e, s') => (.error e, s') := by
  unfold configure
  rcases gain with _ | gain <;> rcases intTime with _ | intTime
  · rfl
  · simp only [exec_bind, exec_adapt, exec_setTiming, exec_modify, gained, timed]
    split_ifs <;> rfl
  · simp only [exec_bind, exec_adapt, exec_setGain, exec_modify, gained, timed]
    split_ifs <;> rfl
  · simp only [exec_bind, exec_adapt, exec_setGain, exec_setTiming, exec_modify, gained]
    rcases s.writes
    · rfl
    · simp only [if_true, Except.mapError, timed]
      split_ifs <;> rfl

/-- The settings for the next of the light levels. -/
def nextLight : Gain → Gain × IntegrationTime
  | .low => (.medium, .intTime300)
  | .medium => (.high, .intTime500)
  | .high => (.max, .intTime600)
  | .max => (.low, .intTime100)

theorem exec_adjustForCurrentLight (s : TSL2591 Device) : exec adjustForCurrentLight s
    = match exec (configure (some (nextLight s.gain).1) (some (nextLight s.gain).2)) s with
      | (.ok _, s') => (.ok (), { s' with faultCount := 0 })
      | (.error e, s') => (.error e, s') := by
  unfold adjustForCurrentLight
  rw [exec_bind, exec_get]
  simp only []
  have hadjust : ∀ m : ExceptT Tsl2591Error (StateM (TSL2591 Device)) Unit,
      exec (m >>= fun _ => modify fun self => { self with faultCount := 0 }) s
        = match exec m s with
          | (.ok _, s') => (.ok (), { s' with faultCount := 0 })
          | (.error e, s') => (.error e, s') := fun m => by
    rw [exec_bind]
    rcases exec m s with ⟨e | u, s'⟩ <;> rfl
  rcases s.gain
  all_goals exact hadjust _

/-! ## A measurement -/

/-- The words whose lux the driver does not trust. -/
def Overflow (word : UInt32) : Prop :=
  let infra := ((word >>> 16) &&& 0xffff).toFloat32
  let full := (word &&& 0xffff).toFloat32
  (full.toUInt16 = 0xffff ∨ infra.toUInt16 = 0xffff) ∨ full < infra ∨ full == 0.0

instance (word : UInt32) : Decidable (Overflow word) :=
  inferInstanceAs (Decidable ((_ ∨ _) ∨ _ ∨ _))

theorem exec_getLuminosity (s : TSL2591 Device) : exec (getLuminosity .fullSpectrum) s
    = (match s.word with
      | some data => .ok (wordOf data &&& 0xffff).toUInt16
      | none => .error (.i2cError .i2cWriteReadError), s.asked) := by
  unfold getLuminosity
  simp only [exec_bind, exec_adapt, exec_getChannelData]
  rcases s.word with _ | data <;> rfl

theorem exec_fault {α : Type} (s : TSL2591 Device) :
    exec (fault : ExceptT Tsl2591Error (StateM (TSL2591 Device)) α) s
      = (.error .signalOverflow, { s with faultCount := s.faultCount + 1 }) := rfl

/-- The lux of a word measured with these settings. -/
def luxOf (intTime : IntegrationTime) (gain : Gain) (word : UInt32) : Float32 :=
  let infra := ((word >>> 16) &&& 0xffff).toFloat32
  let full := (word &&& 0xffff).toFloat32
  (full - infra) * (1.0 - (infra / full)) / ((getIntTimeFloat intTime * getGainFloat gain) / luxDf)

/-- A measurement of the lux ends with an I2C error, is counted as a fault, or gives a value. -/
theorem exec_getLux (s : TSL2591 Device) : exec getLux s = match s.word with
    | none => (.error (.i2cError .i2cWriteReadError), s.asked)
    | some data =>
      if Overflow (wordOf data) then
        (.error .signalOverflow, { s.asked with faultCount := s.faultCount + 1 })
      else (.ok (luxOf s.intTime s.gain (wordOf data)), s.asked) := by
  unfold getLux
  simp only [exec_bind, exec_adapt, exec_getChannelData]
  rcases s.word with _ | data
  · rfl
  · simp only [Except.mapError, exec_ite, exec_fault, exec_bind, exec_get, exec_pure]
    by_cases hof : Overflow (wordOf data)
    · rw [if_pos hof]
      rcases hof with hmax | hlow
      · rw [if_pos hmax]
        rfl
      · rw [if_pos hlow]
        split_ifs <;> rfl
    · obtain ⟨hmax, hlow⟩ := not_or.mp hof
      rw [if_neg hof, if_neg hmax, if_neg hlow]
      rfl

/-! ## A read -/

/-- The adjustment before a read, if there were as many faults as the threshold. -/
def prepare : ExceptT Tsl2591Error (StateM (TSL2591 Device)) Unit := do
  if (← get).faultCountThreshold then adjustForCurrentLight

def sample : ExceptT Tsl2591Error (StateM (TSL2591 Device)) Light := do
  let fs ← getLuminosity .fullSpectrum
  let lux ← getLux
  return ⟨fs, lux⟩

theorem faultCountThreshold_iff : s.faultCountThreshold = true ↔ 5 ≤ s.faultCount.toNat := by
  simp only [faultCountThreshold, decide_eq_true_eq, ge_iff_le, UInt32.le_iff_toNat_le]
  rfl

theorem exec_prepare (s : TSL2591 Device) : exec prepare s
    = if 5 ≤ s.faultCount.toNat then exec adjustForCurrentLight s else (.ok (), s) := by
  unfold prepare
  simp only [exec_bind, exec_get, exec_ite, faultCountThreshold_iff]
  rfl

/-- The channels are read twice, once for each value. -/
theorem exec_sample (s : TSL2591 Device) : exec sample s = match s.word with
    | none => (.error (.i2cError .i2cWriteReadError), s.asked)
    | some data =>
      match exec getLux s.asked with
      | (.ok lux, s') => (.ok ⟨(wordOf data &&& 0xffff).toUInt16, lux⟩, s')
      | (.error e, s') => (.error e, s') := by
  unfold sample
  simp only [exec_bind, exec_getLuminosity]
  rcases s.word with _ | data
  · rfl
  · simp only []
    rcases exec getLux s.asked with ⟨e | lux, s'⟩ <;> rfl

theorem exec_measure (s : TSL2591 Device) : exec measure s = match exec prepare s with
    | (.error e, s') => (.error (.lightSensorError e.toLightSensorError), s')
    | (.ok _, s') => ((exec sample s').1.mapError fun e => .lightSensorError e.toLightSensorError,
      (exec sample s').2) := by
  unfold measure prepare sample
  rw [exec_adapt]
  simp only [exec_bind, exec_get, exec_ite]
  by_cases h : s.faultCountThreshold = true
  · rw [if_pos h, if_pos h]
    rcases exec adjustForCurrentLight s with ⟨e | u, s'⟩ <;> rfl
  · rw [if_neg h, if_neg h]
    rfl

/-- A read that returns leaves what its measurement leaves, and fails as that does. -/
theorem read_some {json : RecordJson} {s s' : TSL2591 Device} {buffer buffer' : List UInt8}
    {start : ℕ} {r : ReadResult} (h : s.read json buffer start = some (r, s', buffer')) :
    s' = (exec measure s).2 ∧ ∀ e, e ≠ .other → (r = .error e ↔ (exec measure s).1 = .error e) := by
  rcases hm : exec measure s with ⟨measured, s₁⟩
  have hrun : measure.run.run s = (measured, s₁) := hm
  simp only [TSL2591.read, hrun] at h
  obtain ⟨⟨r', b⟩, hw, heq⟩ := Option.map_eq_some_iff.mp h
  cases heq
  refine ⟨rfl, fun e he => ?_⟩
  unfold writeJson at hw
  rcases measured with e' | reading
  · cases hw
    simp
  · rcases ht : json.light.toVec reading with _ | text
    · simp only [ht, Option.some.injEq, Prod.mk.injEq] at hw
      obtain ⟨rfl, -⟩ := hw
      simp [he.symm]
    · simp only [ht] at hw
      obtain ⟨b, -, heq⟩ := Option.map_eq_some_iff.mp hw
      cases heq
      simp

end TSL2591

end Pmind
