import Pmind.Proofs.SensorPlatform
import Pmind.Proofs.Tsl2591

/-!
# The settings in the driver and in the device

Gain and integration time share the control register. Each is written with the other as it is
cached, and cached itself only after its write went through, so whichever transfer fails the
register and the cache stay in step. A read adjusts the settings at the threshold and measures only
after that went through, with no fault counted any more: so the count stays at the threshold or
below, and no measurement is attempted at it.
-/

namespace Pmind

open Fallible Transition

namespace TSL2591

/-! ## The register and the cache -/

def InStep (s : TSL2591 Device) : Prop := s.i2c.control = s.intTime.bits ||| s.gain.bits

/-- What an operation keeps that makes no measurement. -/
structure Kept (s s' : TSL2591 Device) : Prop where
  inStep : InStep s → InStep s'
  asked : s'.i2c.asked = s.i2c.asked

theorem Kept.trans {s s' s'' : TSL2591 Device} (h : Kept s s') (h' : Kept s' s'') : Kept s s'' :=
  ⟨fun hs => h'.inStep (h.inStep hs), h'.asked.trans h.asked⟩

/-- After a write of the control register: if it went through, the cache is what was written, and
else it is what it was. -/
theorem kept_of_wrote {s s' : TSL2591 Device} {value : UInt8}
    (hi2c : s'.i2c = (s.wrote [cmdCtrlSet, value]).i2c)
    (hcache : InStep s →
      (if s.writes then value else s.i2c.control) = s'.intTime.bits ||| s'.gain.bits) :
    Kept s s' := by
  refine ⟨fun h => ?_, ?_⟩
  · rw [InStep, hi2c, wrote_ctrl]
    exact hcache h
  · rw [hi2c, wrote_asked]

/-- A step of `configure`: the settings and the register change together or not at all, and the
faults stay counted. -/
theorem gained_kept (s : TSL2591 Device) (gain : Option Gain) :
    Kept s (s.gained gain).2 ∧ (s.gained gain).2.faultCount = s.faultCount := by
  rcases gain with _ | gain
  · exact ⟨⟨id, rfl⟩, rfl⟩
  · unfold gained
    simp only []
    split_ifs with hw
    · exact ⟨kept_of_wrote rfl fun _ => if_pos hw, rfl⟩
    · exact ⟨kept_of_wrote rfl fun h => (if_neg hw).trans h, rfl⟩

theorem timed_kept (s : TSL2591 Device) (intTime : Option IntegrationTime) :
    Kept s (s.timed intTime).2 ∧ (s.timed intTime).2.faultCount = s.faultCount := by
  rcases intTime with _ | intTime
  · exact ⟨⟨id, rfl⟩, rfl⟩
  · unfold timed
    simp only []
    split_ifs with hw
    · exact ⟨kept_of_wrote rfl fun _ => if_pos hw, rfl⟩
    · exact ⟨kept_of_wrote rfl fun h => (if_neg hw).trans h, rfl⟩

theorem configure_kept (s : TSL2591 Device) (gain : Option Gain)
    (intTime : Option IntegrationTime) : Kept s (exec (configure gain intTime) s).2
      ∧ (exec (configure gain intTime) s).2.faultCount = s.faultCount := by
  have hgain := gained_kept s gain
  rw [exec_configure]
  rcases hg : s.gained gain with ⟨e | u, s'⟩ <;> rw [hg] at hgain
  · exact hgain
  · have htime := timed_kept s' intTime
    exact ⟨hgain.1.trans htime.1, htime.2.trans hgain.2⟩

/-- An adjustment that goes through forgets the faults, and one that fails leaves them counted. -/
theorem adjustForCurrentLight_kept (s : TSL2591 Device) :
    Kept s (exec adjustForCurrentLight s).2
      ∧ (exec adjustForCurrentLight s).2.faultCount
        = (match (exec adjustForCurrentLight s).1 with
          | .ok _ => 0
          | .error _ => s.faultCount) := by
  have hconf := configure_kept s (some (nextLight s.gain).1) (some (nextLight s.gain).2)
  rw [exec_adjustForCurrentLight]
  rcases hc : exec (configure (some (nextLight s.gain).1) (some (nextLight s.gain).2)) s
    with ⟨e | u, s'⟩ <;> rw [hc] at hconf
  · exact hconf
  · exact ⟨⟨hconf.1.inStep, hconf.1.asked⟩, rfl⟩

/-! ## A read -/

theorem prepare_kept (s : TSL2591 Device) : Kept s (exec prepare s).2
    ∧ ((exec prepare s).2.faultCount = s.faultCount ∨ (exec prepare s).2.faultCount = 0)
    ∧ ∀ u s', exec prepare s = (.ok u, s') → s'.faultCount.toNat < 5 := by
  rw [exec_prepare]
  split_ifs with h
  · obtain ⟨hkept, hcount⟩ := adjustForCurrentLight_kept s
    rcases hex : exec adjustForCurrentLight s with ⟨e | u, s'⟩
    · rw [hex] at hkept hcount
      exact ⟨hkept, Or.inl hcount, by simp⟩
    · rw [hex] at hkept hcount
      have hzero : s'.faultCount = 0 := hcount
      refine ⟨hkept, Or.inr hzero, ?_⟩
      rintro u' s'' heq
      cases heq
      rw [hzero]
      decide
  · refine ⟨⟨id, rfl⟩, Or.inl rfl, ?_⟩
    rintro u s' heq
    cases heq
    omega

/-- The states in which a read asks for the channels. -/
def attempts (s : TSL2591 Device) : List (TSL2591 Device) :=
  match exec prepare s with
  | (.error _, _) => []
  | (.ok _, s₁) =>
    match exec (getLuminosity .fullSpectrum) s₁ with
    | (.error _, _) => [s₁]
    | (.ok _, s₂) => [s₁, s₂]

theorem faultCount_succ {n : UInt32} (h : n.toNat < 5) : (n + 1).toNat = n.toNat + 1 := by
  rw [UInt32.toNat_add]
  exact Nat.mod_eq_of_lt (by change n.toNat + 1 < 2 ^ 32; omega)

theorem getLux_kept (s : TSL2591 Device) (h : s.faultCount.toNat < 5) :
    (InStep s → InStep (exec getLux s).2)
      ∧ (exec getLux s).2.i2c.asked = s.i2c.asked + 1
      ∧ (exec getLux s).2.faultCount.toNat ≤ 5 := by
  rw [exec_getLux]
  rcases s.word with _ | data
  · exact ⟨id, rfl, h.le⟩
  · simp only []
    split_ifs
    · have hcount : (s.faultCount + 1).toNat ≤ 5 := by
        rw [faultCount_succ h]
        omega
      exact ⟨id, rfl, hcount⟩
    · exact ⟨id, rfl, h.le⟩

/-- What a read measures it measures below the threshold, and it asks for nothing else. -/
theorem measure_kept (s : TSL2591 Device) (h : s.faultCount.toNat ≤ 5) :
    (InStep s → InStep (exec measure s).2)
      ∧ (exec measure s).2.faultCount.toNat ≤ 5
      ∧ (exec measure s).2.i2c.asked = s.i2c.asked + (attempts s).length
      ∧ ∀ a ∈ attempts s, a.faultCount.toNat < 5 := by
  obtain ⟨hkept, hcount, hok⟩ := prepare_kept s
  rw [exec_measure, attempts]
  rcases hex : exec prepare s with ⟨e | u, s'⟩
  · rw [hex] at hkept hcount
    refine ⟨hkept.inStep, ?_, hkept.asked, by simp⟩
    rcases hcount with hcount | hcount
    · exact hcount ▸ h
    · exact hcount ▸ Nat.zero_le 5
  · rw [hex] at hkept
    have hlt : s'.faultCount.toNat < 5 := hok u s' hex
    simp only [exec_getLuminosity, exec_sample]
    rcases s'.word with _ | data
    · exact ⟨hkept.inStep, hlt.le, congrArg (· + 1) hkept.asked, by simpa using hlt⟩
    · -- the second value is measured with the count the first one left
      obtain ⟨hstep, hasked, hle⟩ := getLux_kept s'.asked hlt
      have htotal : (exec getLux s'.asked).2.i2c.asked = s.i2c.asked + 2 := by
        rw [hasked]
        exact congrArg (· + 1 + 1) hkept.asked
      have hbelow : ∀ a ∈ [s', s'.asked], a.faultCount.toNat < 5 := by
        intro a ha
        rcases List.mem_pair.mp ha with rfl | rfl
        · exact hlt
        · exact hlt
      rcases hlux : exec getLux s'.asked with ⟨e | lux, s''⟩
      · rw [hlux] at hstep hle htotal
        exact ⟨fun hs => hstep (hkept.inStep hs), hle, htotal, hbelow⟩
      · rw [hlux] at hstep hle htotal
        exact ⟨fun hs => hstep (hkept.inStep hs), hle, htotal, hbelow⟩

/-! ## Runs -/

def Call.attempts (s : TSL2591 Device) : Call → List (TSL2591 Device)
  | .read _ _ => TSL2591.attempts s
  | _ => []

/-- What an operation keeps that asks for no measurement, of a driver that is in step. -/
def Steady (s s' : TSL2591 Device) : Prop :=
  InStep s' ∧ s'.faultCount.toNat ≤ 5 ∧ s'.i2c.asked = s.i2c.asked

/-- What every call keeps, whether it succeeds or fails. -/
theorem call_kept {json : RecordJson} {s s' : TSL2591 Device} {c : Call} (hstep : InStep s)
    (hcount : s.faultCount.toNat ≤ 5) (h : s.call json c = some s') :
    InStep s' ∧ s'.faultCount.toNat ≤ 5
      ∧ s'.i2c.asked = s.i2c.asked + (c.attempts s).length := by
  have henable : ∀ value, Steady s (s.wrote [cmdEnableSet, value]) := fun value =>
    ⟨(s.wrote_enable value).trans hstep, hcount, s.wrote_asked _⟩
  have hconf : ∀ gain intTime, Steady s (exec (configure gain intTime) s).2 :=
    fun gain intTime => by
      obtain ⟨hkept, hc⟩ := configure_kept s gain intTime
      exact ⟨hkept.inStep hstep, hc ▸ hcount, hkept.asked⟩
  have hcurrent : Steady s (exec adjustForCurrentLight s).2 := by
    obtain ⟨hkept, hc⟩ := adjustForCurrentLight_kept s
    refine ⟨hkept.inStep hstep, ?_, hkept.asked⟩
    rw [hc]
    rcases (exec adjustForCurrentLight s).1 with e | u
    · exact hcount
    · exact Nat.zero_le 5
  rcases c with _ | _ | ⟨gain, intTime⟩ | _ | _ | _ | _ | _ | mode | ⟨buffer, start⟩
  · have hs : (exec enable s).2 = s' := Option.some.inj h
    rw [exec_enable] at hs
    exact hs ▸ henable enableFlags
  · have hs : (exec disable s).2 = s' := Option.some.inj h
    rw [exec_disable] at hs
    exact hs ▸ henable enablePoweroff
  · exact Option.some.inj h ▸ hconf gain intTime
  · exact Option.some.inj h ▸ hconf (some .low) (some .intTime100)
  · exact Option.some.inj h ▸ hconf (some .medium) (some .intTime300)
  · exact Option.some.inj h ▸ hconf (some .high) (some .intTime500)
  · exact Option.some.inj h ▸ hconf (some .max) (some .intTime600)
  · exact Option.some.inj h ▸ hcurrent
  · exact Option.some.inj h ▸ ⟨hstep, hcount, rfl⟩
  · obtain ⟨⟨r, s₁, b⟩, hread, rfl⟩ := Option.map_eq_some_iff.mp h
    obtain ⟨rfl, -⟩ := read_some hread
    obtain ⟨hkept, hle, hasked, -⟩ := measure_kept s hcount
    exact ⟨hkept hstep, hle, hasked⟩

/-! ## The settings in force -/

theorem IntegrationTime.bits_inj {i i' : IntegrationTime} (h : i.bits = i'.bits) : i = i' := by
  rcases i <;> rcases i' <;> first | rfl | exact absurd h (by decide)

theorem Gain.bits_inj {g g' : Gain} (h : g.bits = g'.bits) : g = g' := by
  rcases g <;> rcases g' <;> first | rfl | exact absurd h (by decide)

/-- The register stands for one setting of each. -/
theorem register_inj {i i' : IntegrationTime} {g g' : Gain}
    (h : i.bits ||| g.bits = i'.bits ||| g'.bits) : i = i' ∧ g = g' := by
  have htime : ∀ (i : IntegrationTime) (g : Gain), (i.bits ||| g.bits) &&& 0x07 = i.bits := by
    intro i g
    rcases i <;> rcases g <;> rfl
  have hgain : ∀ (i : IntegrationTime) (g : Gain), (i.bits ||| g.bits) &&& 0x30 = g.bits := by
    intro i g
    rcases i <;> rcases g <;> rfl
  refine ⟨IntegrationTime.bits_inj ?_, Gain.bits_inj ?_⟩
  · rw [← htime i g, h, htime]
  · rw [← hgain i g, h, hgain]

/-- The control register is what the driver has cached, so the lux is scaled with the settings in
force, and the faults counted are at most as many as the threshold. -/
structure Coherent (s : TSL2591 Device) : Prop where
  control : s.i2c.control = s.intTime.bits ||| s.gain.bits
  inForce : ∀ i g, s.i2c.control = i.bits ||| g.bits → ∀ lux s', exec getLux s = (.ok lux, s') →
    ∃ data, s.word = some data ∧ lux = luxOf i g (wordOf data)
  faults : s.faultCount ≤ faultThreshold

theorem coherent_of_inStep (hstep : InStep s) (hcount : s.faultCount.toNat ≤ 5) : Coherent s := by
  refine ⟨hstep, ?_, UInt32.le_iff_toNat_le.mpr hcount⟩
  intro i g hctrl lux s' hlux
  obtain ⟨rfl, rfl⟩ := register_inj (hctrl.symm.trans hstep)
  rw [exec_getLux] at hlux
  rcases hw : s.word with _ | data
  · rw [hw] at hlux
    cases hlux
  · rw [hw] at hlux
    simp only [] at hlux
    split_ifs at hlux
    · cases hlux
    · cases hlux
      exact ⟨data, rfl, rfl⟩

theorem Coherent.toNat_faults (h : Coherent s) : s.faultCount.toNat ≤ 5 :=
  UInt32.le_iff_toNat_le.mp h.faults

theorem coherent_step {json : RecordJson} {s s' : TSL2591 Device} {c : Call × Transfers}
    (h : Coherent s) (hs : step json s c = some s') : Coherent s' := by
  obtain ⟨hstep, hcount, -⟩ := call_kept (s := s.expect c.2) h.control h.toNat_faults hs
  exact coherent_of_inStep hstep hcount

/-- The measurements a call attempts are all that the device is asked for, and each is attempted
with fewer faults counted than the threshold. -/
structure Guarded (json : RecordJson) (s : TSL2591 Device) (c : Call × Transfers) : Prop where
  asked : ∀ s', step json s c = some s' →
    s'.i2c.asked = s.i2c.asked + (c.1.attempts (s.expect c.2)).length
  below : ∀ a ∈ c.1.attempts (s.expect c.2), a.faultCount < faultThreshold

theorem guarded_of_coherent {json : RecordJson} {s : TSL2591 Device} {c : Call × Transfers}
    (h : Coherent s) : Guarded json s c := by
  refine ⟨fun s' hs => ?_, fun a ha => UInt32.lt_iff_toNat_lt.mpr ?_⟩
  · exact (call_kept (s := s.expect c.2) h.control h.toNat_faults hs).2.2
  · obtain ⟨c, t⟩ := c
    rcases c with _ | _ | ⟨gain, intTime⟩ | _ | _ | _ | _ | _ | mode | ⟨buffer, start⟩
    case read =>
      exact (measure_kept (s.expect t) h.toNat_faults).2.2.2 a ha
    all_goals simp [Call.attempts] at ha

theorem coherent_new {device : Device} {address : UInt8} {s : TSL2591 Device}
    (h : new device address = .ok s) : Coherent s := by
  obtain ⟨s', hw, hgain, hcount, rfl⟩ := new_ok h
  have hctrl := s'.wrote_ctrl (s'.intTime.bits ||| Gain.medium.bits)
  rw [if_pos hw, ← hgain] at hctrl
  rw [← hgain]
  refine coherent_of_inStep hctrl ?_
  have hzero : (s'.wrote [cmdCtrlSet, s'.intTime.bits ||| s'.gain.bits]).faultCount = 0 := hcount
  rw [hzero]
  exact Nat.zero_le 5

/-- From a successful `new` on, whatever is called and whichever transfers fail, the settings cached
are those in the control register, and no measurement is attempted at the threshold. -/
theorem coherent_run (json : RecordJson) (device : Device) (address : UInt8) (s : TSL2591 Device)
    (h : new device address = .ok s) (cs : List (Call × Transfers)) :
    EveryState (step json) Coherent s cs ∧ EveryStep (step json) (Guarded json) s cs := by
  have hcoherent : EveryState (step json) Coherent s cs :=
    everyStep_invariant (C := fun _ _ => True) (fun _ _ _ hc _ hs => coherent_step hc hs)
      (coherent_new h) (everyStep_of_forall fun _ _ => trivial)
  exact ⟨hcoherent, hcoherent.everyStep fun _ _ => guarded_of_coherent⟩

/-- A sensor on which the three writes of `new` go through. -/
def freshDevice : Device := ⟨0, 0, 0, [true, true, true], []⟩

/-- The gain is set and the integration time is not, and then the channels are saturated. -/
def halfConfigured : List (Call × Transfers) :=
  [(.configure (some .max) (some .intTime600), ⟨true, false, none, none⟩),
    (.read [] 0, ⟨false, false, some (Vector.replicate 4 0xff), some (Vector.replicate 4 0xff)⟩)]

theorem coherent_run_half : ∃ s s', new freshDevice 0x29 = .ok s
    ∧ run (step SensorConfig.recordJson) s halfConfigured = some s'
    ∧ s'.gain = .max ∧ s'.intTime = .intTime300 ∧ s'.faultCount = 1
    ∧ EveryState (step SensorConfig.recordJson) Coherent s halfConfigured
    ∧ EveryStep (step SensorConfig.recordJson) (Guarded SensorConfig.recordJson) s
      halfConfigured := by
  obtain ⟨s, hnew, s', hrun, hend⟩ : ∃ s, new freshDevice 0x29 = .ok s
      ∧ ∃ s', run (step SensorConfig.recordJson) s halfConfigured = some s'
        ∧ s'.gain = .max ∧ s'.intTime = .intTime300 ∧ s'.faultCount = 1 :=
    ⟨_, rfl, _, rfl, by decide +kernel⟩
  obtain ⟨hgain, htime, hcount⟩ := hend
  exact ⟨s, s', hnew, hrun, hgain, htime, hcount,
    coherent_run SensorConfig.recordJson freshDevice 0x29 s hnew halfConfigured⟩

end TSL2591

end Pmind
