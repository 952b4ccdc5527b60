import Pmind.Proofs.SensorPlatform
import Pmind.Proofs.Tsl2591

/-!
# When the light sensor is adjusted

A read counts a fault if it overflows, and adjusts the settings first if five are counted. Nothing
but an adjustment that goes through takes a fault off the count: not a read that succeeds. So the
five need not have come one right after the other (`retunes_iff`).
-/

namespace Pmind

open Fallible Transition

namespace TSL2591

/-! ## What one read comes to -/

/-- Whether a measurement overflows: both reads of the channels go through, and the second word
cannot be right. -/
def Saturates (word₁ word₂ : Option (Vector UInt8 4)) : Prop :=
  word₁ ≠ none ∧ ∃ data ∈ word₂, Overflow (wordOf data)

/-- Whether a read overflows: an adjustment that is due goes through, and the measurement
overflows. -/
def Overflows (s : TSL2591 Device) (t : Transfers) : Prop :=
  (s.faultCountThreshold = true → t.write₁ = true ∧ t.write₂ = true)
    ∧ Saturates t.word₁ t.word₂

/-- Whether a read changes the settings: an adjustment is due, and its first write goes through. -/
def Retunes (s : TSL2591 Device) (t : Transfers) : Prop :=
  s.faultCountThreshold = true ∧ t.write₁ = true

theorem nextLight_ne (gain : Gain) : (nextLight gain).1 ≠ gain := by
  rcases gain <;> decide

/-- The ways the adjustment before a read can end. -/
inductive Prepared (s : TSL2591 Device) (t : Transfers) :
    Except Tsl2591Error Unit × TSL2591 Device → Prop where
  | notDue (h : s.faultCountThreshold = false) : Prepared s t (.ok (), s.expect t)
  | failed {s'} (h : s.faultCountThreshold = true) (hw : t.write₁ = false)
    (hgain : s'.gain = s.gain) (htime : s'.intTime = s.intTime)
    (hcount : s'.faultCount = s.faultCount) :
    Prepared s t (.error (.i2cError .i2cWriteError), s')
  | half {s'} (h : s.faultCountThreshold = true) (hw₁ : t.write₁ = true) (hw₂ : t.write₂ = false)
    (hgain : s'.gain ≠ s.gain) (hcount : s'.faultCount = s.faultCount) :
    Prepared s t (.error (.i2cError .i2cWriteError), s')
  | done {s'} (h : s.faultCountThreshold = true) (hw₁ : t.write₁ = true) (hw₂ : t.write₂ = true)
    (hgain : s'.gain ≠ s.gain) (hcount : s'.faultCount = 0)
    (hwords : s'.i2c.words = [t.word₁, t.word₂]) : Prepared s t (.ok (), s')

theorem prepared (s : TSL2591 Device) (t : Transfers) :
    Prepared s t (exec prepare (s.expect t)) := by
  rw [exec_prepare]
  rcases h : s.faultCountThreshold
  · have hlt : ¬ 5 ≤ (s.expect t).faultCount.toNat := by
      rw [← faultCountThreshold_iff]
      exact fun hge => absurd (h.symm.trans hge) (by decide)
    rw [if_neg hlt]
    exact .notDue h
  · have hge : 5 ≤ (s.expect t).faultCount.toNat := faultCountThreshold_iff.mp h
    rw [if_pos hge, exec_adjustForCurrentLight, exec_configure]
    have hnext := nextLight_ne s.gain
    rcases h₁ : t.write₁
    · obtain ⟨s₁, hs₁, hgain, htime, hcount⟩ :=
        gained_error (s := s.expect t) h₁ (nextLight s.gain).1
      rw [show (s.expect t).gain = s.gain from rfl, hs₁]
      exact .failed h h₁ hgain htime hcount
    · obtain ⟨s₁, hs₁, hgain, hcount, hwrites, hwords⟩ :=
        gained_ok (s := s.expect t) h₁ (nextLight s.gain).1
      rw [show (s.expect t).gain = s.gain from rfl, hs₁]
      simp only []
      have hwrites₂ : s₁.writes = t.write₂ := congrArg (List.headD · false) hwrites
      rw [← hgain] at hnext
      rcases h₂ : t.write₂ <;> rw [h₂] at hwrites₂
      · obtain ⟨s₂, hs₂, hgain₂, hcount₂⟩ := timed_error hwrites₂ (nextLight s.gain).2
        rw [hs₂]
        exact .half h h₁ h₂ (hgain₂ ▸ hnext) (hcount₂.trans hcount)
      · obtain ⟨s₂, hs₂, hgain₂, hwords₂⟩ := timed_ok hwrites₂ (nextLight s.gain).2
        rw [hs₂]
        exact .done h h₁ h₂ (hgain₂ ▸ hnext) rfl (hwords₂.trans hwords)

/-- The ways a measurement can end. -/
inductive Sampled (s : TSL2591 Device) : Except Tsl2591Error Light × TSL2591 Device → Prop where
  | overflow {s'} (h : Saturates s.word s.asked.word) (hgain : s'.gain = s.gain)
    (htime : s'.intTime = s.intTime) (hcount : s'.faultCount = s.faultCount + 1) :
    Sampled s (.error .signalOverflow, s')
  | other {r s'} (h : ¬ Saturates s.word s.asked.word) (hr : r ≠ .error .signalOverflow)
    (hgain : s'.gain = s.gain) (htime : s'.intTime = s.intTime)
    (hcount : s'.faultCount = s.faultCount) : Sampled s (r, s')

theorem sampled (s : TSL2591 Device) : Sampled s (exec sample s) := by
  rw [exec_sample]
  rcases h₁ : s.word with _ | data₁
  · exact .other (fun h => h.1 h₁) (by simp) rfl rfl rfl
  · rw [exec_getLux]
    rcases h₂ : s.asked.word with _ | data₂
    · refine .other ?_ (by simp) rfl rfl rfl
      rintro ⟨-, data, hdata, -⟩
      rw [h₂] at hdata
      cases hdata
    · simp only []
      split_ifs with hof
      · exact .overflow ⟨by simp [h₁], data₂, h₂, hof⟩ rfl rfl rfl
      · refine .other ?_ (by simp) rfl rfl rfl
        rintro ⟨-, data, hdata, hof'⟩
        rw [h₂] at hdata
        cases hdata
        exact hof hof'

def overflowed : PlatformSensorError := .lightSensorError .signalOverflow

theorem mapError_overflow {α : Type} {r : Except Tsl2591Error α} :
    r.mapError (fun e => PlatformSensorError.lightSensorError e.toLightSensorError)
      = .error overflowed ↔ r = .error .signalOverflow := by
  rcases r with (_ | _ | _ | _) | a <;> simp [Except.mapError, overflowed,
    Tsl2591Error.toLightSensorError]

/-- What a read comes to with these transfers: whether it overflows, whether it changes the
settings, and which faults are counted then. -/
structure Outcome (s : TSL2591 Device) (t : Transfers)
    (m : Except PlatformSensorError Light × TSL2591 Device) : Prop where
  overflow : m.1 = .error overflowed ↔ Overflows s t
  retune : (m.2.gain ≠ s.gain ∨ m.2.intTime ≠ s.intTime) ↔ Retunes s t
  counted : (m.2.faultCount = s.faultCount ∨ m.2.faultCount = 0)
    ∨ Overflows s t ∧ (m.2.faultCount = s.faultCount + 1 ∨ m.2.faultCount = 1)

/-- The outcome of a read that comes to measure. -/
theorem outcome_sample {s s₁ : TSL2591 Device} {t : Transfers}
    (hwrites : s.faultCountThreshold = true → t.write₁ = true ∧ t.write₂ = true)
    (hwords : s₁.i2c.words = [t.word₁, t.word₂])
    (hretune : (s₁.gain ≠ s.gain ∨ s₁.intTime ≠ s.intTime) ↔ Retunes s t)
    (hcount : s₁.faultCount = s.faultCount ∨ s₁.faultCount = 0) :
    Outcome s t ((exec sample s₁).1.mapError fun e => .lightSensorError e.toLightSensorError,
      (exec sample s₁).2) := by
  have hword₁ : s₁.word = t.word₁ := by rw [word, hwords]; rfl
  have hword₂ : s₁.asked.word = t.word₂ := by
    change (s₁.i2c.words.tail.headD none) = _
    rw [hwords]
    rfl
  have hsat : Saturates s₁.word s₁.asked.word ↔ Overflows s t := by
    rw [hword₁, hword₂]
    exact ⟨fun h => ⟨hwrites, h⟩, fun h => h.2⟩
  have hs := sampled s₁
  rcases hex : exec sample s₁ with ⟨r, s'⟩
  rw [hex] at hs
  cases hs with
  | overflow h hgain htime hc =>
    have hof := hsat.mp h
    refine ⟨iff_of_true (mapError_overflow.mpr rfl) hof, ?_, Or.inr ⟨hof, ?_⟩⟩
    · rw [hgain, htime]
      exact hretune
    · rw [hc]
      rcases hcount with hcount | hcount
      · exact Or.inl (congrArg (· + 1) hcount)
      · exact Or.inr (by rw [hcount]; rfl)
  | other h hr hgain htime hc =>
    have hof : ¬ Overflows s t := fun hof => h (hsat.mpr hof)
    refine ⟨iff_of_false (fun heq => hr (mapError_overflow.mp heq)) hof, ?_, Or.inl ?_⟩
    · rw [hgain, htime]
      exact hretune
    · rw [hc]
      exact hcount

theorem outcome_measure (s : TSL2591 Device) (t : Transfers) :
    Outcome s t (exec measure (s.expect t)) := by
  rw [exec_measure]
  have hprep := prepared s t
  rcases hp : exec prepare (s.expect t) with ⟨r, s₁⟩
  rw [hp] at hprep
  cases hprep with
  | notDue h =>
    have hnot : s.faultCountThreshold ≠ true := by simp [h]
    refine outcome_sample (fun h' => absurd h' hnot) rfl ?_ (Or.inl rfl)
    exact iff_of_false (by simp [expect]) fun h' => hnot h'.1
  | failed h hw hgain htime hcount =>
    refine ⟨?_, ?_, Or.inl (Or.inl hcount)⟩
    · refine iff_of_false (by simp [overflowed, Tsl2591Error.toLightSensorError]) ?_
      rintro ⟨hwrites, -⟩
      exact absurd ((hwrites h).1.symm.trans hw) (by decide)
    · refine iff_of_false (by simp [hgain, htime]) ?_
      rintro ⟨-, hw'⟩
      exact absurd (hw'.symm.trans hw) (by decide)
  | half h hw₁ hw₂ hgain hcount =>
    refine ⟨?_, iff_of_true (Or.inl hgain) ⟨h, hw₁⟩, Or.inl (Or.inl hcount)⟩
    refine iff_of_false (by simp [overflowed, Tsl2591Error.toLightSensorError]) ?_
    rintro ⟨hwrites, -⟩
    exact absurd ((hwrites h).2.symm.trans hw₂) (by decide)
  | done h hw₁ hw₂ hgain hcount hwords =>
    exact outcome_sample (fun _ => ⟨hw₁, hw₂⟩) hwords (iff_of_true (Or.inl hgain) ⟨h, hw₁⟩)
      (Or.inr hcount)

/-! ## Sequences of reads -/

instance (word₁ word₂ : Option (Vector UInt8 4)) : Decidable (Saturates word₁ word₂) :=
  have : Decidable (∃ data ∈ word₂, Overflow (wordOf data)) := Option.decidableExistsMem word₂
  inferInstanceAs (Decidable (_ ∧ _))

instance (s : TSL2591 Device) (t : Transfers) : Decidable (Overflows s t) :=
  inferInstanceAs (Decidable (_ ∧ _))

structure Reading where
  buffer : List UInt8
  start : ℕ
  transfers : Transfers

structure Tuning where
  sensor : TSL2591 Device
  /-- What the reads have come to, the latest first. -/
  results : List ReadResult
  /-- How many of the latest reads overflowed in a row, by what their transfers came to. -/
  streak : ℕ

namespace Tuning

def step (json : RecordJson) (s : Tuning) (e : Reading) : Option Tuning :=
  ((s.sensor.expect e.transfers).read json e.buffer e.start).map fun (r, sensor, _) =>
    ⟨sensor, r :: s.results, if Overflows s.sensor e.transfers then s.streak + 1 else 0⟩

/-- A read changes the settings only right after as many overflows as the threshold. -/
def Persistent (json : RecordJson) (s : Tuning) (e : Reading) : Prop :=
  ∀ s', step json s e = some s' →
    s'.sensor.gain ≠ s.sensor.gain ∨ s'.sensor.intTime ≠ s.sensor.intTime →
      5 ≤ s.results.length ∧ ∀ r ∈ s.results.take 5, r = .error overflowed

/-- An adjustment that is due, and whose first write goes through, comes right after as many
overflows as the threshold. -/
def Consecutive (s : Tuning) (e : Reading) : Prop := Retunes s.sensor e.transfers → 5 ≤ s.streak

/-- Once a fault is counted, every read overflows. -/
def Unbroken (s : Tuning) (e : Reading) : Prop :=
  s.sensor.faultCount ≠ 0 → Overflows s.sensor e.transfers

theorem le_length_takeWhile {α : Type} (p : α → Bool) : ∀ (n : ℕ) (l : List α),
    n ≤ (l.takeWhile p).length ↔ n ≤ l.length ∧ ∀ a ∈ l.take n, p a = true
  | 0, l => by simp
  | n + 1, [] => by simp
  | n + 1, a :: l => by
    have ih := le_length_takeWhile p n l
    rw [List.takeWhile_cons, List.take_succ_cons, List.forall_mem_cons, List.length_cons]
    rcases h : p a
    · simp
    · simp only [if_true, List.length_cons, Nat.add_le_add_iff_right, ih, true_and]

/-- The streak is what the results show. -/
def Tracked (s : Tuning) : Prop :=
  s.streak = (s.results.takeWhile (· = .error overflowed)).length

theorem step_some {json : RecordJson} {s s' : Tuning} {e : Reading}
    (h : step json s e = some s') : ∃ r, s'.results = r :: s.results
      ∧ s'.streak = (if Overflows s.sensor e.transfers then s.streak + 1 else 0)
      ∧ (r = .error overflowed ↔ Overflows s.sensor e.transfers)
      ∧ s'.sensor = (exec measure (s.sensor.expect e.transfers)).2 := by
  obtain ⟨⟨r, sensor, b⟩, hread, rfl⟩ := Option.map_eq_some_iff.mp h
  obtain ⟨hsensor, hres⟩ := read_some hread
  have hout := outcome_measure s.sensor e.transfers
  exact ⟨r, rfl, rfl, (hres overflowed (by simp [overflowed])).trans hout.overflow, hsensor⟩

theorem tracked_step {json : RecordJson} (s : Tuning) (e : Reading) (s' : Tuning)
    (h : Tracked s) (hs : step json s e = some s') : Tracked s' := by
  obtain ⟨r, hresults, hstreak, hr, -⟩ := step_some hs
  rw [Tracked, hresults, hstreak, List.takeWhile_cons]
  by_cases hof : Overflows s.sensor e.transfers
  · rw [if_pos hof, if_pos (by simpa using hr.mpr hof), List.length_cons, h]
  · rw [if_neg hof, if_neg (by simpa using fun heq => hof (hr.mp heq)), List.length_nil]

theorem persistent_iff {json : RecordJson} (s : Tuning) (e : Reading) (s' : Tuning)
    (h : Tracked s) (hs : step json s e = some s') : Persistent json s e ↔ Consecutive s e := by
  obtain ⟨r, -, -, -, hsensor⟩ := step_some hs
  have hretune := (outcome_measure s.sensor e.transfers).retune
  have hstreak := le_length_takeWhile (· = .error overflowed) 5 s.results
  rw [← show s.streak = _ from h] at hstreak
  simp only [decide_eq_true_eq] at hstreak
  simp only [Persistent, Consecutive, hs, Option.some.injEq, forall_eq', hsensor, hretune, hstreak]

/-- As many faults are counted as there were overflows last, or fewer. -/
def CountedLast (s : Tuning) : Prop := s.sensor.faultCount.toNat ≤ s.streak

theorem countedLast_step {json : RecordJson} (s : Tuning) (e : Reading) (s' : Tuning)
    (h : CountedLast s) (hu : Unbroken s e) (hs : step json s e = some s') : CountedLast s' := by
  obtain ⟨r, -, hstreak, -, hsensor⟩ := step_some hs
  have hcounted := (outcome_measure s.sensor e.transfers).counted
  rw [← hsensor] at hcounted
  rw [CountedLast, hstreak]
  by_cases hof : Overflows s.sensor e.transfers
  · have hle : (s.sensor.faultCount + 1).toNat ≤ s.sensor.faultCount.toNat + 1 := by
      rw [UInt32.toNat_add]
      exact Nat.mod_le _ _
    rw [if_pos hof]
    have hlast : s.sensor.faultCount.toNat ≤ s.streak := h
    rcases hcounted with (hc | hc) | ⟨-, hc | hc⟩ <;> rw [hc]
    · omega
    · exact Nat.zero_le _
    · omega
    · exact Nat.le_add_left 1 s.streak
  · have hzero : s.sensor.faultCount = 0 := by_contra fun hne => hof (hu hne)
    rw [if_neg hof]
    rcases hcounted with (hc | hc) | ⟨hof', -⟩
    · rw [hc, hzero]
      rfl
    · rw [hc]
      rfl
    · exact absurd hof' hof

theorem CountedLast.consecutive {s : Tuning} (h : CountedLast s) (e : Reading) :
    Consecutive s e := by
  intro hre
  have hge := faultCountThreshold_iff.mp hre.1
  exact hge.trans h

theorem persistent_run_iff {json : RecordJson} {s : TSL2591 Device} {es : List Reading} {t : Tuning}
    (h : run (step json) ⟨s, [], 0⟩ es = some t) :
    EveryStep (step json) (Persistent json) ⟨s, [], 0⟩ es
      ↔ EveryStep (step json) Consecutive ⟨s, [], 0⟩ es :=
  everyStep_congr_of_invariant tracked_step persistent_iff rfl h

/-- In a sequence of reads the settings change only right after five overflows exactly if every
adjustment that is due and whose first write goes through comes right after five of them; and so it
is if, from a fault that is counted on, every read overflows until the adjustment. -/
theorem retunes_iff (json : RecordJson) (s : TSL2591 Device) (hs : s.faultCount = 0)
    (es : List Reading) (t : Tuning) (h : run (step json) ⟨s, [], 0⟩ es = some t) :
    (EveryStep (step json) (Persistent json) ⟨s, [], 0⟩ es
        ↔ EveryStep (step json) Consecutive ⟨s, [], 0⟩ es)
      ∧ (EveryStep (step json) Unbroken ⟨s, [], 0⟩ es →
        EveryStep (step json) (Persistent json) ⟨s, [], 0⟩ es) := by
  have hiff := persistent_run_iff h
  refine ⟨hiff, fun hu => hiff.mpr ?_⟩
  have hzero : CountedLast ⟨s, [], 0⟩ := by
    rw [CountedLast, hs]
    rfl
  have hlast : EveryState (step json) CountedLast ⟨s, [], 0⟩ es :=
    everyStep_invariant (fun s e s' hc hun hst => countedLast_step s e s' hc hun hst) hzero hu
  exact hlast.everyStep fun s e hc => hc.consecutive e

instance (s : Tuning) (e : Reading) : Decidable (Consecutive s e) :=
  inferInstanceAs (Decidable (_ ∧ _ → _))

instance (s : Tuning) (e : Reading) : Decidable (Unbroken s e) :=
  inferInstanceAs (Decidable (_ → _))

/-- What `serde_json` makes of one record of the light. -/
def lightText : List UInt8 := "\x7b\"fs\":256,\"lux\":13.9264\x7d".toUTF8.toList

def lightJson : RecordJson where
  soil := ⟨fun _ => none, fun _ => none⟩
  light := ⟨fun r => if r.fs = 256 ∧ r.lux = 13.9264 then some lightText else none,
    fun text => if text = lightText then some ⟨256, 13.9264⟩ else none⟩
  gas := ⟨fun _ => none, fun _ => none⟩

/-- A read both of whose words are `word`. -/
def reading (word : Vector UInt8 4) : Reading :=
  ⟨List.replicate 127 0, 0, ⟨true, true, some word, some word⟩⟩

def shade : Reading := reading #v[0, 1, 0, 0]

def glare : Reading := reading #v[0xff, 0xff, 0, 0]

/-- The driver as `new` leaves it. -/
def fresh : TSL2591 Device := ⟨0x29, ⟨0x93, 0x12, 0, [], []⟩, .medium, .intTime300, 0⟩

theorem retunes_glare : ∃ t, run (step lightJson) ⟨fresh, [], 0⟩
      [shade, glare, glare, glare, glare, glare, glare] = some t ∧ t.sensor.gain = .high
    ∧ EveryStep (step lightJson) (Persistent lightJson) ⟨fresh, [], 0⟩
      [shade, glare, glare, glare, glare, glare, glare] := by
  have hend : (run (step lightJson) ⟨fresh, [], 0⟩
      [shade, glare, glare, glare, glare, glare, glare]).map (fun t => t.sensor.gain)
        = some .high := by decide +kernel
  obtain ⟨t, hrun, hgain⟩ := Option.map_eq_some_iff.mp hend
  exact ⟨t, hrun, hgain, (retunes_iff lightJson fresh rfl _ t hrun).1.mpr (by decide +kernel)⟩

/-- A fault at every other read, which succeed in between: the settings change after the fifth. -/
theorem not_persistent : ∃ t, run (step lightJson) ⟨fresh, [], 0⟩
      [glare, shade, glare, shade, glare, shade, glare, shade, glare, glare] = some t
    ∧ t.sensor.gain = .high ∧ t.results.count (.ok lightText.length) = 4
    ∧ ¬ EveryStep (step lightJson) (Persistent lightJson) ⟨fresh, [], 0⟩
      [glare, shade, glare, shade, glare, shade, glare, shade, glare, glare] := by
  have hend : (run (step lightJson) ⟨fresh, [], 0⟩
      [glare, shade, glare, shade, glare, shade, glare, shade, glare, glare]).map
        (fun t => (t.sensor.gain, t.results.count (.ok lightText.length))) = some (.high, 4) := by
    decide +kernel
  obtain ⟨t, hrun, heq⟩ := Option.map_eq_some_iff.mp hend
  obtain ⟨hgain, hcount⟩ := Prod.mk.inj heq
  refine ⟨t, hrun, hgain, hcount, fun h => ?_⟩
  exact absurd ((persistent_run_iff hrun).mp h) (by decide +kernel)

end Tuning

end TSL2591

end Pmind
