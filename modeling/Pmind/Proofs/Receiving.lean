import Pmind.Receiving

/-!
# What the receive task sends

The loop's sleep is a watchdog that the datagrams re-arm, so the time it fires is known from the
arrivals alone: what arrives before it and before the first error is heard, and after that one
message at most tells how the task ended.
-/

namespace Pmind

open Transition Watchdog

namespace NodeEventHandler

/-- How the task ends that is not stopped otherwise before `expiry`. -/
def EndsWith (arrivals : List Arrival) (upTo expiry : ℕ) (terminal : List NodeEvent) : Prop :=
  (Arrival.FailedBefore arrivals expiry ∧ ∃ addr, terminal = [.socketError addr])
    ∨ (¬ Arrival.FailedBefore arrivals expiry ∧ expiry ≤ upTo
      ∧ ∃ addr, terminal = [.nodeTimeout addr])
    ∨ (¬ Arrival.FailedBefore arrivals expiry ∧ upTo < expiry ∧ terminal = [])

theorem beats_cons_some {a : Arrival} {arrivals : List Arrival} {r : Received × Int64}
    (h : a.result = some r) :
    Arrival.beats (a :: arrivals) = a.time :: Arrival.beats arrivals := by
  simp [Arrival.beats, h]

theorem beats_sublist (arrivals : List Arrival) :
    (Arrival.beats arrivals).Sublist (arrivals.map Arrival.time) :=
  List.Sublist.map _ List.filter_sublist

/-- A datagram is no failure. -/
theorem failedBefore_cons {a : Arrival} {arrivals : List Arrival} {r : Received × Int64} {x : ℕ}
    (h : a.result = some r) :
    Arrival.FailedBefore (a :: arrivals) x ↔ Arrival.FailedBefore arrivals x := by
  simp [Arrival.FailedBefore, h]

/-- What comes before the task has ended, if nothing but an error stops it before `expiry`. -/
def heardBy (arrivals : List Arrival) (expiry : ℕ) : List Arrival :=
  arrivals.filter fun a => a.time < expiry ∧ ¬ Arrival.FailedBefore arrivals a.time

theorem heardBy_nil_of_le {arrivals : List Arrival} {expiry : ℕ}
    (h : ∀ a ∈ arrivals, expiry ≤ a.time) : heardBy arrivals expiry = [] :=
  List.filter_eq_nil_iff.mpr fun a ha => by simp [Nat.not_lt.mpr (h a ha)]

theorem heardBy_cons_some {a : Arrival} {arrivals : List Arrival} {r : Received × Int64}
    {expiry : ℕ} (h : a.result = some r) (hlt : ∀ b ∈ arrivals, a.time < b.time)
    (ha : a.time < expiry) : heardBy (a :: arrivals) expiry = a :: heardBy arrivals expiry := by
  have hfirst : ¬ Arrival.FailedBefore (a :: arrivals) a.time := by
    rw [failedBefore_cons h]
    rintro ⟨b, hb, -, hba⟩
    exact absurd hba (hlt b hb).le.not_gt
  rw [heardBy, List.filter_cons_of_pos (by simp [ha, hfirst])]
  simp only [failedBefore_cons h]
  rfl

theorem heardBy_cons_none {a : Arrival} {arrivals : List Arrival} {expiry : ℕ}
    (h : a.result = none) (hlt : ∀ b ∈ arrivals, a.time < b.time) (ha : a.time < expiry) :
    heardBy (a :: arrivals) expiry = [a] := by
  have hfirst : ¬ Arrival.FailedBefore (a :: arrivals) a.time := by
    rintro ⟨b, hb, -, hba⟩
    rcases List.mem_cons.mp hb with rfl | hb
    · exact absurd hba (lt_irrefl _)
    · exact absurd hba (hlt b hb).le.not_gt
  rw [heardBy, List.filter_cons_of_pos (by simp [ha, hfirst]), List.filter_eq_nil_iff.mpr]
  intro b hb
  have hfail : Arrival.FailedBefore (a :: arrivals) b.time := ⟨a, List.mem_cons_self, h, hlt b hb⟩
  simp [hfail]

/-- From the turn that begins at `since`, the messages are the readings of what is heard, and then
how the task ends. -/
def Traced (json : SerdeJson) (upTo since : ℕ) (arrivals : List Arrival)
    (h : NodeEventHandler) : Prop :=
  ∃ terminal, outputs step (sent json) h (selects upTo since arrivals)
      = (heardBy arrivals (expiry defaultTimeout since (Arrival.beats arrivals))).filterMap
          (Arrival.reading json) ++ terminal
    ∧ EndsWith arrivals upTo (expiry defaultTimeout since (Arrival.beats arrivals)) terminal

section Turn

variable {json : SerdeJson} {upTo since : ℕ} {a : Arrival} {arrivals : List Arrival}
  {h : NodeEventHandler}

/-- The sleep is over before anything arrives. -/
theorem traced_quiet (hh : h.phase = .receiving)
    (hall : ∀ b ∈ arrivals, since + defaultTimeout < b.time) (hup : since + defaultTimeout ≤ upTo) :
    Traced json upTo since arrivals h := by
  have hexp : expiry defaultTimeout since (Arrival.beats arrivals) = since + defaultTimeout :=
    expiry_eq_of_quiet fun b hb => by
      obtain ⟨c, hc, rfl⟩ := List.mem_map.mp ((beats_sublist _).mem hb)
      exact hall c hc
  have hsel : selects upTo since arrivals = [.timeout] := by
    rcases arrivals with _ | ⟨a, arrivals⟩
    · exact if_pos hup
    · exact if_pos (hall a List.mem_cons_self)
  refine ⟨[.nodeTimeout h.nodeAddr], ?_, Or.inr (Or.inl ⟨?_, ?_, _, rfl⟩)⟩
  · rw [hexp, heardBy_nil_of_le fun b hb => (hall b hb).le, hsel]
    simp [outputs, step, sent, hh]
  · rw [hexp]
    rintro ⟨b, hb, -, hbt⟩
    exact absurd hbt (hall b hb).le.not_gt
  · rw [hexp]
    exact hup

/-- An error comes before the sleep is over. -/
theorem traced_error (hh : h.phase = .receiving) (hr : a.result = none)
    (hlt : ∀ b ∈ arrivals, a.time < b.time) (hbefore : a.time ≤ since + defaultTimeout)
    (hexp : a.time < expiry defaultTimeout since (Arrival.beats (a :: arrivals))) :
    Traced json upTo since (a :: arrivals) h := by
  refine ⟨[.socketError h.nodeAddr], ?_, Or.inl ⟨⟨a, List.mem_cons_self, hr, hexp⟩, _, rfl⟩⟩
  rw [heardBy_cons_none hr hlt hexp]
  simp [selects, Nat.not_lt.mpr hbefore, hr, outputs, step, sent, hh, Arrival.reading]

/-- A datagram comes before the sleep is over, and the loop begins a new turn. -/
theorem traced_datagram {d : Received} {now : Int64} (hh : h.phase = .receiving)
    (hr : a.result = some (d, now)) (hlt : ∀ b ∈ arrivals, a.time < b.time)
    (hbefore : a.time ≤ since + defaultTimeout)
    (hnext : a.time < expiry defaultTimeout a.time (Arrival.beats arrivals))
    (ih : Traced json upTo a.time arrivals { h with nodeAddr := d.sender }) :
    Traced json upTo since (a :: arrivals) h := by
  obtain ⟨terminal, hout, hterm⟩ := ih
  have hexp : expiry defaultTimeout since (Arrival.beats (a :: arrivals))
      = expiry defaultTimeout a.time (Arrival.beats arrivals) := by
    rw [beats_cons_some hr, expiry_cons_of_le hbefore]
  have hs : step h (.received d now) = some { h with nodeAddr := d.sender } := by
    simp [step, hh]
  refine ⟨terminal, ?_, ?_⟩
  · rw [hexp, heardBy_cons_some hr hlt hnext, selects, if_neg (Nat.not_lt.mpr hbefore), hr]
    simp only []
    rw [outputs_cons hs, hout, ← List.append_assoc]
    congr 1
    rcases hj : json.fromSlice (d.bytes.take bufferSize) with _ | data <;>
      simp [sent, hh, hj, Arrival.reading, hr]
  · rw [hexp]
    simpa only [EndsWith, failedBefore_cons hr] using hterm

end Turn

theorem traced_selects (json : SerdeJson) {upTo : ℕ} : ∀ {since : ℕ} {arrivals : List Arrival}
    {h : NodeEventHandler}, h.phase = .receiving →
    (since :: arrivals.map Arrival.time).Pairwise (· < ·) → (∀ a ∈ arrivals, a.time ≤ upTo) →
    (∀ u ∈ since :: Arrival.beats arrivals, ∀ a ∈ arrivals, a.time ≠ u + defaultTimeout) →
      Traced json upTo since arrivals h
  | since, [], h, hh, _, _, _ => by
    by_cases hend : since + defaultTimeout ≤ upTo
    · exact traced_quiet hh (by simp) hend
    · have hfail : ¬ Arrival.FailedBefore [] (since + defaultTimeout) := by
        simp [Arrival.FailedBefore]
      refine ⟨[], ?_, Or.inr (Or.inr ⟨hfail, Nat.not_le.mp hend, rfl⟩)⟩
      simp [selects, hend, outputs, heardBy]
  | since, a :: arrivals, h, hh, hsorted, hin, hties => by
    obtain ⟨hsince, hrest⟩ := List.pairwise_cons.mp hsorted
    have hlt : ∀ b ∈ arrivals, a.time < b.time := fun b hb =>
      (List.pairwise_cons.mp hrest).1 _ (List.mem_map_of_mem hb)
    by_cases hover : since + defaultTimeout < a.time
    · refine traced_quiet hh (fun b hb => ?_) (hover.le.trans (hin a List.mem_cons_self))
      rcases List.mem_cons.mp hb with rfl | hb
      · exact hover
      · exact hover.trans (hlt b hb)
    · have hbefore : a.time < since + defaultTimeout :=
        lt_of_le_of_ne (Nat.not_lt.mp hover) (hties since List.mem_cons_self a List.mem_cons_self)
      have hbeats : (since :: Arrival.beats (a :: arrivals)).Pairwise (· < ·) :=
        hsorted.sublist ((beats_sublist _).cons_cons since)
      rcases hr : a.result with _ | ⟨d, now⟩
      · exact traced_error hh hr hlt hbefore.le (hbefore.trans_le (add_le_expiry hbeats))
      · rw [beats_cons_some hr] at hbeats
        have hnext : a.time < expiry defaultTimeout a.time (Arrival.beats arrivals) := by
          have hpos : 0 < defaultTimeout := by decide
          have := add_le_expiry (d := defaultTimeout) (List.pairwise_cons.mp hbeats).2
          omega
        refine traced_datagram hh hr hlt hbefore.le hnext ?_
        exact traced_selects json hh hrest (fun b hb => hin b (List.mem_cons_of_mem _ hb))
          fun u hu b hb => hties u (by rw [beats_cons_some hr]; exact List.mem_cons_of_mem _ hu) b
            (List.mem_cons_of_mem _ hb)

end NodeEventHandler

namespace Timeline

variable {t : Timeline}

/-- When the loop's sleep is over that no error comes before. -/
def expiry (t : Timeline) : ℕ := Watchdog.expiry defaultTimeout 0 (Arrival.beats t.arrivals)

theorem timedOutBy_iff {x : ℕ} : t.TimedOutBy x ↔ t.expiry ≤ x :=
  (expiry_le_iff (t.sorted.sublist ((NodeEventHandler.beats_sublist _).cons_cons 0))).symm

theorem heard_eq : t.heard = NodeEventHandler.heardBy t.arrivals t.expiry := by
  simp only [heard, NodeEventHandler.heardBy, timedOutBy_iff, Nat.not_le]

theorem timesOut_iff :
    t.TimesOut ↔ t.expiry ≤ t.upTo ∧ ¬ Arrival.FailedBefore t.arrivals t.expiry := by
  have hmono : ∀ x y, x ≤ y → Arrival.FailedBefore t.arrivals x →
      Arrival.FailedBefore t.arrivals y := by
    rintro x y hxy ⟨a, ha, hr, hax⟩
    exact ⟨a, ha, hr, hax.trans_le hxy⟩
  refine ⟨?_, ?_⟩
  · rintro ⟨u, hu, hq, hup, hok⟩
    have hle : t.expiry ≤ u + defaultTimeout := timedOutBy_iff.mp ⟨u, hu, hq, le_rfl⟩
    exact ⟨hle.trans hup, fun hf => hok (hmono _ _ hle hf)⟩
  · rintro ⟨hup, hok⟩
    obtain ⟨u, hu, hq, hle⟩ := timedOutBy_iff.mpr (le_refl t.expiry)
    exact ⟨u, hu, hq, hle.trans hup, fun hf => hok (hmono _ _ hle hf)⟩

theorem fails_iff : t.Fails ↔ Arrival.FailedBefore t.arrivals t.expiry := by
  simp only [Fails, Arrival.FailedBefore, timedOutBy_iff, Nat.not_le]

end Timeline

namespace NodeEventHandler

/-- Whatever arrives and when, the task sends a reading for each datagram it hears that decodes, in
order, and after them at most one message more: that the node timed out, exactly if the timeout
passes before an error, or that the socket failed, exactly if an error comes first. -/
theorem messages_trace (json : SerdeJson) (addr : SocketAddrV6) (t : Timeline) :
    ∃ terminal, messages json addr t = t.heard.filterMap (Arrival.reading json) ++ terminal
      ∧ (terminal = [] ∨ ∃ a, terminal = [.nodeTimeout a] ∨ terminal = [.socketError a])
      ∧ ((∃ a, terminal = [.nodeTimeout a]) ↔ t.TimesOut)
      ∧ ((∃ a, terminal = [.socketError a]) ↔ t.Fails) := by
  obtain ⟨terminal, hout, hterm⟩ := traced_selects json (h := ⟨addr, addr, .receiving⟩) rfl
    t.sorted t.inside t.apart
  have hbind : step (new addr) (.bind true) = some ⟨addr, addr, .receiving⟩ := rfl
  refine ⟨terminal, ?_, ?_⟩
  · rw [messages, outputs_cons hbind, hout, Timeline.heard_eq]
    rfl
  rw [Timeline.timesOut_iff, Timeline.fails_iff]
  change EndsWith t.arrivals t.upTo t.expiry terminal at hterm
  rcases hterm with ⟨hf, a, rfl⟩ | ⟨hf, hup, a, rfl⟩ | ⟨hf, hup, rfl⟩
  · exact ⟨Or.inr ⟨a, Or.inr rfl⟩, by simp [hf], by simp [hf]⟩
  · exact ⟨Or.inr ⟨a, Or.inl rfl⟩, by simp [hf, hup], by simp [hf]⟩
  · exact ⟨Or.inl rfl, by simp [Nat.not_le.mpr hup], by simp [hf]⟩

end NodeEventHandler

end Pmind
