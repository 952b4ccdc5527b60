import Pmind.Proofs.Store
import Pmind.Subscription

/-!
# Which readings reach the database in vain

The actor takes registrations and readings in the order the two tasks come to send them, not in the
order the broker put them on the channels. A reading that overtakes the registration of its address
finds no row, and is dropped. So those that follow their registration are all stored exactly if
each of them finds a row with its address when it is handled. What rows there are is a matter of the
registrations handled before: a plant's row has the address of its last.
-/

namespace Pmind

open Transition HashMap PlantDatabase

namespace SubscriptionHandler

/-- The row that is stored of a reading that has been handled. -/
def storedRow [Chrono] : Put × Option Eui → Option MoistureData
  | (put, eui) => eui.map fun eui => Accepted.moistureRow ⟨eui, put.reading⟩

/-- A reading that is handled after its registration was announced finds a row. -/
def Found (s : SubscriptionHandler) (e : SubscriptionEvent) : Prop :=
  ∀ put ∈ s.handling e, put.due = true →
    Holds PlantRecord.addr s.archive.db.plants put.reading.addr.ip.toText

instance (s : SubscriptionHandler) (e : SubscriptionEvent) : Decidable (Found s e) :=
  inferInstanceAs (Decidable (∀ put ∈ s.handling e, _ → Holds PlantRecord.addr _ _))

/-- A reading that is handled after its registration was announced is from where a plant is by the
last registration of it that has been handled. -/
def InTime (regs : List CreateOrModify) (s : SubscriptionHandler) (e : SubscriptionEvent) : Prop :=
  ∀ put ∈ s.handling e, put.due = true → ∃ msg,
    (regs.filter fun m => m.eui = msg.eui).getLast? = some msg ∧ msg.addr = put.reading.addr.ip

theorem first_ne_none {plants : HashMap Eui PlantRecord} {addr : String} {row : Option PlantRecord}
    (h : First plants addr row) : row ≠ none ↔ Holds PlantRecord.addr plants addr := by
  rcases row with _ | plant
  · refine iff_of_false (fun h => h rfl) ?_
    rintro ⟨eui, plant, hl, haddr⟩
    exact h eui (Finmap.mem_keys.mpr (Finmap.mem_of_lookup_eq_some hl)) plant hl haddr
  · exact iff_of_true (Option.some_ne_none _) ⟨plant.eui, plant, h.1, h.2⟩

/-- The plant rows are what the registrations handled so far leave. -/
def Rows (regs : List CreateOrModify) (s : SubscriptionHandler) : Prop :=
  ∀ eui, s.archive.db.plants.lookup eui = plantRow eui (regs.filter fun msg => msg.eui = eui)

theorem holds_addr_iff {regs : List CreateOrModify} {s : SubscriptionHandler} (h : Rows regs s)
    (a : Ipv6Addr) : Holds PlantRecord.addr s.archive.db.plants a.toText
      ↔ ∃ msg, (regs.filter fun m => m.eui = msg.eui).getLast? = some msg ∧ msg.addr = a := by
  have haddr : ∀ eui, (s.archive.db.plants.lookup eui).map PlantRecord.addr
      = ((regs.filter fun m => m.eui = eui).getLast?).map fun msg => msg.addr.toText := by
    intro eui
    rw [h eui, plantRow_addr]
  constructor
  · rintro ⟨eui, plant, hplant, htext⟩
    have hlast := haddr eui
    rw [hplant, Option.map_some, htext, eq_comm, Option.map_eq_some_iff] at hlast
    obtain ⟨msg, hmsg, hmsga⟩ := hlast
    have heui : msg.eui = eui :=
      of_decide_eq_true (List.mem_filter.mp (List.mem_of_getLast? hmsg)).2
    exact ⟨msg, by rw [heui]; exact hmsg, Ipv6Addr.toText_injective hmsga⟩
  · rintro ⟨msg, hmsg, rfl⟩
    have hlast := haddr msg.eui
    rw [hmsg, Option.map_some, Option.map_eq_some_iff] at hlast
    obtain ⟨plant, hplant, htext⟩ := hlast
    exact ⟨msg.eui, plant, hplant, htext⟩

theorem found_iff {regs : List CreateOrModify} {s : SubscriptionHandler} (h : Rows regs s)
    (e : SubscriptionEvent) : Found s e ↔ InTime regs s e :=
  forall₃_congr fun put _ _ => holds_addr_iff h put.reading.addr.ip

section Run

variable [Chrono]

inductive Step (s : SubscriptionHandler) : SubscriptionEvent → SubscriptionHandler → Prop
  | status (e announced) : Step s (.status e)
    { s with statusRcvr := s.statusRcvr ++ [e], announced }
  | reading (r) : Step s (.reading r)
    { s with receiver := s.receiver ++ [⟨r, r.addr.ip ∈ s.announced⟩] }
  | registryTask {e rest} (h : s.statusRcvr = e :: rest) : Step s .registryTask
    { s with statusRcvr := rest, mailbox := s.mailbox ++ forwardStatus e }
  | sensorStreamTask {put rest} (h : s.receiver = put :: rest)
    (hm : ∀ m ∈ s.mailbox, m.isCreateOrModify = true) : Step s .sensorStreamTask
    { s with receiver := rest, mailbox := s.mailbox ++ [.nodeSensorData put] }
  | createOrModify {row msg rest archive} (h : s.mailbox = .createOrModify msg :: rest)
    (ha : s.archive.step (.createOrModify msg) = some archive) : Step s (.handle row)
    { s with mailbox := rest, archive }
  | nodeSensorData {row put rest archive} (h : s.mailbox = .nodeSensorData put :: rest)
    (ha : s.archive.step (.nodeSensorData put.reading row) = some archive) : Step s (.handle row)
    { s with mailbox := rest, archive }

theorem Step.of_step {s s' : SubscriptionHandler} {e : SubscriptionEvent}
    (h : step s e = some s') : Step s e s' := by
  unfold step at h
  split at h
  · cases h
    exact .status _ _
  · cases h
    exact .reading _
  · split at h
    · cases h
    · split_ifs at h
      cases h
      exact .registryTask ‹_›
  · split at h
    · cases h
    · split_ifs at h with hm
      cases h
      refine .sensorStreamTask ‹_› fun m hmem => ?_
      by_contra hne
      exact hm ⟨m, hmem, by simpa using hne⟩
  · split at h
    · cases h
    · obtain ⟨archive, ha, rfl⟩ := Option.map_eq_some_iff.mp h
      exact .createOrModify ‹_› ha
    · obtain ⟨archive, ha, rfl⟩ := Option.map_eq_some_iff.mp h
      exact .nodeSensorData ‹_› ha

/-- A reading put on the channel is queued until it is handled, and keeps its place: there is at
most one on the way to the actor. -/
theorem queued_step {s s' : SubscriptionHandler} {e : SubscriptionEvent}
    (h : step s e = some s') :
    s.queued ++ puts s e = (handled s e).map Prod.fst ++ s'.queued := by
  cases Step.of_step h with
  | status | reading => simp [queued, puts, handled, handling]
  | @registryTask e rest h =>
    cases e <;> simp [queued, puts, handled, handling, forwardStatus]
  | sensorStreamTask hr => simp [queued, puts, handled, handling, hr]
  | createOrModify hm | nodeSensorData hm => simp [queued, puts, handled, handling, hm]

theorem moistureData_step {s s' : SubscriptionHandler} {e : SubscriptionEvent}
    (h : step s e = some s') :
    s'.archive.db.moistureData
      = s.archive.db.moistureData ++ (handled s e).filterMap storedRow := by
  cases Step.of_step h with
  | createOrModify hm ha =>
    rw [Archive.db_createOrModify ha]
    simp [handled, handling, hm]
  | @nodeSensorData row put rest archive hm ha =>
    rw [(Archive.step_nodeSensorData ha).2.2.1]
    rcases row with _ | plant
    · simp [insertReading_none, handled, handling, SubscriptionEvent.row, hm, storedRow]
    · simp [insertReading_ok, handled, handling, SubscriptionEvent.row, hm, storedRow,
        Accepted.moistureRow]
  | _ => simp [handled, handling]

theorem stored_step {s s' : SubscriptionHandler} {e : SubscriptionEvent} (h : step s e = some s') :
    (∀ x ∈ handled s e, x.1.due = true → x.2 ≠ none) ↔ Found s e := by
  cases Step.of_step h with
  | createOrModify hm => simp [handled, handling, Found, hm]
  | nodeSensorData hm ha =>
    have hrow := first_ne_none (Archive.step_nodeSensorData ha).1
    simp [handled, handling, SubscriptionEvent.row, Found, hm, ← hrow]
  | _ => simp [handled, handling, Found]

theorem rows_step {regs : List CreateOrModify} {s s' : SubscriptionHandler} {e : SubscriptionEvent}
    (h : Rows regs s) (hs : step s e = some s') : Rows (regs ++ registering s e) s' := by
  cases Step.of_step hs with
  | @createOrModify row msg rest archive hm ha =>
    intro eui
    simp only [registering, hm, Archive.db_createOrModify ha, lookup_insert_eq,
      List.filter_append, List.filter_singleton]
    by_cases heui : eui = msg.eui
    · subst heui
      simp only [if_true, decide_true, cond_true, plantRow_concat, h msg.eui]
    · simp only [heui, Ne.symm heui, if_false, decide_false, cond_false, List.append_nil, h eui]
  | nodeSensorData hm ha =>
    intro eui
    simp only [registering, hm, List.append_nil, (Archive.step_nodeSensorData ha).2.2.2, h eui]
  | _ =>
    simp only [registering, List.append_nil]
    exact h

theorem rows_run {ls : List SubscriptionEvent} {s : SubscriptionHandler}
    (h : run step init ls = some s) : Rows (outputs step registering init ls) s :=
  run_outputs_induct registering (C := fun _ => True) (Q := Rows)
    (fun _ => Finmap.lookup_empty _) (fun _ _ _ _ _ hQ ht => rows_step hQ ht) (fun _ _ => trivial) h

/-- In every run the readings put on the channel are those handled, in their order, and those still
queued, and the moisture rows are those of the ones that found a plant. All that were put after a
registration of their address and have been handled are stored exactly if each found a row with its
address; that is, if each came after a registration of its address had been handled that is the last
one handled of its plant. -/
theorem stored_iff (ls : List SubscriptionEvent) (s : SubscriptionHandler)
    (h : run step init ls = some s) :
    outputs step puts init ls = (outputs step handled init ls).map Prod.fst ++ s.queued
      ∧ s.archive.db.moistureData = (outputs step handled init ls).filterMap storedRow
      ∧ ((∀ x ∈ outputs step handled init ls, x.1.due = true → x.2 ≠ none)
        ↔ EveryStep step Found init ls)
      ∧ (EveryStep step Found init ls
        ↔ ∀ pre e, pre ++ [e] <+: ls → ∀ t, run step init pre = some t →
          InTime (outputs step registering init pre) t e) := by
  refine ⟨?_, ?_, ?_, ?_⟩
  · refine run_induct (Q := fun ls s =>
      outputs step puts init ls = (outputs step handled init ls).map Prod.fst ++ s.queued) rfl ?_ h
    intro ls t e t' ht hQ hs
    rw [outputs_concat ht, outputs_concat ht, hQ, List.append_assoc, queued_step hs,
      List.map_append, List.append_assoc]
  · refine run_induct (Q := fun ls s =>
      s.archive.db.moistureData = (outputs step handled init ls).filterMap storedRow) rfl ?_ h
    intro ls t e t' ht hQ hs
    rw [outputs_concat ht, moistureData_step hs, hQ, List.filterMap_append]
  · rw [forall_mem_outputs]
    exact everyStep_congr (fun _ _ _ => stored_step) h
  · rw [everyStep_iff]
    exact forall₃_congr fun pre e _ => forall₂_congr fun t ht => found_iff (rows_run ht) e

end Run

/-- A plant is registered, and then reports. -/
def announcedRun : List SubscriptionEvent :=
  [.status (.registration ⟨.of 0x60 0x55 0xf9 0xf6 0 1, .new 0xfd00 0 0 0 0 0 0 1, "mint"⟩),
    .reading (Archive.readingFrom 1)]

/-- The registry task is first. -/
def inOrderRun : List SubscriptionEvent :=
  announcedRun ++ [.registryTask, .sensorStreamTask, .handle none,
    .handle (some (Archive.plantOf 1 1).newPlant)]

/-- The sensor stream task is first: the reading is dropped. -/
def overtakingRun : List SubscriptionEvent :=
  announcedRun ++ [.sensorStreamTask, .registryTask, .handle none, .handle none]

open Chrono

theorem stored_inOrder : ∃ s, run step init inOrderRun = some s
    ∧ ∀ x ∈ outputs step handled init inOrderRun, x.1.due = true → x.2 ≠ none := by
  obtain ⟨s, hs⟩ := Option.isSome_iff_exists.mp
    (by decide +kernel : (run step init inOrderRun).isSome)
  exact ⟨s, hs, (stored_iff inOrderRun s hs).2.2.1.mpr (by decide +kernel)⟩

theorem not_stored : ∃ s, run step init overtakingRun = some s ∧ s.queued.length = 0
    ∧ s.archive.db.moistureData.length = 0
    ∧ ∃ put ∈ outputs step puts init overtakingRun, put.due = true := by
  decide +kernel

end SubscriptionHandler

end Pmind
