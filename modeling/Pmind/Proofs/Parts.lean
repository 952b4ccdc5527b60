import Pmind.Proofs.Clients
import Pmind.Proofs.Frontend
import Pmind.Proofs.Session
import Pmind.Proofs.Subscription
import Pmind.System

/-!
# The parts of the daemon

A step of the daemon is a run of each of its parts: the poll loop, the sessions, the broker, the
front end and the database. The broker's steps are those of its own tasks and those that the others
make it take, which send nothing; its requests are those of `main`; and what is sent on a client's
channel comes to the client.
-/

namespace Pmind

open Transition HashMap Broadcast

/-- What the router, the receive tasks and the clients give the broker. -/
def BrokerStep.isGiven : BrokerStep → Bool
  | .stream | .place _ _ | .nodeEnds _ | .registration _ | .request _ => true
  | _ => false

namespace Broker

variable {s s' : Broker} {e : BrokerStep}

/-- What is given to the broker its clients do not see yet. -/
theorem channels_given (hs : Step s e s') (he : e.isGiven = true) :
    s'.readings = s.readings ∧ s'.statuses = s.statuses := by
  cases hs with
  | stream | place | placeClosed | nodeEnds | registration | request => exact ⟨rfl, rfl⟩
  | forward h => rcases h with rfl | rfl <;> cases he
  | _ => cases he

theorem channels_run : ∀ {s s' : Broker} {ls : List BrokerStep}, (∀ l ∈ ls, l.isGiven = true) →
    run step s ls = some s' → s'.readings = s.readings ∧ s'.statuses = s.statuses
  | s, s', [], _, h => by
    cases h
    exact ⟨rfl, rfl⟩
  | s, s', l :: ls, hls, h => by
    obtain ⟨t, ht, h⟩ := run_cons.mp h
    obtain ⟨hr, hst⟩ := channels_given (step_some ht) (hls l List.mem_cons_self)
    obtain ⟨hr', hst'⟩ := channels_run (fun k hk => hls k (List.mem_cons_of_mem _ hk)) h
    exact ⟨hr'.trans hr, hst'.trans hst⟩

theorem fanOut_grows {α : Type} {sender : Senders → ℕ} {m : α} :
    ∀ {iter : List (ClientId × Senders)} {channels : ℕ → Channel α} {ch : ℕ},
      (channels ch).sent <+: (fanOut sender iter m channels ch).sent
  | [], _, _ => List.prefix_rfl
  | e :: iter, channels, ch => by
    rw [fanOut_cons]
    refine List.IsPrefix.trans ?_ fanOut_grows
    rw [Function.update_apply]
    split_ifs with hch
    · rw [hch, Channel.send]
      split_ifs
      · exact List.prefix_rfl
      · exact List.prefix_append _ _
    · exact List.prefix_rfl

/-- A channel only gets more. -/
structure Grows {α : Type} (channel channel' : Channel α) : Prop where
  closed : channel'.closed = channel.closed
  sent : channel.sent <+: channel'.sent

theorem Grows.rfl {α : Type} {channel : Channel α} : Grows channel channel :=
  ⟨Eq.refl _, List.prefix_rfl⟩

theorem grows_fanOut {α : Type} {sender : Senders → ℕ} {m : α} {iter : List (ClientId × Senders)}
    {channels : ℕ → Channel α} {ch : ℕ} :
    Grows (channels ch) (fanOut sender iter m channels ch) :=
  ⟨fanOut_closed, fanOut_grows⟩

theorem channels_task (hs : Step s e s') (he : e.isTask = true) (ch : ℕ) :
    Grows (s.readings ch) (s'.readings ch) ∧ Grows (s.statuses ch) (s'.statuses ch) := by
  cases hs with
  | @incoming _ event =>
    rcases event with reg | ⟨addr, state⟩ | rcv
    · exact ⟨.rfl, grows_fanOut⟩
    · exact ⟨.rfl, grows_fanOut⟩
    · exact ⟨.rfl, .rfl⟩
  | data => exact ⟨grows_fanOut, .rfl⟩
  | @subscription msg => rcases msg <;> exact ⟨.rfl, .rfl⟩
  | @process _ _ msg => rcases msg <;> exact ⟨.rfl, .rfl⟩
  | forward | streamEnds => exact ⟨.rfl, .rfl⟩
  | _ => cases he

end Broker

/-! ## The broker's part of the sessions -/

namespace Sessions

variable {json : SerdeJson}

/-- The events a receive task sends as it takes a step. -/
def sentBy (json : SerdeJson) (i : ℕ) (s : Sessions) : SessionEvent → List NodeEvent
  | .socket j e => if j = i then (s.handlers[j]?).elim [] fun h => h.sent json e else []
  | _ => []

/-- The broker's steps in a step of the sessions. -/
def brokerSteps (json : SerdeJson) (s : Sessions) : SessionEvent → List BrokerStep
  | .handler _ => [.stream]
  | .registration reg => [.registration reg]
  | .socket i e => (s.handlers[i]?).elim [] fun h =>
    (h.step e).elim [] fun h' => placing json i h h' e
  | .broker e => [e]

theorem brokerSteps_step {s s' : Sessions} {e : SessionEvent} (h : step json s e = some s') :
    run Broker.step s.broker (s.brokerSteps json e) = some s'.broker := by
  rcases e with addr | reg | ⟨i, e⟩ | e
  · obtain ⟨-, h⟩ := Option.ite_none_right_eq_some.mp h
    obtain ⟨broker, hb, rfl⟩ := Option.map_eq_some_iff.mp h
    simp [brokerSteps, run, hb]
  · obtain ⟨-, h⟩ := Option.ite_none_right_eq_some.mp h
    obtain ⟨broker, hb, rfl⟩ := Option.map_eq_some_iff.mp h
    simp [brokerSteps, run, hb]
  · simp only [step] at h
    split at h
    · rename_i task stream hh hi
      obtain ⟨-, h⟩ := Option.ite_none_right_eq_some.mp h
      obtain ⟨task', ht, h⟩ := Option.bind_eq_some_iff.mp h
      obtain ⟨broker, hb, rfl⟩ := Option.map_eq_some_iff.mp h
      simp [brokerSteps, hh, ht, hb]
    · cases h
  · obtain ⟨-, broker, hb, rfl⟩ := broker_some h
    simp [brokerSteps, run, hb, track]

theorem mem_brokerSteps {s : Sessions} {e : SessionEvent} {l : BrokerStep}
    (hl : l ∈ s.brokerSteps json e) : e = .broker l ∨ l.isGiven = true ∧ l.requests = [] := by
  rcases e with addr | reg | ⟨i, e⟩ | b
  · rw [List.mem_singleton.mp hl]
    exact Or.inr ⟨rfl, rfl⟩
  · rw [List.mem_singleton.mp hl]
    exact Or.inr ⟨rfl, rfl⟩
  · obtain ⟨h, hh⟩ : ∃ h, s.handlers[i]? = some h := by
      refine Option.ne_none_iff_exists'.mp fun hnone => ?_
      simp [brokerSteps, hnone] at hl
    obtain ⟨h', ht⟩ : ∃ h', h.step e = some h' := by
      refine Option.ne_none_iff_exists'.mp fun hnone => ?_
      simp [brokerSteps, hh, hnone] at hl
    simp only [brokerSteps, hh, ht, Option.elim_some, placing, List.mem_append, List.mem_map] at hl
    rcases hl with ⟨_, -, rfl⟩ | hl
    · exact Or.inr ⟨rfl, rfl⟩
    · split_ifs at hl
      · rw [List.mem_singleton.mp hl]
        exact Or.inr ⟨rfl, rfl⟩
      · cases hl
  · rw [List.mem_singleton.mp hl]
    exact Or.inl rfl

theorem placed_eq (i : ℕ) : Broker.placed i = fun _ e => Broker.placed i Broker.init e := rfl

theorem placed_placing (i j : ℕ) (h h' : NodeEventHandler) (e : SocketEvent) :
    (placing json j h h' e).flatMap (Broker.placed i Broker.init)
      = if j = i then h.sent json e else [] := by
  unfold placing
  rw [List.flatMap_append, List.flatMap_map]
  have hends : (if h'.phase = .ended then [BrokerStep.nodeEnds j] else []).flatMap
      (Broker.placed i Broker.init) = [] := by
    split_ifs <;> rfl
  rw [hends, List.append_nil]
  split_ifs with hji
  · simp [Broker.placed, hji]
  · simp [Broker.placed, hji]

/-- What is placed on a stream is what its receive task sends. -/
theorem placed_step {s s' : Sessions} {e : SessionEvent} (h : step json s e = some s') (i : ℕ) :
    outputs Broker.step (Broker.placed i) s.broker (s.brokerSteps json e) = s.sentBy json i e := by
  rw [placed_eq, outputs_eq_flatMap (brokerSteps_step h)]
  rcases e with addr | reg | ⟨j, e⟩ | e
  · rfl
  · rfl
  · simp only [step] at h
    split at h
    · rename_i task stream hh hi
      obtain ⟨-, h⟩ := Option.ite_none_right_eq_some.mp h
      obtain ⟨task', ht, h⟩ := Option.bind_eq_some_iff.mp h
      simp only [brokerSteps, sentBy, hh, ht, Option.elim_some]
      exact placed_placing i j task task' e
    · cases h
  · obtain ⟨hown, -⟩ := broker_some h
    rcases e with _ | _ | _ | _ | _ | _ | _ | _ | _ | _ | _ | _ | _ <;>
      first | rfl | cases hown

end Sessions

/-! ## The parts of the daemon -/

namespace System

variable {coap : CoapLite} {json : SerdeJson} {s s' : System} {e : SystemEvent}

def sessionEvents (s : System) : SystemEvent → List SessionEvent
  | .poll e => handedOver s.poll e
  | .socket i e => [.socket i e]
  | .broker e => [.broker e]
  | .subscribe => (requests[s.requested]?).toList.map fun msg => .broker (.request msg)
  | _ => []

def brokerSteps (json : SerdeJson) (s : System) (e : SystemEvent) : List BrokerStep :=
  outputs (Sessions.step json) (Sessions.brokerSteps json) s.sessions (s.sessionEvents e)

theorem forall_mem_brokerSteps {P : BrokerStep → Prop}
    (hgiven : ∀ l, l.isGiven = true → l.requests = [] → P l)
    (hown : ∀ b, .broker b ∈ s.sessionEvents e → P b) : ∀ l ∈ s.brokerSteps json e, P l := by
  refine forall_mem_outputs.mpr (everyStep_of_mem fun t k hk l hl => ?_)
  rcases Sessions.mem_brokerSteps hl with rfl | ⟨hg, hr⟩
  · exact hown l hk
  · exact hgiven l hg hr

theorem not_mem_handedOver (poll : Poll) (e : PollEvent) (b : BrokerStep) :
    .broker b ∉ handedOver poll e := by
  unfold handedOver
  split <;> simp

theorem grown_eq {α : Type} {before after : Channel α} (h : Broker.Grows before after) :
    before.sent ++ grown before after = after.sent := by
  obtain ⟨rest, hrest⟩ := h.sent
  rw [grown, ← hrest, List.drop_left]

variable [Chrono]

/-- What a step can do. -/
inductive Step (coap : CoapLite) (json : SerdeJson) (s : System) : SystemEvent → System → Prop
  | poll {e poll sessions} (hp : s.poll.step coap e = some poll)
      (hs : run (Sessions.step json) s.sessions (handedOver s.poll e) = some sessions) :
      Step coap json s (.poll e) { s with poll, sessions }
  | socket {i e sessions} (hs : s.sessions.step json (.socket i e) = some sessions) :
    Step coap json s (.socket i e) { s with sessions }
  | broker {e sessions frontend database} (ht : e.isTask = true)
      (hs : s.sessions.step json (.broker e) = some sessions)
      (hf : run Frontend.step s.frontend
        (toFrontend s.frontend s.sessions.broker sessions.broker) = some frontend)
      (hd : run SubscriptionHandler.step s.database
        (toDatabase s.sessions.broker sessions.broker) = some database) :
      Step coap json s (.broker e) { s with sessions, frontend, database }
  | subscribe {msg sessions} (hm : requests[s.requested]? = some msg)
      (hs : s.sessions.step json (.broker (.request msg)) = some sessions) :
      Step coap json s .subscribe { s with sessions, requested := s.requested + 1 }
  | frontend {e frontend} (ho : e.isOwn = true) (hf : s.frontend.step e = some frontend) :
    Step coap json s (.frontend e) { s with frontend }
  | database {e database} (ho : e.isOwn = true) (hd : s.database.step e = some database) :
    Step coap json s (.database e) { s with database }

theorem Step.of_step (h : step coap json s e = some s') : Step coap json s e s' := by
  rcases e with e | ⟨i, e⟩ | e | _ | e | e
  · obtain ⟨poll, hp, h⟩ := Option.bind_eq_some_iff.mp h
    obtain ⟨sessions, hs, rfl⟩ := Option.map_eq_some_iff.mp h
    exact .poll hp hs
  · obtain ⟨sessions, hs, rfl⟩ := Option.map_eq_some_iff.mp h
    exact .socket hs
  · obtain ⟨ht, h⟩ := Option.ite_none_right_eq_some.mp h
    obtain ⟨sessions, hs, h⟩ := Option.bind_eq_some_iff.mp h
    obtain ⟨frontend, hf, h⟩ := Option.bind_eq_some_iff.mp h
    obtain ⟨database, hd, rfl⟩ := Option.map_eq_some_iff.mp h
    exact .broker ht hs hf hd
  · obtain ⟨msg, hm, h⟩ := Option.bind_eq_some_iff.mp h
    obtain ⟨sessions, hs, rfl⟩ := Option.map_eq_some_iff.mp h
    exact .subscribe hm hs
  · obtain ⟨ho, h⟩ := Option.ite_none_right_eq_some.mp h
    obtain ⟨frontend, hf, rfl⟩ := Option.map_eq_some_iff.mp h
    exact .frontend ho.1 hf
  · obtain ⟨ho, h⟩ := Option.ite_none_right_eq_some.mp h
    obtain ⟨database, hd, rfl⟩ := Option.map_eq_some_iff.mp h
    exact .database ho hd

def pollEvents : SystemEvent → List PollEvent
  | .poll e => [e]
  | _ => []

/-- What the broker's step sends on one of its clients' channels. -/
def delivered {α : Type} (json : SerdeJson) (sentOn : Broker → Broker → List α) (s : System) :
    SystemEvent → List α
  | .broker e => (s.sessions.step json (.broker e)).elim [] fun sessions =>
    sentOn s.sessions.broker sessions.broker
  | _ => []

def frontendSteps (json : SerdeJson) (s : System) : SystemEvent → List FrontendStep
  | .frontend e => [e]
  | e => s.delivered json (toFrontend s.frontend) e

def databaseEvents (json : SerdeJson) (s : System) : SystemEvent → List SubscriptionEvent
  | .database e => [e]
  | e => s.delivered json toDatabase e

theorem poll_step (h : step coap json s e = some s') :
    run (Poll.step coap) s.poll (pollEvents e) = some s'.poll := by
  cases Step.of_step h with
  | poll hp => simp [pollEvents, run, hp]
  | _ => rfl

theorem sessions_step (h : step coap json s e = some s') :
    run (Sessions.step json) s.sessions (s.sessionEvents e) = some s'.sessions := by
  cases Step.of_step h with
  | poll _ hs => exact hs
  | socket hs | broker _ hs => simp [sessionEvents, run, hs]
  | subscribe hm hs => simp [sessionEvents, run, hm, hs]
  | _ => rfl

theorem broker_step (h : step coap json s e = some s') :
    run Broker.step s.sessions.broker (s.brokerSteps json e) = some s'.sessions.broker :=
  run_project_outputs (P := fun _ => True) (f := Sessions.broker)
    (fun _ _ _ _ ht => Sessions.brokerSteps_step ht) (everyState_of_forall fun _ => trivial)
    (sessions_step h)

theorem frontend_step (h : step coap json s e = some s') :
    run Frontend.step s.frontend (s.frontendSteps json e) = some s'.frontend := by
  cases Step.of_step h with
  | broker _ hs hf => simpa [frontendSteps, delivered, hs] using hf
  | frontend _ hf => simp [frontendSteps, run, hf]
  | _ => rfl

theorem database_step (h : step coap json s e = some s') :
    run SubscriptionHandler.step s.database (s.databaseEvents json e) = some s'.database := by
  cases Step.of_step h with
  | broker _ hs _ hd => simpa [databaseEvents, delivered, hs] using hd
  | database _ hd => simp [databaseEvents, run, hd]
  | _ => rfl

section Run

variable {c : OtClient} {ls : List SystemEvent}

theorem sessions_run (h : run (step coap json) (init c) ls = some s) :
    run (Sessions.step json) Sessions.init (outputs (step coap json) sessionEvents (init c) ls)
      = some s.sessions :=
  run_project_outputs (P := fun _ => True) (f := System.sessions)
    (fun _ _ _ _ ht => sessions_step ht) (everyState_of_forall fun _ => trivial) h

theorem broker_run (h : run (step coap json) (init c) ls = some s) :
    run Broker.step Broker.init (outputs (step coap json) (brokerSteps json) (init c) ls)
      = some s.sessions.broker :=
  run_project_outputs (P := fun _ => True) (f := fun s : System => s.sessions.broker)
    (fun _ _ _ _ ht => broker_step ht) (everyState_of_forall fun _ => trivial) h

end Run

/-! ## What the broker does for its clients -/

/-- What the broker's tasks put out. -/
def brokerOut {β : Type} (out : Broker → BrokerStep → List β) (s : System) : SystemEvent → List β
  | .broker e => out s.sessions.broker e
  | _ => []

/-- The broker's part of a step is one of its own tasks, or what others give it. -/
theorem brokerSteps_cases (h : step coap json s e = some s') :
    (∃ b, e = .broker b ∧ b.isTask = true ∧ s.brokerSteps json e = [b])
      ∨ ((∀ b, e ≠ .broker b) ∧ ∀ l ∈ s.brokerSteps json e, l.isGiven = true) := by
  cases Step.of_step h with
  | poll =>
    exact Or.inr ⟨by simp, forall_mem_brokerSteps (fun _ hg _ => hg) fun b hb =>
      absurd hb (not_mem_handedOver _ _ b)⟩
  | broker ht hs =>
    exact Or.inl ⟨_, rfl, ht,
      by simp [brokerSteps, sessionEvents, outputs, hs, Sessions.brokerSteps]⟩
  | subscribe hm =>
    refine Or.inr ⟨by simp, forall_mem_brokerSteps (fun _ hg _ => hg) fun b hb => ?_⟩
    simp only [sessionEvents, hm, Option.toList_some, List.map_cons, List.map_nil,
      List.mem_singleton, SessionEvent.broker.injEq] at hb
    rw [hb]
    rfl
  | socket | frontend | database =>
    exact Or.inr ⟨by simp, forall_mem_brokerSteps (fun _ hg _ => hg) (by simp [sessionEvents])⟩

theorem outputs_brokerSteps {β : Type} {out : Broker → BrokerStep → List β}
    (hout : ∀ b l, l.isGiven = true → out b l = []) (h : step coap json s e = some s') :
    outputs Broker.step out s.sessions.broker (s.brokerSteps json e) = brokerOut out s e := by
  rcases brokerSteps_cases h with ⟨b, rfl, -, hb⟩ | ⟨hne, hgiven⟩
  · have hstep := broker_step h
    rw [hb] at hstep
    obtain ⟨t, ht, -⟩ := run_cons.mp hstep
    rw [hb, outputs_cons ht]
    exact List.append_nil _
  · have hnone : brokerOut out s e = [] := by
      cases e with
      | broker b => exact absurd rfl (hne b)
      | _ => rfl
    rw [outputs_eq_nil fun t l hl => hout t l (hgiven l hl), hnone]

/-- Other steps than those of the broker's tasks send nothing. -/
theorem channels_other (h : step coap json s e = some s') (he : ∀ b, e ≠ .broker b) :
    s'.sessions.broker.readings = s.sessions.broker.readings
      ∧ s'.sessions.broker.statuses = s.sessions.broker.statuses := by
  rcases brokerSteps_cases h with ⟨b, rfl, -, -⟩ | ⟨-, hgiven⟩
  · exact absurd rfl (he b)
  · exact Broker.channels_run hgiven (broker_step h)

theorem channels_step (h : step coap json s e = some s') (ch : ℕ) :
    Broker.Grows (s.sessions.broker.readings ch) (s'.sessions.broker.readings ch)
      ∧ Broker.Grows (s.sessions.broker.statuses ch) (s'.sessions.broker.statuses ch) := by
  rcases brokerSteps_cases h with ⟨b, rfl, ht, hb⟩ | ⟨hne, -⟩
  · have hstep := broker_step h
    rw [hb] at hstep
    obtain ⟨t, hs, hrun⟩ := run_cons.mp hstep
    cases hrun
    exact Broker.channels_task (Broker.step_some hs) ht ch
  · obtain ⟨hr, hst⟩ := channels_other h hne
    rw [hr, hst]
    exact ⟨.rfl, .rfl⟩

theorem readings_delivered (h : step coap json s e = some s') (ch : ℕ) :
    (s.sessions.broker.readings ch).sent ++ s.delivered json (readingsOn ch) e
      = (s'.sessions.broker.readings ch).sent := by
  have hgrows := (channels_step h ch).1
  cases Step.of_step h with
  | broker _ hs =>
    simp only [delivered, hs, Option.elim_some]
    exact grown_eq hgrows
  | _ =>
    rw [(channels_other h (by simp)).1]
    exact List.append_nil _

theorem statuses_delivered (h : step coap json s e = some s') (ch : ℕ) :
    (s.sessions.broker.statuses ch).sent ++ s.delivered json (statusesOn ch) e
      = (s'.sessions.broker.statuses ch).sent := by
  have hgrows := (channels_step h ch).2
  cases Step.of_step h with
  | broker _ hs =>
    simp only [delivered, hs, Option.elim_some]
    exact grown_eq hgrows
  | _ =>
    rw [(channels_other h (by simp)).2]
    exact List.append_nil _

/-- The two clients that `main` subscribes, in this order. -/
def clients : List (ClientId × Senders) := [(0, ⟨0, 0⟩), (1, ⟨1, 1⟩)]

/-- The requests a step makes. -/
def requesting (s : System) : SystemEvent → List ClientApi
  | .subscribe => (requests[s.requested]?).toList
  | _ => []

theorem requests_brokerSteps (h : step coap json s e = some s') :
    (s.brokerSteps json e).flatMap BrokerStep.requests = s.requesting e := by
  have hnone : (∀ b, .broker b ∈ s.sessionEvents e → b.requests = []) →
      (s.brokerSteps json e).flatMap BrokerStep.requests = [] := fun hown =>
    List.flatMap_eq_nil_iff.mpr (forall_mem_brokerSteps (fun _ _ hr => hr) hown)
  cases Step.of_step h with
  | poll => exact hnone fun b hb => absurd hb (not_mem_handedOver _ _ b)
  | @broker b _ _ _ ht =>
    refine hnone fun b' hb => ?_
    simp only [sessionEvents, List.mem_singleton, SessionEvent.broker.injEq] at hb
    rw [hb]
    cases b <;> first | rfl | cases ht
  | subscribe hm hs =>
    simp [brokerSteps, sessionEvents, requesting, outputs, hm, hs, Sessions.brokerSteps,
      BrokerStep.requests]
  | socket | frontend | database => exact hnone (by simp [sessionEvents])

theorem requested_step (h : step coap json s e = some s') :
    requests.take s.requested ++ s.requesting e = requests.take s'.requested := by
  cases Step.of_step h with
  | subscribe hm => simp [requesting, hm, List.take_add_one]
  | _ => simp [requesting]

section Run

variable {c : OtClient} {ls : List SystemEvent}

theorem outputs_brokerOut {β : Type} {out : Broker → BrokerStep → List β}
    (hout : ∀ b l, l.isGiven = true → out b l = [])
    (h : run (step coap json) (init c) ls = some s) :
    outputs Broker.step out Broker.init (outputs (step coap json) (brokerSteps json) (init c) ls)
      = outputs (step coap json) (brokerOut out) (init c) ls := by
  rw [outputs_congr (fun _ _ _ ht => (outputs_brokerSteps hout ht).symm) h]
  exact outputs_project (P := fun _ => True) (f := fun s : System => s.sessions.broker)
    (fun _ _ _ _ ht => broker_step ht) (everyState_of_forall fun _ => trivial) h

theorem readings_sent (h : run (step coap json) (init c) ls = some s) (ch : ℕ) :
    outputs (step coap json) (fun s => s.delivered json (readingsOn ch)) (init c) ls
      = (s.sessions.broker.readings ch).sent :=
  outputs_accumulated (q := fun s : System => (s.sessions.broker.readings ch).sent)
    (fun _ _ _ ht => readings_delivered ht ch) h

theorem statuses_sent (h : run (step coap json) (init c) ls = some s) (ch : ℕ) :
    outputs (step coap json) (fun s => s.delivered json (statusesOn ch)) (init c) ls
      = (s.sessions.broker.statuses ch).sent :=
  outputs_accumulated (q := fun s : System => (s.sessions.broker.statuses ch).sent)
    (fun _ _ _ ht => statuses_delivered ht ch) h

theorem channels_open (h : run (step coap json) (init c) ls = some s) (ch : ℕ) :
    (s.sessions.broker.readings ch).closed = false
      ∧ (s.sessions.broker.statuses ch).closed = false :=
  run_induct (Q := fun _ s => (s.sessions.broker.readings ch).closed = false
      ∧ (s.sessions.broker.statuses ch).closed = false) ⟨rfl, rfl⟩
    (fun _ _ _ _ _ ht hs => ⟨(channels_step hs ch).1.closed.trans ht.1,
      (channels_step hs ch).2.closed.trans ht.2⟩) h

theorem requests_run (h : run (step coap json) (init c) ls = some s) :
    (outputs (step coap json) (brokerSteps json) (init c) ls).flatMap BrokerStep.requests
      = requests.take s.requested := by
  rw [outputs_flatMap, outputs_congr (fun _ _ _ ht => requests_brokerSteps ht) h]
  exact outputs_accumulated (q := fun s : System => requests.take s.requested)
    (fun _ _ _ ht => requested_step ht) h

theorem clients_run (h : run (step coap json) (init c) ls = some s) :
    Broker.Clients clients (outputs (step coap json) (brokerSteps json) (init c) ls) := by
  refine ⟨?_, by decide, by decide, by decide⟩
  rw [requests_run h]
  exact List.take_prefix _ _

end Run

end System

end Pmind
