import Pmind.Host
import Pmind.Proofs.System

/-!
# The handover to the broker

The poll loop hands over a stream and then a registration for each node it registers, and its next
node comes after both. So the sessions of the broker are the calls that the loop brought to a
registration, in order, each with the receive task that binds the address its node was told to
report to. Nothing the other parts do can hold the loop up, nor can a client hold up the broker.
-/

namespace Pmind

open Transition

def SessionEvent.addrs : SessionEvent → List SocketAddrV6
  | .handler addr => [addr]
  | _ => []

namespace Sessions

variable {json : SerdeJson} {s s' : Sessions} {e : SessionEvent}

theorem addr_step {h h' : NodeEventHandler} {e : SocketEvent} (hs : h.step e = some h') :
    h'.addr = h.addr := by
  unfold NodeEventHandler.step at hs
  split at hs <;> cases hs <;> rfl

theorem addrs_step (h : step json s e = some s') :
    s.handlers.map NodeEventHandler.addr ++ e.addrs = s'.handlers.map NodeEventHandler.addr := by
  rcases e with addr | reg | ⟨i, e⟩ | b
  · obtain ⟨-, h⟩ := Option.ite_none_right_eq_some.mp h
    cases h
    simp [SessionEvent.addrs, NodeEventHandler.new]
  · obtain ⟨-, h⟩ := Option.ite_none_right_eq_some.mp h
    cases h
    simp [SessionEvent.addrs]
  · simp only [step] at h
    split at h
    · rename_i task stream hh hi
      obtain ⟨-, h⟩ := Option.ite_none_right_eq_some.mp h
      obtain ⟨task', ht, h⟩ := Option.bind_eq_some_iff.mp h
      obtain ⟨broker, -, rfl⟩ := Option.map_eq_some_iff.mp h
      simp only [SessionEvent.addrs, List.append_nil, List.map_set, addr_step ht]
      refine (List.ext_getElem? fun j => ?_)
      rw [List.getElem?_set]
      split_ifs with hij hlt
      · rw [← hij, List.getElem?_map, hh, Option.map_some]
      · rw [← hij, List.getElem?_eq_none (Nat.le_of_not_lt hlt)]
      · rfl
    · cases h
  · obtain ⟨-, broker, -, rfl⟩ := broker_some h
    simp [SessionEvent.addrs, track]

theorem registered_step (h : step json s e = some s') :
    s.registered + e.registrations.length = s'.registered := by
  rcases e with addr | reg | ⟨i, e⟩ | b
  · obtain ⟨-, h⟩ := Option.ite_none_right_eq_some.mp h
    cases h
    rfl
  · obtain ⟨-, h⟩ := Option.ite_none_right_eq_some.mp h
    cases h
    rfl
  · simp only [step] at h
    split at h
    · obtain ⟨-, h⟩ := Option.ite_none_right_eq_some.mp h
      obtain ⟨task', -, h⟩ := Option.bind_eq_some_iff.mp h
      obtain ⟨broker, -, rfl⟩ := Option.map_eq_some_iff.mp h
      rfl
    · cases h
  · obtain ⟨-, broker, -, rfl⟩ := broker_some h
    rfl

end Sessions

/-- The call whose node has its stream and not yet its registration. -/
def PollPc.handing : PollPc → List Call
  | .emit call _ => [call]
  | _ => []

namespace Poll

variable {coap : CoapLite} {s s' : Poll} {e : PollEvent}

/-- The calls of the nodes that a step spawns a receive task for. -/
def handled (s : Poll) (e : PollEvent) : List Call := (Host.spawned s e).map Receiver.call

theorem handing_next (omrAddr : Ipv6Addr) (i : ℕ) : ∀ nodes, (next omrAddr i nodes).handing = []
  | [] => rfl
  | _ :: _ => rfl

theorem handing_recv (call : Call) (rcvd : List Received) (d : Received) :
    (recv coap call rcvd d).handing = [] := by
  rcases recv_cases coap call rcvd d with ⟨r, hr⟩ | ⟨a, hr⟩ | hr <;> rw [hr] <;> rfl

theorem handing_step (h : step coap s e = some s') :
    s.pc.handing.map Call.ip ++ (s.handled e).map Call.ip
      = (s.emitted e).map Emission.ip ++ s'.pc.handing.map Call.ip := by
  cases Step.of_step h with
  | recv hpc =>
    rw [handing_recv]
    rcases hpc with rfl | rfl <;> rfl
  | omrIp | emit | returnPort =>
    rw [handing_next]
    rfl
  | _ => rfl

end Poll

namespace System

section Daemon

variable {coap : CoapLite} {json : SerdeJson} {s s' : System} {e : SystemEvent}

theorem addrs_handedOver (poll : Poll) (e : PollEvent) :
    (handedOver poll e).flatMap SessionEvent.addrs = (poll.handled e).map Call.addr := by
  obtain ⟨monitor, pc⟩ := poll
  cases pc <;> cases e <;> rfl

/-- The poll loop can hand over what it comes to hand over. -/
theorem handedOver_isSome {poll : Poll} {e : PollEvent}
    (hlen : s.sessions.broker.streams.length = s.sessions.registered + s.poll.pc.handing.length)
    (hp : s.poll.step coap e = some poll) :
    (run (Sessions.step json) s.sessions (handedOver s.poll e)).isSome := by
  obtain ⟨⟨monitor, pc⟩, sessions, frontend, database, requested⟩ := s
  cases Poll.Step.of_step hp with
  | newHandler =>
    have heq : sessions.registered = sessions.broker.streams.length := hlen.symm
    simp [handedOver, run, Sessions.step, heq, Broker.step]
  | emit =>
    have hlt : sessions.registered < sessions.broker.streams.length := by
      rw [hlen]
      exact Nat.lt_succ_self _
    simp [handedOver, run, Sessions.step, hlt, Broker.step]
  | _ => rfl

theorem toFrontend_isSome {s : Frontend} (h : s.handler = .selecting) :
    ∀ es : List FrontendStep, (∀ e ∈ es, e.isOwn = false) → (run Frontend.step s es).isSome
  | [], _ => rfl
  | e :: es, hes => by
    obtain ⟨t, ht, hsel⟩ : ∃ t, s.step e = some t ∧ t.handler = .selecting := by
      have he := hes e List.mem_cons_self
      cases e with
      | sensorReading | nodeStatus => exact ⟨_, if_pos h, h⟩
      | _ => cases he
    rw [run, ht]
    exact toFrontend_isSome hsel es fun e' he' => hes e' (List.mem_cons_of_mem _ he')

variable [Chrono]

/-- The calls of the nodes that receive tasks are spawned for. -/
def handled (s : System) : SystemEvent → List Call
  | .poll e => s.poll.handled e
  | _ => []

theorem addrs_step (h : step coap json s e = some s') :
    s.sessions.handlers.map NodeEventHandler.addr ++ (s.handled e).map Call.addr
      = s'.sessions.handlers.map NodeEventHandler.addr := by
  have hsessions := sessions_step h
  have haddrs : (s.sessionEvents e).flatMap SessionEvent.addrs = (s.handled e).map Call.addr := by
    cases Step.of_step h with
    | poll => exact addrs_handedOver _ _
    | subscribe hm => simp [sessionEvents, hm, SessionEvent.addrs, handled]
    | _ => rfl
  rw [← haddrs, ← outputs_eq_flatMap hsessions]
  exact outputs_accumulated
    (q := fun s : Sessions => s.handlers.map NodeEventHandler.addr)
    (fun _ _ _ ht => Sessions.addrs_step ht) hsessions

theorem ips_step (h : step coap json s e = some s') :
    s.poll.pc.handing.map Call.ip ++ (s.handled e).map Call.ip
      = (s.emitted e).map Registration.ip ++ s'.poll.pc.handing.map Call.ip := by
  cases Step.of_step h with
  | poll hp =>
    have hips := Poll.handing_step hp
    simpa [handled, emitted, Function.comp_def] using hips
  | _ => simp [handled, emitted]

theorem registered_step (h : step coap json s e = some s') :
    s'.sessions.registered = s.sessions.registered + (s.emitted e).length := by
  rw [← registrations_sessionEvents h]
  refine run_induct (Q := fun es t => t.registered = s.sessions.registered
    + (es.flatMap SessionEvent.registrations).length) rfl (fun es t e t' _ ht hs => ?_)
    (sessions_step h)
  rw [← Sessions.registered_step hs, ht, List.flatMap_append, List.flatMap_singleton,
    List.length_append, Nat.add_assoc]

section Run

variable {c : OtClient} {ls : List SystemEvent}

theorem addrs_run (h : run (step coap json) (init c) ls = some s) :
    s.sessions.handlers.map NodeEventHandler.addr
      = (outputs (step coap json) handled (init c) ls).map Call.addr := by
  rw [← outputs_map]
  exact (outputs_accumulated
    (q := fun s : System => s.sessions.handlers.map NodeEventHandler.addr)
    (fun _ _ _ ht => addrs_step ht) h).symm

theorem ips_run (h : run (step coap json) (init c) ls = some s) :
    (outputs (step coap json) handled (init c) ls).map Call.ip
      = (outputs (step coap json) emitted (init c) ls).map Registration.ip
        ++ s.poll.pc.handing.map Call.ip := by
  rw [← outputs_map, ← outputs_map]
  exact outputs_conserved (q := fun s : System => s.poll.pc.handing.map Call.ip)
    (P := fun _ => True) (fun _ _ _ _ _ ht => ips_step ht) (everyState_of_forall fun _ => trivial) h

theorem registered_run (h : run (step coap json) (init c) ls = some s) :
    s.sessions.registered = (outputs (step coap json) emitted (init c) ls).length := by
  refine run_induct (Q := fun ls s => s.sessions.registered
    = (outputs (step coap json) emitted (init c) ls).length) rfl (fun ls t e t' ht hQ hs => ?_) h
  rw [registered_step hs, hQ, outputs_concat ht, List.length_append]

/-- A registered node has its stream, and one that is on its way to be has its stream first. -/
theorem streams_run (h : run (step coap json) (init c) ls = some s) :
    s.sessions.broker.streams.length
      = s.sessions.registered + s.poll.pc.handing.length := by
  have hinv : s.sessions.Inv := run_invariant (C := fun _ => True)
    (fun _ _ _ _ ht hs => Sessions.inv_step ht hs) Sessions.inv_init (fun _ _ => trivial)
    (sessions_run h)
  have hips := congrArg List.length (ips_run h)
  have haddrs := congrArg List.length (addrs_run h)
  simp only [List.length_map, List.length_append] at hips haddrs
  rw [← hinv.aligned.handlers, haddrs, hips, registered_run h]

end Run

theorem toDatabase_isSome : ∀ (s : SubscriptionHandler) (es : List SubscriptionEvent),
    (∀ e ∈ es, e.isOwn = false) → (run SubscriptionHandler.step s es).isSome
  | _, [], _ => rfl
  | s, e :: es, hes => by
    obtain ⟨t, ht⟩ : ∃ t, s.step e = some t := by
      have he := hes e List.mem_cons_self
      cases e with
      | status | reading => exact ⟨_, rfl⟩
      | _ => cases he
    rw [run, ht]
    exact toDatabase_isSome t es fun e' he' => hes e' (List.mem_cons_of_mem _ he')

theorem deliver_isSome (s : System) (sessions : Sessions) : (s.deliver sessions).isSome := by
  have hfrontend : (run Frontend.step s.frontend
      (toFrontend s.frontend s.sessions.broker sessions.broker)).isSome := by
    unfold toFrontend
    split_ifs with hh
    · refine toFrontend_isSome hh _ fun e he => ?_
      rcases List.mem_append.mp he with he | he
      · obtain ⟨_, -, rfl⟩ := List.mem_map.mp he
        rfl
      · obtain ⟨_, -, rfl⟩ := List.mem_map.mp he
        rfl
    · rfl
  have hdatabase : (run SubscriptionHandler.step s.database
      (toDatabase s.sessions.broker sessions.broker)).isSome := by
    refine toDatabase_isSome _ _ fun e he => ?_
    rcases List.mem_append.mp he with he | he
    · obtain ⟨_, -, rfl⟩ := List.mem_map.mp he
      rfl
    · obtain ⟨_, -, rfl⟩ := List.mem_map.mp he
      rfl
  obtain ⟨frontend, hf⟩ := Option.isSome_iff_exists.mp hfrontend
  obtain ⟨database, hd⟩ := Option.isSome_iff_exists.mp hdatabase
  simp [deliver, hf, hd]

/-- In every run the receive tasks are those of the calls that came to a registration, each on the
address its node was told, and the registrations emitted are those of the same nodes, in the same
order, but for one that has its task already. Whatever the poll loop or a task of the broker can do
by itself it can do: no other part holds it up. -/
theorem handover (coap : CoapLite) (json : SerdeJson) (c : OtClient) (ls : List SystemEvent)
    (s : System) (h : run (step coap json) (init c) ls = some s) :
    s.sessions.handlers.map NodeEventHandler.addr
        = (outputs (step coap json) handled (init c) ls).map Call.addr
      ∧ (outputs (step coap json) handled (init c) ls).map Call.ip
        = (outputs (step coap json) emitted (init c) ls).map Registration.ip
          ++ s.poll.pc.handing.map Call.ip
      ∧ (∀ e, (s.poll.step coap e).isSome → (step coap json s (.poll e)).isSome)
      ∧ ∀ e, e.isTask = true → (s.sessions.step json (.broker e)).isSome →
        (step coap json s (.broker e)).isSome := by
  refine ⟨addrs_run h, ips_run h, fun e he => ?_, fun e ht he => ?_⟩
  · obtain ⟨poll, hp⟩ := Option.isSome_iff_exists.mp he
    obtain ⟨sessions, hs⟩ := Option.isSome_iff_exists.mp
      (handedOver_isSome (streams_run h) hp : (run (Sessions.step json) _ _).isSome)
    simp [step, hp, hs]
  · obtain ⟨sessions, hs⟩ := Option.isSome_iff_exists.mp he
    simp [step, ht, hs, deliver_isSome]

end Daemon

open Chrono

theorem handover_reported : ∃ s,
    run (step .wire Sessions.reportJson) (init (Poll.mesh [])) reportedRun = some s
      ∧ s.sessions.handlers.map NodeEventHandler.addr = [⟨Poll.omrIp, 1213⟩]
      ∧ ∀ e, (s.poll.step .wire e).isSome →
        (step .wire Sessions.reportJson s (.poll e)).isSome := by
  obtain ⟨s, hs, haddrs⟩ : ∃ s,
      run (step .wire Sessions.reportJson) (init (Poll.mesh [])) reportedRun = some s
        ∧ s.sessions.handlers.map NodeEventHandler.addr = [⟨Poll.omrIp, 1213⟩] := by
    decide +kernel
  exact ⟨s, hs, haddrs, (handover .wire Sessions.reportJson _ reportedRun s hs).2.2.1⟩

end System

end Pmind
