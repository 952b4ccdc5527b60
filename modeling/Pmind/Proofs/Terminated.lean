import Pmind.Proofs.Broker

/-!
# Whom a termination names

A task's last message names the sender of the last datagram, whoever that was, or the broker's own
address if there was none. The broker passes the address on as it is. So terminations name the node
exactly as long as no task ends right after another's datagram or before the first.
-/

namespace Pmind

open Transition HashMap

/-- What a node event tells of the end of its task. -/
def NodeEvent.terminated : NodeEvent → Option (SocketAddrV6 × ErrorState)
  | .nodeTimeout addr => some (addr, .timeout)
  | .socketError addr => some (addr, .socketError)
  | _ => none

namespace Broker

/-! ## The broker passes it on -/

section Origin

variable {α : Type} {sender : Senders → ℕ} {m : α}

theorem mem_fanOut {m' : α} {ch : ℕ} : ∀ {iter : List (ClientId × Senders)}
    {channels : ℕ → Channel α}, m' ∈ (fanOut sender iter m channels ch).sent →
      m' = m ∨ m' ∈ (channels ch).sent
  | [], _, h => Or.inr h
  | e :: iter, channels, h => by
    rw [fanOut_cons] at h
    rcases mem_fanOut h with h | h
    · exact Or.inl h
    · by_cases hch : ch = sender e.2
      · rw [hch, Function.update_self, Channel.send] at h
        split_ifs at h
        · exact Or.inr (hch ▸ h)
        · rcases List.mem_append.mp h with h | h
          · exact Or.inr (hch ▸ h)
          · exact Or.inl (List.mem_singleton.mp h)
      · rw [Function.update_of_ne hch] at h
        exact Or.inr h

end Origin

section Passed

variable (origin : ℕ → NodeEvent → Prop)

/-- Some event that was placed tells of the end of its task. -/
def Told (addr : SocketAddrV6) (state : ErrorState) : Prop :=
  ∃ i m, origin i m ∧ m.terminated = some (addr, state)

structure Passed (s : Broker) : Prop where
  queued : ∀ i stream, s.streams[i]? = some stream → ∀ m ∈ stream.queue, origin i m
  received : ∀ addr state, .nodeTermination addr state ∈ s.receiver → Told origin addr state
  sent : ∀ ch addr state, .termination addr state ∈ (s.statuses ch).sent → Told origin addr state

variable {origin}

theorem passed_init : Passed origin init where
  queued i stream h := by simp [init] at h
  received addr state h := by simp [init] at h
  sent ch addr state h := by simp [init, Channel.new] at h

/-- Streams that hold no more than before keep what they hold. -/
theorem Passed.of_set {s : Broker} {i : ℕ} {stream stream' : Stream} (h : Passed origin s)
    (hi : s.streams[i]? = some stream)
    (hq : ∀ m ∈ stream'.queue, m ∈ stream.queue ∨ origin i m) :
    ∀ j st, (s.streams.set i stream')[j]? = some st → ∀ m ∈ st.queue, origin j m := by
  intro j st hj m hm
  rw [List.getElem?_set] at hj
  split_ifs at hj with hij hlen
  · cases hj
    subst hij
    rcases hq m hm with hq | hq
    · exact h.queued i stream hi m hq
    · exact hq
  · exact h.queued j st hj m hm

theorem of_mem_forward {s s' : Broker} {e : BrokerStep}
    (he : e = .forwardStream ∨ e = .forwardRegistration) (hs : step s e = some s')
    {addr : SocketAddrV6} {state : ErrorState} (hm : .nodeTermination addr state ∈ s'.receiver) :
    .nodeTermination addr state ∈ s.receiver := by
  rcases he with rfl | rfl
  · obtain ⟨nodeEvt, rest, rfl⟩ := forwardStream_some hs
    simpa using hm
  · obtain ⟨reg, rest, -, rfl⟩ := forwardRegistration_some hs
    simpa using hm

/-- Streams are changed otherwise than in what they hold. -/
theorem Passed.of_modify {s : Broker} {i : ℕ} {f : Stream → Stream} (h : Passed origin s)
    (hf : ∀ stream, (f stream).queue = stream.queue) :
    ∀ j st, (s.streams.modify i f)[j]? = some st → ∀ m ∈ st.queue, origin j m := by
  intro j st hj m hm
  rw [List.getElem?_modify] at hj
  obtain ⟨st', hst', rfl⟩ := Option.map_eq_some_iff.mp hj
  refine h.queued j st' hst' m ?_
  split_ifs at hm
  · rwa [hf] at hm
  · exact hm

theorem passed_stream {s : Broker} (h : Passed origin s) :
    ∀ j st, (s.streams ++ [⟨[], false, false, false⟩])[j]? = some st →
      ∀ m ∈ st.queue, origin j m := by
  intro j st hj m hm
  rcases Nat.lt_trichotomy j s.streams.length with hlt | rfl | hgt
  · rw [List.getElem?_append_left hlt] at hj
    exact h.queued j st hj m hm
  · rw [List.getElem?_concat_length] at hj
    cases hj
    exact absurd hm List.not_mem_nil
  · rw [List.getElem?_eq_none (by simp; omega)] at hj
    cases hj

/-- The event loop sends a termination that it received. -/
theorem passed_incoming {s : Broker} (h : Passed origin s) {event : BrokerEvent}
    {rest : List BrokerEvent} (hq : s.receiver = event :: rest) (iter : List (ClientId × Senders)) :
    Passed origin ({ s with receiver := rest }.handleIncoming iter event) := by
  have hrest : ∀ addr state, .nodeTermination addr state ∈ rest → Told origin addr state :=
    fun addr state hm => h.received addr state (by rw [hq]; exact List.mem_cons_of_mem _ hm)
  rcases event with reg | ⟨addr', state'⟩ | rcv
  · refine ⟨h.queued, hrest, fun ch addr state hm => ?_⟩
    rcases mem_fanOut hm with hm | hm
    · cases hm
    · exact h.sent ch addr state hm
  · refine ⟨h.queued, hrest, fun ch addr state hm => ?_⟩
    rcases mem_fanOut hm with hm | hm
    · cases hm
      exact h.received _ _ (by rw [hq]; exact List.mem_cons_self)
    · exact h.sent ch addr state hm
  · exact ⟨h.of_modify fun _ => rfl, hrest, h.sent⟩

/-- A stream's task passes on an end that was placed on the stream. -/
theorem passed_process {s : Broker} (h : Passed origin s) {i : ℕ} {stream : Stream}
    {msg : NodeEvent} {rest : List NodeEvent} (hi : s.streams[i]? = some stream)
    (hq : stream.queue = msg :: rest) : Passed origin (s.handleStream i stream rest msg) := by
  have hmsg : origin i msg := h.queued i stream hi msg (by rw [hq]; exact List.mem_cons_self)
  have htail : ∀ m ∈ rest, m ∈ stream.queue ∨ origin i m := fun m hm =>
    Or.inl (by rw [hq]; exact List.mem_cons_of_mem _ hm)
  have hend : ∀ addr' state', msg.terminated = some (addr', state') → ∀ addr state,
      .nodeTermination addr state ∈ s.receiver ++ [.nodeTermination addr' state'] →
        Told origin addr state := by
    intro addr' state' ht addr state hm
    rcases List.mem_append.mp hm with hm | hm
    · exact h.received addr state hm
    · cases List.mem_singleton.mp hm
      exact ⟨i, msg, hmsg, ht⟩
  rcases msg with addr | addr | _ | node
  · exact ⟨h.of_set hi htail, hend addr .timeout rfl, h.sent⟩
  · exact ⟨h.of_set hi htail, hend addr .socketError rfl, h.sent⟩
  · exact ⟨h.of_set hi fun m hm => absurd hm List.not_mem_nil, h.received, h.sent⟩
  · exact ⟨h.of_set hi htail, h.received, h.sent⟩

theorem passed_step {s s' : Broker} {e : BrokerStep} (h : Passed origin s)
    (he : ∀ i m, e = .place i m → origin i m) (hs : step s e = some s') : Passed origin s' := by
  cases step_some hs with
  | stream => exact ⟨passed_stream h, h.received, h.sent⟩
  | @place i m stream hi hc =>
    refine ⟨h.of_set hi fun m' hm' => ?_, h.received, h.sent⟩
    rcases List.mem_append.mp hm' with hm' | hm'
    · exact Or.inl hm'
    · rw [List.mem_singleton.mp hm']
      exact Or.inr (he i m rfl)
  | nodeEnds => exact ⟨h.of_modify fun _ => rfl, h.received, h.sent⟩
  | forward hfw =>
    exact ⟨h.queued, fun addr state hm => h.received addr state (of_mem_forward hfw hs hm), h.sent⟩
  | @incoming iter event rest hq _ => exact passed_incoming h hq iter
  | @subscription msg rest hq =>
    rcases msg <;> exact ⟨h.queued, h.received, h.sent⟩
  | @closeStatuses ch =>
    refine ⟨h.queued, h.received, fun ch' addr state hm => h.sent ch' addr state ?_⟩
    simp only [Function.update_apply] at hm
    split_ifs at hm with heq
    · exact heq ▸ hm
    · exact hm
  | process hi _ hq => exact passed_process h hi hq
  | streamEnds hi _ _ => exact ⟨h.of_set hi fun m hm => Or.inl hm, h.received, h.sent⟩
  | _ => exact ⟨h.queued, h.received, h.sent⟩

/-- Every termination a client gets was told of by an event that was placed. -/
theorem told_of_sent {bs : List BrokerStep} {b : Broker} (h : run step init bs = some b)
    (hbs : ∀ i m, .place i m ∈ bs → origin i m) {ch : ℕ} {addr : SocketAddrV6}
    {state : ErrorState} (hm : .termination addr state ∈ (b.statuses ch).sent) :
    Told origin addr state :=
  (run_invariant (C := fun e => ∀ i m, e = .place i m → origin i m)
    (fun _ _ _ hC hI hs => passed_step hI hC hs) passed_init
    (fun e he i m heq => by subst heq; exact hbs i m he) h).sent ch addr state hm

end Passed

end Broker

/-! ## The receive task's last message -/

def SocketEvent.ends : SocketEvent → Bool
  | .timeout | .error => true
  | _ => false

namespace NodeEventHandler

/-- The sender of the last datagram, and before there is one the address the task is bound to. -/
def lastSender : SocketAddrV6 → List SocketEvent → SocketAddrV6
  | addr, [] => addr
  | _, .received d _ :: es => lastSender d.sender es
  | addr, _ :: es => lastSender addr es

theorem run_of_ended {h h' : NodeEventHandler} {es : List SocketEvent} (hh : h.phase = .ended)
    (hrun : run step h es = some h') : es = [] := by
  rcases es with _ | ⟨e, es⟩
  · rfl
  · obtain ⟨t, ht, -⟩ := run_cons.mp hrun
    simp [step, hh] at ht

/-- Each message that tells of the end has the address `ip`. -/
def Names (ip : Ipv6Addr) (ms : List NodeEvent) : Prop :=
  ∀ m ∈ ms, ∀ told ∈ m.terminated, told.1.ip = ip

theorem names_append {ip : Ipv6Addr} {ms ms' : List NodeEvent} :
    Names ip (ms ++ ms') ↔ Names ip ms ∧ Names ip ms' := List.forall_mem_append

/-- A step either goes on, and tells of no end, or is the last. -/
theorem sent_cases (json : SerdeJson) {h h' : NodeEventHandler} {e : SocketEvent}
    (hs : step h e = some h') (ip : Ipv6Addr) :
    (e.ends = false ∧ Names ip (sent json h e)
        ∧ ∀ es, lastSender h.nodeAddr (e :: es) = lastSender h'.nodeAddr es)
      ∨ (e.ends = true ∧ h'.phase = .ended ∧ lastSender h.nodeAddr [e] = h.nodeAddr
        ∧ (Names ip (sent json h e) ↔ h.nodeAddr.ip = ip)) := by
  unfold step at hs
  split at hs <;> cases hs
  · refine Or.inl ⟨rfl, ?_, fun _ => rfl⟩
    simp [sent, *, Names]
  · refine Or.inl ⟨rfl, ?_, fun _ => rfl⟩
    simp [sent, *, Names, NodeEvent.terminated]
  · rename_i d now hphase
    refine Or.inl ⟨rfl, ?_, fun _ => rfl⟩
    rcases hj : json.fromSlice (d.bytes.take bufferSize) with _ | data <;>
      simp [sent, hphase, hj, Names, NodeEvent.terminated]
  · refine Or.inl ⟨rfl, ?_, fun _ => rfl⟩
    simp [sent, *, Names]
  · refine Or.inr ⟨rfl, rfl, rfl, ?_⟩
    simp [sent, *, Names, NodeEvent.terminated]
  · refine Or.inr ⟨rfl, rfl, rfl, ?_⟩
    simp [sent, *, Names, NodeEvent.terminated]

theorem names_outputs_iff {json : SerdeJson} {ip : Ipv6Addr} :
    ∀ {h h' : NodeEventHandler} {es : List SocketEvent}, run step h es = some h' →
      (Names ip (outputs step (sent json) h es)
        ↔ ∀ e ∈ es.getLast?, e.ends = true → (lastSender h.nodeAddr es).ip = ip)
  | h, h', [], _ => by simp [outputs, Names]
  | h, h', e :: es, hrun => by
    obtain ⟨t, ht, hrun⟩ := run_cons.mp hrun
    rw [outputs_cons ht, names_append]
    rcases sent_cases json ht ip with ⟨he, hsent, hlast⟩ | ⟨he, hend, hlast, hsent⟩
    · rw [hlast, names_outputs_iff hrun]
      rcases es with _ | ⟨e', es⟩
      · simp [hsent, he]
      · simp [hsent, List.getLast?_cons_cons]
    · obtain rfl := run_of_ended hend hrun
      rw [hsent, hlast]
      simp [outputs, Names, he]

end NodeEventHandler

/-! ## Both -/

/-- A receive task started for a node, and what came to it. -/
structure ReceiveTask where
  call : Call
  events : List SocketEvent
  possible : ∃ h, run NodeEventHandler.step (.new call.addr) events = some h

namespace ReceiveTask

open NodeEventHandler

variable (json : SerdeJson)

def messages (task : ReceiveTask) : List NodeEvent :=
  outputs step (sent json) (new task.call.addr) task.events

/-- The stream of each task has its messages on it. -/
def Carries (tasks : ℕ → ReceiveTask) (bs : List BrokerStep) : Prop :=
  ∀ i m, .place i m ∈ bs → m ∈ (tasks i).messages json

/-- If a task ends by a timeout or an error, what it received last is the node's. -/
def EndsWithNode (task : ReceiveTask) : Prop :=
  ∀ e ∈ task.events.getLast?, e.ends = true →
    (lastSender task.call.addr task.events).ip = task.call.ip

/-- Whatever comes to the tasks, each message of theirs about the end of one, and each termination
that the broker sends a client for it, names the task's node, exactly if no task ends by a timeout
or an error right after a datagram of another sender, or without one. -/
theorem namesNode_iff (tasks : ℕ → ReceiveTask) :
    ((∀ i, Names (tasks i).call.ip ((tasks i).messages json))
      ∧ ∀ bs b, run Broker.step Broker.init bs = some b → Carries json tasks bs →
        ∀ ch addr state, .termination addr state ∈ (b.statuses ch).sent →
          ∃ i, addr.ip = (tasks i).call.ip
            ∧ ∃ m ∈ (tasks i).messages json, m.terminated = some (addr, state))
      ↔ ∀ i, (tasks i).EndsWithNode := by
  have hiff : ∀ i, Names (tasks i).call.ip ((tasks i).messages json) ↔ (tasks i).EndsWithNode :=
    fun i => by
      obtain ⟨h, hrun⟩ := (tasks i).possible
      exact names_outputs_iff hrun
  refine ⟨fun h i => (hiff i).mp (h.1 i), fun h => ⟨fun i => (hiff i).mpr (h i), ?_⟩⟩
  intro bs b hrun hcarries ch addr state hm
  obtain ⟨i, m, hmi, hmt⟩ := Broker.told_of_sent hrun hcarries hm
  exact ⟨i, (hiff i).mpr (h i) m hmi (addr, state) hmt, m, hmi, hmt⟩

/-- A node at `fd00::2`, which the broker at `fd00::1` is to hear of on port 1213. -/
def sampleCall : Call := ⟨.new 0xfd00 0 0 0 0 0 0 1, 0xc04f, .new 0xfd00 0 0 0 0 0 0 2, 1213, 0, []⟩

/-- The node never reports. -/
def silent : ReceiveTask := ⟨sampleCall, [.bind true, .timeout], ⟨_, rfl⟩⟩

/-- Another host's datagram is the last before the socket fails. -/
def intruded : ReceiveTask :=
  ⟨sampleCall, [.bind true, .received ⟨⟨.new 0xfd00 0 0 0 0 0 0 3, 5683⟩, []⟩ 0, .error], ⟨_, rfl⟩⟩

/-- A client subscribes, and the silent node's stream is taken through the broker. -/
def silentRun : List BrokerStep :=
  [.request (.subscribe 7 ⟨0, 0⟩), .subscription, .stream, .place 0 (.nodeTimeout sampleCall.addr),
    .forwardStream, .incoming [(7, ⟨0, 0⟩)], .process 0, .incoming [(7, ⟨0, 0⟩)]]

/-- The broker's own address is reported in the one case, and the other host's in the other. -/
theorem not_namesNode :
    (∃ m ∈ silent.messages ⟨fun _ => none, fun _ => none⟩,
        m.terminated = some (⟨.new 0xfd00 0 0 0 0 0 0 1, 1213⟩, .timeout))
      ∧ (∃ b, run Broker.step Broker.init silentRun = some b
        ∧ .termination ⟨.new 0xfd00 0 0 0 0 0 0 1, 1213⟩ .timeout ∈ (b.statuses 0).sent)
      ∧ (∃ m ∈ intruded.messages ⟨fun _ => none, fun _ => none⟩,
        m.terminated = some (⟨.new 0xfd00 0 0 0 0 0 0 3, 5683⟩, .socketError))
      ∧ sampleCall.ip = .new 0xfd00 0 0 0 0 0 0 2 := by
  decide +kernel

end ReceiveTask

end Pmind
