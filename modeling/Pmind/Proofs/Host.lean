import Pmind.Host
import Pmind.Proofs.Poll

/-!
# What a step of the host can do

A step is one of the poll loop, which may spawn a receive task, or one of a receive task, which the
loop does not see. Between the rounds' spawns every registered node has a receive task spawned for
it, the last one for its port, and the host knows of each task that ended in which round it did.
-/

namespace Pmind

open HashMap

theorem NodeEventHandler.step_some {h h' : NodeEventHandler} {e : SocketEvent}
    (hs : h.step e = some h') :
    h'.addr = h.addr ∧ h.phase ≠ .ended ∧ h'.phase ≠ .binding
      ∧ (h'.phase = .receiving → h.phase = .receiving ∨ e = .bind true) := by
  unfold step at hs
  split at hs <;> simp_all <;> cases hs <;> simp_all

theorem find?_set {α : Type*} {q : α → Bool} {x y : α} (hxy : q y = q x) :
    ∀ {l : List α} {i : ℕ}, l[i]? = some x →
      (l.set i y).find? q = l.find? q ∨ (l.set i y).find? q = some y ∧ l.find? q = some x
  | [], i, h => by simp at h
  | a :: l, 0, h => by
    simp only [List.getElem?_cons_zero, Option.some.injEq] at h
    subst h
    by_cases hq : q a <;> simp [hxy, hq]
  | a :: l, i + 1, h => by
    simp only [List.getElem?_cons_succ] at h
    by_cases hq : q a
    · simp [hq]
    · simpa [hq] using find?_set hxy h

def PollPc.spawning : PollPc → Option Call
  | .newHandler call _ => some call
  | _ => none

namespace Host

open Transition

variable {coap : CoapLite} {s s' : Host}

theorem step_poll {e : PollEvent} (h : step coap s (.poll e) = some s') :
    s.Admits (.poll e) ∧ ∃ poll, s.poll.step coap e = some poll
      ∧ s' = ⟨poll, spawned s.poll e ++ s.receivers, nextRound e s.round⟩ := by
  unfold step at h
  split_ifs at h with ha
  obtain ⟨poll, hp, rfl⟩ := Option.map_eq_some_iff.mp h
  exact ⟨ha, poll, hp, rfl⟩

theorem step_socket {i : ℕ} {e : SocketEvent} (h : step coap s (.socket i e) = some s') :
    s.Admits (.socket i e) ∧ ∃ r handler, s.receivers[i]? = some r
      ∧ r.handler.step e = some handler
      ∧ s' = { s with receivers := s.receivers.set i (r.after s.round handler) } := by
  unfold step at h
  split_ifs at h with ha
  obtain ⟨r, hr, h⟩ := Option.bind_eq_some_iff.mp h
  obtain ⟨handler, hh, rfl⟩ := Option.map_eq_some_iff.mp h
  exact ⟨ha, r, handler, hr, hh, rfl⟩

/-! ## The receive task of a port -/

theorem receiver_append (rs : List Receiver) (poll : Poll) (round : ℕ) (p : NodeRcvPort) :
    (⟨poll, rs ++ s.receivers, round⟩ : Host).receiver p
      = (rs.find? fun r => r.call.port = p).or (s.receiver p) := by
  simp [receiver]

/-- After a step of its own the task of a port is the same, or has taken the step. -/
theorem receiver_set {i : ℕ} {r : Receiver} (hr : s.receivers[i]? = some r) (round : ℕ)
    (handler : NodeEventHandler) (p : NodeRcvPort) :
    ({ s with receivers := s.receivers.set i (r.after round handler) } : Host).receiver p
        = s.receiver p
      ∨ ({ s with receivers := s.receivers.set i (r.after round handler) } : Host).receiver p
          = some (r.after round handler) ∧ s.receiver p = some r := by
  unfold receiver
  exact find?_set (x := r) (y := r.after round handler) rfl hr

structure Tracked (s : Host) : Prop where
  ended : ∀ r ∈ s.receivers, r.handler.phase = .ended → ∃ k ∈ r.endedIn, k ≤ s.round
  live : ∀ r ∈ s.receivers, r.handler.phase ≠ .ended → r.endedIn = none
  receiver : ∀ p n, s.poll.monitor.nodes.lookup p = some n →
    (∀ call ∈ s.poll.pc.spawning, call.port ≠ p) →
      ∃ r ∈ s.receiver p, (r.call.rloc, r.call.ip) = n.pair
  spawning : ∀ call ∈ s.poll.pc.spawning, ∀ n, s.poll.monitor.nodes.lookup call.port = some n →
    (call.rloc, call.ip) = n.pair

theorem tracked_init (c : OtClient) : Tracked (init c) where
  ended r hr := absurd hr List.not_mem_nil
  live r hr := absurd hr List.not_mem_nil
  receiver p n hn := by simp [init, Poll.init, OtMonitor.new] at hn
  spawning call hc := by simp [PollPc.spawning, init, Poll.init] at hc

@[simp] theorem spawning_next (omrAddr : Ipv6Addr) (i : ℕ) :
    ∀ nodes, (Poll.next omrAddr i nodes).spawning = none
  | [] => rfl
  | _ :: _ => rfl

theorem spawned_eq {s s' : Poll} {e : PollEvent} (h : s.step coap e = some s') :
    spawned s e
      = s.pc.spawning.toList.map fun call => ⟨call, NodeEventHandler.new call.addr, none⟩ := by
  cases Poll.Step.of_step h <;> rfl

theorem spawning_step {s s' : Poll} {e : PollEvent} (h : s.step coap e = some s') {call : Call}
    (hc : call ∈ s'.pc.spawning) :
    ∃ eui, s'.monitor.nodes.lookup call.port = some ⟨call.rloc, call.ip, call.port, eui⟩ := by
  cases Poll.Step.of_step h with
  | @registerNode m call answer =>
    simp only [PollPc.spawning, Option.mem_some] at hc
    subst hc
    exact ⟨answer.eui, by rw [OtMonitor.registerNode_nodes, lookup_insert_eq, if_pos rfl]⟩
  | omrIp | emit | returnPort => simp at hc
  | @recv m call pc rcvd d =>
    rcases Poll.recv_cases coap call rcvd d with ⟨r, hr⟩ | ⟨a, hr⟩ | hr <;>
      simp [hr, PollPc.spawning] at hc
  | _ => simp [PollPc.spawning] at hc

theorem registered_step {s s' : Poll} {e : PollEvent} (h : s.step coap e = some s')
    {p : NodeRcvPort} {n : InternalRegistration} (hn : s'.monitor.nodes.lookup p = some n) :
    s.monitor.nodes.lookup p = some n ∨ ∃ call ∈ s'.pc.spawning, call.port = p := by
  by_cases he : e = .registerNode
  · subst he
    cases Poll.Step.of_step h with
    | @registerNode m call answer =>
      rw [OtMonitor.registerNode_nodes, lookup_insert_eq] at hn
      split_ifs at hn with hp
      · exact Or.inr ⟨call, rfl, hp.symm⟩
      · exact Or.inl hn
  · exact Or.inl (Poll.lookup_of_step h he hn)

/-- A step of the poll loop adds the task that it spawns, which has not ended. -/
theorem tracked_poll {e : PollEvent} {poll : Poll} (h : Tracked s)
    (hp : s.poll.step coap e = some poll) :
    Tracked ⟨poll, spawned s.poll e ++ s.receivers, nextRound e s.round⟩ := by
  have hround : s.round ≤ nextRound e s.round := by
    unfold nextRound
    split <;> omega
  have hmem : ∀ r ∈ spawned s.poll e ++ s.receivers,
      (r.handler.phase ≠ .ended ∧ r.endedIn = none) ∨ r ∈ s.receivers := by
    rw [spawned_eq hp]
    intro r hr
    rcases List.mem_append.mp hr with hr | hr
    · obtain ⟨call, -, rfl⟩ := List.mem_map.mp hr
      exact Or.inl ⟨by simp [NodeEventHandler.new], rfl⟩
    · exact Or.inr hr
  refine ⟨?_, ?_, ?_, ?_⟩
  · intro r hr hend
    rcases hmem r hr with hnew | hr
    · exact absurd hend hnew.1
    · obtain ⟨k, hk, hle⟩ := h.ended r hr hend
      exact ⟨k, hk, hle.trans hround⟩
  · intro r hr hlive
    rcases hmem r hr with hnew | hr
    · exact hnew.2
    · exact h.live r hr hlive
  · intro p n hn hnot
    have hn' := (registered_step hp hn).resolve_right fun ⟨call, hc, hcp⟩ => hnot call hc hcp
    rw [receiver_append, spawned_eq hp]
    rcases hsp : s.poll.pc.spawning with _ | call
    · have := h.receiver p n hn' (by simp [hsp])
      simpa using this
    · by_cases hcp : call.port = p
      · subst hcp
        have := h.spawning call hsp n hn'
        simpa using this
      · have := h.receiver p n hn' (by simpa [hsp] using hcp)
        simpa [hcp] using this
  · intro call hc n hn
    obtain ⟨eui, hl⟩ := spawning_step hp hc
    simp only [hl, Option.some.injEq] at hn
    rw [← hn]
    rfl

/-- A step of a receive task changes that task only, and the port it is for stays the same. -/
theorem tracked_socket {i : ℕ} {r : Receiver} {handler : NodeEventHandler} (h : Tracked s)
    (hr : s.receivers[i]? = some r) :
    Tracked { s with receivers := s.receivers.set i (r.after s.round handler) } := by
  have hmem : ∀ r' ∈ s.receivers.set i (r.after s.round handler),
      r' = r.after s.round handler ∨ r' ∈ s.receivers := fun r' hr' =>
    (List.mem_or_eq_of_mem_set hr').symm
  refine ⟨?_, ?_, ?_, h.spawning⟩
  · intro r' hr' hend
    rcases hmem r' hr' with rfl | hr'
    · simp only [Receiver.after] at hend ⊢
      exact ⟨s.round, by simp [hend], le_rfl⟩
    · exact h.ended r' hr' hend
  · intro r' hr' hlive
    rcases hmem r' hr' with rfl | hr'
    · simp only [Receiver.after] at hlive ⊢
      simp [hlive]
    · exact h.live r' hr' hlive
  · intro p n hn hnot
    obtain ⟨r₀, hr₀, hpair⟩ := h.receiver p n hn hnot
    rcases receiver_set hr s.round handler p with heq | ⟨heq, hold⟩
    · exact ⟨r₀, heq ▸ hr₀, hpair⟩
    · rw [hold, Option.mem_some] at hr₀
      subst hr₀
      exact ⟨_, heq, hpair⟩

theorem tracked_step {e : HostEvent} (h : Tracked s) (hs : step coap s e = some s') :
    Tracked s' := by
  rcases e with e | ⟨i, e⟩
  · obtain ⟨-, poll, hp, rfl⟩ := step_poll hs
    exact tracked_poll h hp
  · obtain ⟨-, r, handler, hr, -, rfl⟩ := step_socket hs
    exact tracked_socket h hr

end Host

end Pmind
