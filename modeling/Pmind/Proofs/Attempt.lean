import Pmind.Proofs.Registering

/-!
# When a registration attempt can hang

The 30 s sleep of `coap_observer_register` races the first datagram only. Once that has come and
was empty the attempt is in its retry loop, and waits for the next with no limit, for as long as
none comes that is not empty.
-/

namespace Pmind

namespace Poll

open Transition

variable {coap : CoapLite}

/-- Whenever an attempt waits, the sleep may end it, and the loop goes on to the next node. -/
def LimitInForce (coap : CoapLite) (s : Poll) : Prop :=
  ∀ call pc received, s.pc = .attempt call pc received → pc ≠ .bind →
    ∃ s', run (step coap) s [.elapsed, .returnPort] = some s'
      ∧ s'.pc = next call.omrAddr (call.index + 1) call.rest

def NotEmpty (_ : Poll) : PollEvent → Prop
  | .recv d => d.bytes ≠ []
  | _ => True

instance (s : Poll) : (e : PollEvent) → Decidable (NotEmpty s e)
  | .recv d => inferInstanceAs (Decidable (d.bytes ≠ []))
  | .networkStatus _ | .checkNewNode _ | .omrIp _ | .reserve _ | .bind _ | .recvErr | .elapsed
  | .registerNode | .newHandler | .emit | .returnPort | .getNodeStatus _ _ | .sleep =>
    .isTrue trivial

/-- An attempt waits with no limit in its retry loop, and there only. -/
theorem limitInForce_iff_pc {s : Poll} :
    LimitInForce coap s ↔ ∀ call received, s.pc ≠ .attempt call .retry received := by
  obtain ⟨m, pc⟩ := s
  refine ⟨?_, ?_⟩
  · rintro h call received rfl
    obtain ⟨s', hrun, -⟩ := h call .retry received rfl (by decide)
    obtain ⟨t, ht, -⟩ := run_cons.mp hrun
    cases ht
  · rintro h call pc received rfl hpc
    rcases pc
    · exact absurd rfl hpc
    · exact ⟨_, rfl, rfl⟩
    · exact ⟨_, rfl, rfl⟩
    · exact absurd rfl (h call received)

theorem next_ne_attempt (omrAddr : Ipv6Addr) (i : ℕ) (call : Call) (pc : RegisterPc)
    (received : List Received) : ∀ nodes, next omrAddr i nodes ≠ .attempt call pc received
  | [] => nofun
  | _ :: _ => nofun

theorem recv_empty {call : Call} {received : List Received} {d : Received} (hd : d.bytes = []) :
    recv coap call received d = .attempt call .retry (received ++ [d]) := by
  obtain ⟨sender, bytes⟩ := d
  cases hd
  rfl

/-- Only an empty datagram leads to the retry loop. -/
theorem recv_ne_retry {call call' : Call} {received received' : List Received} {d : Received}
    (hd : d.bytes ≠ []) : recv coap call received d ≠ .attempt call' .retry received' := by
  have hne : d.bytes.take bufferSize ≠ [] := by simp [hd, bufferSize]
  simp only [recv, hne, if_false]
  split
  · simp
  · split_ifs <;> simp

theorem limitInForce_step (s : Poll) (e : PollEvent) (s' : Poll) (h : LimitInForce coap s)
    (hs : step coap s e = some s') : LimitInForce coap s' ↔ NotEmpty s e := by
  rw [limitInForce_iff_pc] at h ⊢
  cases Step.of_step hs with
  | @recv m call pc received d =>
    simp only [NotEmpty]
    refine ⟨fun h' hd => h' call _ (recv_empty hd), fun hd call' received' => recv_ne_retry hd⟩
  | omrIp | emit | returnPort => simp [NotEmpty, next_ne_attempt]
  | _ => simp [NotEmpty]

/-- In every run the limit is in force in every state in which an attempt waits, exactly if no
datagram it receives is empty. -/
theorem limitInForce_iff (coap : CoapLite) (c : OtClient) (ls : List PollEvent) (s : Poll)
    (h : run (step coap) (init c) ls = some s) :
    EveryState (step coap) (LimitInForce coap) (init c) ls
      ↔ EveryStep (step coap) NotEmpty (init c) ls :=
  everyState_iff_of_step limitInForce_step (limitInForce_iff_pc.mpr fun _ _ => nofun) h

/-- A round with one new node, up to its reply. -/
def requestRun (d : Received) : List PollEvent :=
  [.networkStatus (mesh [(1, ipOf 1)]), .checkNewNode (mesh [(1, ipOf 1)]),
    .omrIp (mesh [(1, ipOf 1)]), .reserve (some 1213), .bind true, .recv d]

theorem limitInForce_reply :
    EveryState (step .wire) (LimitInForce .wire) (init (mesh [])) (requestRun (reply 1213 1)) := by
  obtain ⟨s, hs⟩ := Option.isSome_iff_exists.mp
    (by decide +kernel : (run (step .wire) (init (mesh [])) (requestRun (reply 1213 1))).isSome)
  exact (limitInForce_iff .wire _ _ s hs).mpr (by decide +kernel)

/-- What comes while no node answers: silences, and datagrams that are empty. -/
def Unanswered : PollEvent → Prop
  | .recv d => d.bytes = []
  | .recvErr => False
  | _ => True

def Retrying (s : Poll) : Prop := ∃ call received, s.pc = .attempt call .retry received

/-- In the retry loop no silence and no number of empty datagrams ends the attempt. -/
theorem retrying_run {s s' : Poll} {ls : List PollEvent} (hr : Retrying s)
    (h : run (step coap) s ls = some s') (hls : ∀ e ∈ ls, Unanswered e) : Retrying s' := by
  refine run_invariant (C := Unanswered) ?_ hr hls h
  rintro ⟨m, pc⟩ e t he ⟨call, received, rfl⟩ hs
  cases Step.of_step hs with
  | recv => exact ⟨call, _, recv_empty he⟩
  | retryErr => exact absurd he id
  | elapsed h => rcases h with h | h <;> cases h

/-- After one empty datagram the attempt waits, and whatever else comes but a datagram that is not
empty or an error, it waits still. -/
theorem not_limitInForce : ∃ s, run (step .wire) (init (mesh [])) (requestRun ⟨⟨ipOf 1, 1212⟩, []⟩)
      = some s
    ∧ ¬ LimitInForce .wire s
    ∧ ∀ ls s', run (step .wire) s ls = some s' → (∀ e ∈ ls, Unanswered e) → Retrying s' := by
  obtain ⟨s, hs⟩ := Option.isSome_iff_exists.mp (by decide +kernel :
    (run (step .wire) (init (mesh [])) (requestRun ⟨⟨ipOf 1, 1212⟩, []⟩)).isSome)
  have hpc : ∀ s ∈ run (step .wire) (init (mesh [])) (requestRun ⟨⟨ipOf 1, 1212⟩, []⟩),
      s.pc = .attempt ⟨omrIp, 1, ipOf 1, 1213, 0, []⟩ .retry [⟨⟨ipOf 1, 1212⟩, []⟩] := by
    decide +kernel
  exact ⟨s, hs, fun h => limitInForce_iff_pc.mp h _ _ (hpc s hs),
    fun ls s' h hls => retrying_run ⟨_, _, hpc s hs⟩ h hls⟩

end Poll

end Pmind
