import Pmind.Proofs.Host
import Pmind.Proofs.Registering

/-!
# Who listens to a registered node

The monitor drops a node when the child table does, and at no other time: that its receive task has
ended it never learns. So at the end of a round every registered node is listened to exactly if the
nodes whose task ended before the round are missing from the child table the round is answered.
-/

namespace Pmind

open HashMap

/-- `GetNodeStatus` is answered, with a child table the node is missing from. -/
def OtMonitor.Missing (m : OtMonitor) (c : OtClient) (q : Rloc × Ipv6Addr) : Prop :=
  match c.getChildIps with
  | .ok children => q ∉ inScope m.addr children
  | .error _ => False

instance (m : OtMonitor) (c : OtClient) (q : Rloc × Ipv6Addr) : Decidable (m.Missing c q) :=
  match h : c.getChildIps with
  | .ok children =>
    decidable_of_iff (∀ q' ∈ OtMonitor.inScope m.addr children, q ≠ q') (by
      simp only [OtMonitor.Missing, h]
      exact List.forall_mem_ne)
  | .error _ => decidable_of_iff False (by simp [OtMonitor.Missing, h])

theorem OtMonitor.getNodeStatus_missing {m : OtMonitor} {c : OtClient}
    {iter : List (NodeRcvPort × InternalRegistration)} (hi : m.nodes.Iter iter) :
    (∀ p n, (m.getNodeStatus c iter).2.nodes.lookup p = some n ↔
        m.nodes.lookup p = some n ∧ ¬ m.Missing c n.pair)
      ∧ ∀ p, p ∈ (m.getNodeStatus c iter).2.ports.ports ↔
          p ∈ m.ports.ports ∨ ∃ n, m.nodes.lookup p = some n ∧ m.Missing c n.pair := by
  unfold Missing
  rcases hc : c.getChildIps with err | children
  · have ha : m.getNodes c = .error (.otClientError err) := by
      simp [getNodes, hc, Except.mapError, Except.map]
    simp [getNodeStatus_error ha]
  · have ha : m.getNodes c = .ok (inScope m.addr children) := getNodes_ok.mpr ⟨children, hc, rfl⟩
    obtain ⟨hn, hp, -⟩ := getNodeStatus_snd ha hi
    simp only [not_not]
    exact ⟨hn, hp⟩

namespace Host

open Transition Poll

variable {coap : CoapLite}

def Attended (s : Host) (p : NodeRcvPort) : Prop :=
  ∃ r ∈ s.receiver p, r.handler.phase ≠ .ended ∨ r.endedIn = some s.round

/-- At the end of a round every registered node is listened to. -/
def RoundAttended (s : Host) : Prop :=
  s.poll.pc = .sleep → ∀ p ∈ s.poll.monitor.nodes.keys, s.Attended p

def EndedBefore (s : Host) (p : NodeRcvPort) : Prop :=
  ∃ r ∈ s.receiver p, ∃ k ∈ r.endedIn, k < s.round

/-- The child table `GetNodeStatus` is answered misses the nodes whose receive task had ended
before the round. -/
def EndedMissing (s : Host) : HostEvent → Prop
  | .poll (.getNodeStatus c _) => ∀ p ∈ s.poll.monitor.nodes.keys,
      ∀ n ∈ s.poll.monitor.nodes.lookup p, s.EndedBefore p → s.poll.monitor.Missing c n.pair
  | _ => True

instance (s : Host) (p : NodeRcvPort) : Decidable (s.Attended p) :=
  inferInstanceAs (Decidable (∃ r ∈ s.receiver p, _ ∨ _))

instance (s : Host) (p : NodeRcvPort) : Decidable (s.EndedBefore p) :=
  inferInstanceAs (Decidable (∃ r ∈ s.receiver p, ∃ k ∈ r.endedIn, k < s.round))

instance (s : Host) : Decidable s.RoundAttended :=
  inferInstanceAs (Decidable (_ → ∀ p ∈ s.poll.monitor.nodes.keys, s.Attended p))

instance (s : Host) : (e : HostEvent) → Decidable (s.EndedMissing e)
  | .poll (.getNodeStatus c _) => inferInstanceAs (Decidable (∀ p ∈ s.poll.monitor.nodes.keys,
      ∀ n ∈ s.poll.monitor.nodes.lookup p, s.EndedBefore p → s.poll.monitor.Missing c n.pair))
  | .poll (.networkStatus _) | .poll (.checkNewNode _) | .poll (.omrIp _) | .poll (.reserve _)
  | .poll (.bind _) | .poll (.recv _) | .poll .recvErr | .poll .elapsed | .poll .registerNode
  | .poll .newHandler | .poll .emit | .poll .returnPort | .poll .sleep | .socket _ _ =>
    inferInstanceAs (Decidable True)

theorem attended_or_endedBefore {s : Host} (h : Tracked s) {p : NodeRcvPort} {r : Receiver}
    (hr : r ∈ s.receiver p) : s.Attended p ∨ s.EndedBefore p := by
  by_cases hend : r.handler.phase = .ended
  · obtain ⟨k, hk, hle⟩ := h.ended r (List.mem_of_find?_eq_some hr) hend
    rcases hle.eq_or_lt with rfl | hlt
    · exact Or.inl ⟨r, hr, Or.inr hk⟩
    · exact Or.inr ⟨r, hr, k, hk, hlt⟩
  · exact Or.inl ⟨r, hr, Or.inl hend⟩

theorem not_attended {s : Host} (h : Tracked s) {p : NodeRcvPort} (hend : s.EndedBefore p) :
    ¬ s.Attended p := by
  obtain ⟨r, hr, k, hk, hlt⟩ := hend
  rintro ⟨r', hr', hatt⟩
  rw [Option.mem_def.mp hr, Option.mem_some] at hr'
  subst hr'
  rcases hatt with hlive | hround
  · rw [h.live r (List.mem_of_find?_eq_some hr) hlive] at hk
    cases hk
  · rw [hround, Option.mem_some] at hk
    omega

theorem roundAttended_step (s : Host) (e : HostEvent) (s' : Host) (hJ : Tracked s)
    (h : RoundAttended s) (hs : step coap s e = some s') : RoundAttended s' ↔ EndedMissing s e := by
  rcases e with e | ⟨i, e⟩
  · obtain ⟨-, poll, hp, rfl⟩ := step_poll hs
    by_cases hpc : poll.pc = .sleep
    · obtain ⟨c, iter, rfl⟩ := Poll.step_to_sleep hp hpc
      obtain ⟨hat, hi, rfl⟩ := Poll.step_getNodeStatus hp
      have hspawn : s.poll.pc.spawning = none := by rw [hat]; rfl
      obtain ⟨hlook, -⟩ := OtMonitor.getNodeStatus_missing (c := c) hi
      simp only [spawned_eq hp, hspawn, Option.toList_none, List.map_nil, List.nil_append,
        nextRound]
      refine ⟨?_, ?_⟩
      · intro hatt p hmem n hn hend
        by_contra hnot
        have hkept := Finmap.mem_of_lookup_eq_some ((hlook p n).mpr ⟨hn, hnot⟩)
        exact not_attended hJ hend (hatt rfl p (Finmap.mem_keys.mpr hkept))
      · intro hmiss _ p hmem
        obtain ⟨n, hn⟩ := Finmap.mem_iff.mp (Finmap.mem_keys.mp hmem)
        obtain ⟨hn, hnot⟩ := (hlook p n).mp hn
        obtain ⟨r, hr, -⟩ := hJ.receiver p n hn (by simp [hspawn])
        refine (attended_or_endedBefore hJ hr).resolve_right fun hend => hnot ?_
        exact hmiss p (Finmap.mem_keys.mpr (Finmap.mem_of_lookup_eq_some hn)) n hn hend
    · refine ⟨fun _ => ?_, fun _ hsleep => absurd hsleep hpc⟩
      unfold EndedMissing
      split
      · rename_i heq
        cases heq
        obtain ⟨-, -, rfl⟩ := Poll.step_getNodeStatus hp
        exact absurd rfl hpc
      · trivial
  · obtain ⟨-, r, handler, hr, hh, rfl⟩ := step_socket hs
    simp only [EndedMissing, iff_true]
    intro hsleep p hmem
    obtain ⟨r₀, hr₀, hatt⟩ := h hsleep p hmem
    rcases receiver_set hr s.round handler p with heq | ⟨heq, -⟩
    · exact ⟨r₀, heq ▸ hr₀, hatt⟩
    · refine ⟨_, heq, ?_⟩
      by_cases hend : handler.phase = .ended
      · exact Or.inr (by simp [Receiver.after, hend])
      · exact Or.inl hend

/-- In every run, the registered nodes are listened to at the end of each round exactly if in each
round those whose task had ended before it are missing from the child table. -/
theorem roundAttended_iff (coap : CoapLite) (c : OtClient) (ls : List HostEvent) (s : Host)
    (h : run (step coap) (init c) ls = some s) :
    EveryState (step coap) RoundAttended (init c) ls
      ↔ EveryStep (step coap) EndedMissing (init c) ls :=
  everyState_iff_everyStep (J := Tracked) (fun _ _ _ => tracked_step) roundAttended_step
    (tracked_init c) (fun hsleep => by cases hsleep) h

/-- A node registers, its receive task times out, and the next round is answered `children`. -/
def silentRun (children : List (Rloc × Ipv6Addr)) : List HostEvent :=
  let iter := [(1213, ⟨0x4401, ipOf 1, 1213, .of 0x60 0x55 0xf9 0xf6 0 1⟩)]
  (Poll.roundOf [(0x4401, ipOf 1)] [(1213, reply 1213 1)]).map .poll
    ++ [.socket 0 (.bind true), .poll (.getNodeStatus (mesh [(0x4401, ipOf 1)]) iter),
      .socket 0 .timeout, .poll .sleep]
    ++ (Poll.roundOf children []).map .poll ++ [.poll (.getNodeStatus (mesh children) iter)]

theorem roundAttended_lost :
    EveryState (step .wire) RoundAttended (init (mesh [])) (silentRun []) := by
  obtain ⟨s, hs⟩ : ∃ s, run (step .wire) (init (mesh [])) (silentRun []) = some s :=
    Option.isSome_iff_exists.mp (by decide +kernel)
  exact (roundAttended_iff .wire (mesh []) _ s hs).mpr (by decide +kernel)

theorem not_roundAttended : ∃ s, run (step .wire) (init (mesh [])) (silentRun [(0x4401, ipOf 1)])
    = some s ∧ ¬ RoundAttended s := by
  have h : ∃ s ∈ run (step .wire) (init (mesh [])) (silentRun [(0x4401, ipOf 1)]),
      ¬ RoundAttended s := by decide +kernel
  exact h

end Host

end Pmind
