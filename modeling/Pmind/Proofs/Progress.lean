import Pmind.Lib.Run
import Pmind.Proofs.Poll
import Pmind.Proofs.Registering

/-!
# Every round ends

A round of the poll loop asks the monitor five times at most, the sleep included, and takes at most
six steps for each new node. Only an empty datagram prolongs it: the request goes out again, and
the call waits for an answer once more, this time without a limit. Nowhere else does the loop wait
for the network alone.
-/

namespace Pmind

open Transition HashMap

def PollEvent.isSleep : PollEvent → Bool
  | .sleep => true
  | _ => false

def PollEvent.isEmptyRecv : PollEvent → Bool
  | .recv d => (d.bytes.take bufferSize).isEmpty
  | _ => false

/-- What comes of the registration socket, as opposed to the monitor's answers and the timers. -/
def PollEvent.isRecv : PollEvent → Bool
  | .recv _ | .recvErr => true
  | _ => false

namespace Poll

variable {coap : CoapLite}

def attemptSteps : RegisterPc → ℕ
  | .bind => 5
  | .select => 4
  | .sleepOnly => 2
  | .retry => 4

/-- The most steps left of a round, of one that has at most `n` new nodes. -/
def stepsLeft (n : ℕ) : PollPc → ℕ
  | .networkStatus => 6 * n + 5
  | .checkNewNode => 6 * n + 4
  | .omrIp nodes => 6 * nodes.length + 3
  | .reserve _ _ nodes => 6 * nodes.length + 2
  | .attempt call pc _ => 6 * call.rest.length + attemptSteps pc + 2
  | .registerNode call _ => 6 * call.rest.length + 5
  | .newHandler call _ => 6 * call.rest.length + 4
  | .emit call _ => 6 * call.rest.length + 3
  | .returnPort call => 6 * call.rest.length + 3
  | .getNodeStatus => 2
  | .sleep => 1
  | .exited => 0

/-- What a step brings in: the sleep another round, an empty datagram the wait for the next. -/
def refill (n : ℕ) (e : PollEvent) : ℕ :=
  (if e.isSleep then 6 * n + 5 else 0) + if e.isEmptyRecv then 1 else 0

/-- The child tables that a step is answered have at most `n` entries. -/
def Children (n : ℕ) (e : PollEvent) : Prop :=
  ∀ c ∈ e.otClient, ∀ children, c.getChildIps = .ok children → children.length ≤ n

theorem stepsLeft_next (n : ℕ) (omrAddr : Ipv6Addr) (i : ℕ) : ∀ nodes : List (Rloc × Ipv6Addr),
    stepsLeft n (next omrAddr i nodes) = 6 * nodes.length + 2
  | [] => rfl
  | _ :: _ => rfl

theorem stepsLeft_recv (n : ℕ) (call : Call) (received : List Received) (d : Received) :
    stepsLeft n (recv coap call received d) + 1
      ≤ 6 * call.rest.length + 6 + if (PollEvent.recv d).isEmptyRecv then 1 else 0 := by
  unfold recv
  simp only []
  split_ifs with hempty hrecv
  · exact le_rfl
  · exact absurd (List.isEmpty_iff.mpr hempty) hrecv
  all_goals
    split
    · simp only [stepsLeft]
      omega
    · split_ifs <;> simp only [stepsLeft] <;> omega

theorem length_checkNewNode {m : OtMonitor} {c : OtClient} {nodes : List (Rloc × Ipv6Addr)} {n : ℕ}
    (h : m.checkNewNode c = .ok nodes)
    (hc : ∀ children, c.getChildIps = .ok children → children.length ≤ n) : nodes.length ≤ n := by
  unfold OtMonitor.checkNewNode OtMonitor.getNodes at h
  rcases hchildren : c.getChildIps with e | children
  · rw [hchildren] at h
    cases h
  · rw [hchildren] at h
    cases h
    exact (List.length_filter_le _ _).trans
      ((List.length_filter_le _ _).trans (hc children hchildren))

/-- Each step brings the round's end closer, save one that an empty datagram makes. -/
theorem stepsLeft_step {n : ℕ} {s s' : Poll} {e : PollEvent} (he : Children n e)
    (hs : step coap s e = some s') :
    stepsLeft n s'.pc + 1 ≤ stepsLeft n s.pc + refill n e := by
  cases Step.of_step hs with
  | @newNodes m c nodes hnodes =>
    have hlen := length_checkNewNode hnodes (he c rfl)
    simp only [stepsLeft]
    omega
  | @recv m call pc received d hpc =>
    have hleft : stepsLeft n (.attempt call pc received) = 6 * call.rest.length + 6 := by
      rcases hpc with rfl | rfl <;> rfl
    rw [hleft]
    exact (stepsLeft_recv n call received d).trans (Nat.add_le_add_left (Nat.le_add_left _ _) _)
  | omrIp | emit | returnPort =>
    rw [stepsLeft_next]
    simp only [stepsLeft]
    omega
  | elapsed hpc =>
    rcases hpc with rfl | rfl <;> simp only [stepsLeft, attemptSteps] <;> omega
  | sleep =>
    simp only [stepsLeft, refill, PollEvent.isSleep, if_true]
    omega
  | _ =>
    simp only [stepsLeft, attemptSteps, List.length_cons]
    omega

theorem stepsLeft_le {n : ℕ} {s s' : Poll} {e : PollEvent} (he : Children n e)
    (h : stepsLeft n s.pc ≤ 6 * n + 5) (hs : step coap s e = some s') :
    stepsLeft n s'.pc ≤ 6 * n + 5 := by
  have hstep := stepsLeft_step he hs
  by_cases hsleep : e = .sleep
  · subst hsleep
    cases Step.of_step hs with
    | sleep => exact le_rfl
  · have hno : e.isSleep = false := by cases e <;> first | rfl | exact absurd rfl hsleep
    have hle : refill n e ≤ 1 := by
      simp only [refill, hno, Bool.false_eq_true, if_false]
      split_ifs <;> omega
    omega

/-! ## What the loop waits for -/

/-- The loop does not come to a node where none is left. -/
def HasNext : PollPc → Prop
  | .reserve _ _ nodes => nodes ≠ []
  | _ => True

theorem hasNext_next (omrAddr : Ipv6Addr) (i : ℕ) : ∀ nodes, HasNext (next omrAddr i nodes)
  | [] => trivial
  | _ :: _ => List.cons_ne_nil _ _

theorem hasNext_step {s s' : Poll} {e : PollEvent} (hs : step coap s e = some s') :
    HasNext s'.pc := by
  cases Step.of_step hs with
  | omrIp | emit | returnPort => exact hasNext_next _ _ _
  | @recv _ call _ received d =>
    rcases recv_cases coap call received d with ⟨_, h⟩ | ⟨_, h⟩ | h <;> simp [h, HasNext]
  | _ => trivial

/-- Whatever `ot-ctl` answers, the loop goes on without the socket, but in the retry. -/
theorem exists_step (coap : CoapLite) {s : Poll} (h : HasNext s.pc) (hpc : s.pc ≠ .exited)
    (c : OtClient) : (∃ call received, s.pc = .attempt call .retry received)
      ∨ ∃ e s', e.isRecv = false ∧ (∀ c' ∈ e.otClient, c' = c) ∧ step coap s e = some s' := by
  have hask : ∀ c' ∈ some c, c' = c := fun c' hc' => (Option.mem_some.mp hc').symm
  have hown : ∀ c' ∈ (none : Option OtClient), c' = c := fun c' hc' => by cases hc'
  obtain ⟨m, pc⟩ := s
  cases pc with
  | networkStatus => exact Or.inr ⟨.networkStatus c, _, rfl, hask, rfl⟩
  | checkNewNode =>
    refine Or.inr ⟨.checkNewNode c, ?_⟩
    rcases hnodes : m.checkNewNode c with e | nodes
    · exact ⟨⟨m, .exited⟩, rfl, hask, by simp [step, hnodes]⟩
    · exact ⟨⟨m, .omrIp nodes⟩, rfl, hask, by simp [step, hnodes]⟩
  | omrIp nodes =>
    refine Or.inr ⟨.omrIp c, ?_⟩
    rcases homr : OtMonitor.getOmrIp c with e | omrAddr
    · exact ⟨⟨m, .getNodeStatus⟩, rfl, hask, by simp [step, homr]⟩
    · exact ⟨⟨m, next omrAddr 0 nodes⟩, rfl, hask, by simp [step, homr]⟩
  | reserve omrAddr i nodes =>
    obtain ⟨node, rest, rfl⟩ := List.exists_cons_of_ne_nil h
    obtain ⟨top, htop⟩ := exists_iterNext m.ports.ports
    exact Or.inr ⟨.reserve top, _, rfl, hown, if_pos htop⟩
  | attempt call pc received =>
    cases pc with
    | bind => exact Or.inr ⟨.bind false, ⟨m, .returnPort call⟩, rfl, hown, by
        rcases hb : coap.toBytes (request call.port) with _ | bytes <;> simp [step, hb]⟩
    | select | sleepOnly => exact Or.inr ⟨.elapsed, _, rfl, hown, rfl⟩
    | retry => exact Or.inl ⟨call, received, rfl⟩
  | registerNode call answer => exact Or.inr ⟨.registerNode, _, rfl, hown, rfl⟩
  | newHandler call answer => exact Or.inr ⟨.newHandler, _, rfl, hown, rfl⟩
  | emit call answer => exact Or.inr ⟨.emit, _, rfl, hown, rfl⟩
  | returnPort call => exact Or.inr ⟨.returnPort, _, rfl, hown, rfl⟩
  | getNodeStatus =>
    obtain ⟨iter, hiter⟩ := exists_iter m.nodes
    exact Or.inr ⟨.getNodeStatus c iter, _, rfl, hask, if_pos hiter⟩
  | sleep => exact Or.inr ⟨.sleep, _, rfl, hown, rfl⟩
  | exited => exact absurd rfl hpc

/-- In every run in which the child tables have at most `n` entries, and over any stretch of it,
there are at most `6 * n + 5` steps to a round, and one more for each empty datagram. Until it has
exited the loop goes on whatever `ot-ctl` answers, save in the retry of an attempt, where it waits
for the next datagram. -/
theorem rounds_end (coap : CoapLite) (n : ℕ) (c : OtClient) (ls ls' : List PollEvent) (s s' : Poll)
    (h : run (step coap) (init c) ls = some s) (h' : run (step coap) s ls' = some s')
    (hn : ∀ e ∈ ls ++ ls', Children n e) :
    ls'.length ≤ (6 * n + 5) * (ls'.countP PollEvent.isSleep + 1)
        + ls'.countP PollEvent.isEmptyRecv
      ∧ (s'.pc = .exited ∨ (∃ call received, s'.pc = .attempt call .retry received)
        ∨ ∀ c', ∃ e t, e.isRecv = false ∧ (∀ c'' ∈ e.otClient, c'' = c')
          ∧ step coap s' e = some t) := by
  have hleft : stepsLeft n s.pc ≤ 6 * n + 5 :=
    run_invariant (C := Children n) (fun _ _ _ he hinv hs => stepsLeft_le he hinv hs)
      (show stepsLeft n (init c).pc ≤ 6 * n + 5 from le_rfl)
      (fun e he => hn e (List.mem_append_left _ he)) h
  have hcost := (cost_le_of_potential (C := Children n) (J := fun _ => True)
    (f := fun s : Poll => stepsLeft n s.pc) (p := fun _ => 1) (g := refill n)
    (fun _ _ _ he _ hs => ⟨trivial, stepsLeft_step he hs⟩) trivial
    (fun e he => hn e (List.mem_append_right _ he)) h').2
  have hrefill : cost (refill n) ls' = (6 * n + 5) * ls'.countP PollEvent.isSleep
      + ls'.countP PollEvent.isEmptyRecv := by
    unfold refill
    rw [cost_add, cost_eq_countP, cost_eq_countP, Nat.one_mul]
  rw [cost_const, Nat.one_mul, hrefill] at hcost
  refine ⟨?_, ?_⟩
  · rw [Nat.mul_add, Nat.mul_one]
    omega
  · have hnext : HasNext s'.pc := run_invariant (C := fun _ => True)
      (fun _ _ _ _ _ hs => hasNext_step hs) (show HasNext (init c).pc from trivial)
      (fun _ _ => trivial) (run_append_some.mpr ⟨s, h, h'⟩)
    by_cases hpc : s'.pc = .exited
    · exact Or.inl hpc
    · by_cases hretry : ∃ call received, s'.pc = .attempt call .retry received
      · exact Or.inr (Or.inl hretry)
      · exact Or.inr (Or.inr fun c' => (exists_step coap hnext hpc c').resolve_left hretry)

/-- The node's first datagram is empty, and its reply comes to the retry. -/
def prolongedRun : List PollEvent :=
  [.networkStatus (mesh []), .checkNewNode (mesh [(0x4401, ipOf 1)]), .omrIp (mesh []),
    .reserve (some 1213), .bind true, .recv ⟨⟨ipOf 1, 1212⟩, []⟩, .recv (reply 1213 1),
    .registerNode, .newHandler, .emit, .getNodeStatus (mesh [(0x4401, ipOf 1)])
      [(1213, ⟨0x4401, ipOf 1, 1213, .of 0x60 0x55 0xf9 0xf6 0 1⟩)], .sleep]

theorem rounds_end_prolonged : ∃ s, run (step .wire) (init (mesh [])) prolongedRun = some s
    ∧ prolongedRun.length ≤ (6 * 1 + 5) * (prolongedRun.countP PollEvent.isSleep + 1)
        + prolongedRun.countP PollEvent.isEmptyRecv := by
  obtain ⟨s, hs⟩ := Option.isSome_iff_exists.mp (by decide +kernel :
    (run (step .wire) (init (mesh [])) prolongedRun).isSome)
  have hn : ∀ e ∈ [] ++ prolongedRun, Children 1 e := by
    simp [prolongedRun, Children, PollEvent.otClient, mesh]
  exact ⟨s, hs, (rounds_end .wire 1 (mesh []) [] prolongedRun _ s rfl hs hn).1⟩

end Poll

end Pmind
