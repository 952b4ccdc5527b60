import Pmind.Proofs.Session

/-!
# What a client is sent of a session

A client that follows a session is sent it in order exactly if the event loop takes each reading
after the session's registration, and its termination when no reading of it waits. Of a session's
end it is sent exactly one termination, save if the socket could not be bound.
-/

namespace Pmind

open Transition HashMap

def Sent.Reports : Sent → NodeStatus → Prop
  | .registration _, .registration _ => True
  | .termination _ state, .termination _ state' => state = state'
  | _, _ => False

namespace Sessions

variable {json : SerdeJson} {s s' : Sessions}

instance (s : Sessions) (i : ℕ) : Decidable (s.transit.Followed i) :=
  decidable_of_iff (∃ id ∈ s.broker.subscribers.keys, (s.subscriptions id).streams ≤ i) <| by
    simp [Transit.Followed, transit, Finmap.mem_keys]

instance (s : Sessions) : (x : Option Sent) → Decidable (s.transit.InTurn x)
  | some (.reading i) => inferInstanceAs (Decidable (s.transit.Followed i → i < s.announced))
  | some (.termination i _) => inferInstanceAs (Decidable (s.transit.Followed i → i ∉ s.readings))
  | some (.registration _) => inferInstanceAs (Decidable True)
  | none => inferInstanceAs (Decidable True)

/-- What the event loop sends is put on the channel of every subscriber. -/
theorem sends_fanOut (hal : s.Aligned) {e : BrokerStep} {y : Sent} (hx : s.sends e = some y)
    (hs : step json s (.broker e) = some s') :
    (∃ iter status, s.broker.subscribers.Iter iter ∧ y.Reports status
        ∧ s'.broker.statuses = Broker.fanOut Senders.nodeStatus iter status s.broker.statuses)
      ∨ ∃ iter data, s.broker.subscribers.Iter iter ∧ s.broker.dataQueue.head? = some data
        ∧ s'.broker.readings
          = Broker.fanOut Senders.sensorReadings iter data s.broker.readings := by
  obtain ⟨-, broker, hb, rfl⟩ := broker_some hs
  cases Broker.step_some hb with
  | @incoming iter event rest hq hiter =>
    obtain ⟨tag, tags, hevents, htag, -⟩ := hal.head hq
    have htag' : tag = some y := by simpa [sends, hevents] using hx
    subst htag'
    cases htag with
    | registration _ reg => exact Or.inl ⟨iter, .registration reg, hiter, trivial, rfl⟩
    | termination _ addr state =>
      exact Or.inl ⟨iter, .termination addr state, hiter, rfl, rfl⟩
  | @data iter data rest hq hiter =>
    exact Or.inr ⟨iter, data, hiter, by rw [hq]; rfl, rfl⟩
  | forward he => rcases he with rfl | rfl <;> cases hx
  | _ => cases hx

/-- In every run, every client is throughout sent the sessions it follows in order exactly if the
event loop takes each reading after it took the session's registration, and a session's termination
when no reading of the session waits. -/
theorem inOrder_iff (json : SerdeJson) (ls : List SessionEvent) (s : Sessions)
    (h : run (step json) init ls = some s) :
    EveryState (step json) (fun s => s.transit.InOrder) init ls
      ↔ EveryStep (step json) (fun s e => s.transit.InTurn (s.sendsOf e)) init ls := by
  refine everyState_iff_everyStep (fun _ _ _ hinv hs => inv_step hinv hs) ?_ inv_init ?_ h
  · intro s e s' hinv hord hs
    exact Transit.inOrder_step hinv.registering hinv.ending hord (transit_step hinv.aligned hs)
  · intro id hid
    cases hid

def node : SocketAddrV6 := ⟨.localhost, 1213⟩

def report : List UInt8 :=
  ("\x7b\"soil\":\x7b\"moisture\":250,\"temp\":21.0\x7d," ++
    "\"light\":null,\"gas\":null,\"ts\":0\x7d").toUTF8.toList

def reportJson : SerdeJson :=
  ⟨fun bytes => if bytes = report then some ⟨⟨250, 21⟩, none, none, 0⟩ else none,
    fun _ => some report⟩

/-- The subscription of client 1, and a node that is registered and reports. -/
def registeredRun : List SessionEvent :=
  [.broker (.request (.subscribe 1 ⟨0, 1⟩)), .broker .subscription, .handler node,
    .registration ⟨.of 0x60 0x55 0xf9 0xf6 0 1, .localhost, "mint"⟩, .socket 0 (.bind true),
    .socket 0 (.received ⟨node, report⟩ 0)]

/-- The stream's task, as the event loop takes what comes first. -/
def streamRun : List SessionEvent :=
  [.broker .forwardStream, .broker (.incoming [(1, ⟨0, 1⟩)]), .broker (.process 0)]

def inOrderRun : List SessionEvent :=
  registeredRun ++ streamRun ++ [.broker .forwardRegistration, .broker (.incoming [(1, ⟨0, 1⟩)]),
    .broker (.data [(1, ⟨0, 1⟩)]), .socket 0 .timeout, .broker (.process 0),
    .broker (.incoming [(1, ⟨0, 1⟩)])]

/-- A second reading waits when the loop comes to the session's end. -/
def overtakingRun : List SessionEvent :=
  registeredRun ++ [.socket 0 (.received ⟨node, report⟩ 1)] ++ streamRun ++
    [.broker (.data [(1, ⟨0, 1⟩)]), .broker .forwardRegistration,
      .broker (.incoming [(1, ⟨0, 1⟩)]), .broker (.process 0), .socket 0 .timeout,
      .broker (.process 0), .broker (.incoming [(1, ⟨0, 1⟩)]), .broker (.data [(1, ⟨0, 1⟩)])]

theorem inOrder_inTurn :
    EveryState (step reportJson) (fun s => s.transit.InOrder) init inOrderRun := by
  obtain ⟨s, hs⟩ := Option.isSome_iff_exists.mp
    (by decide +kernel : (run (step reportJson) init inOrderRun).isSome)
  exact (inOrder_iff reportJson inOrderRun s hs).mpr (by decide +kernel)

theorem not_inOrder : ∃ s, run (step reportJson) init overtakingRun = some s
    ∧ (s.subscriptions 1).sent = [.reading 0, .registration 0, .termination 0 .timeout, .reading 0]
    ∧ ¬ s.transit.InOrder := by
  obtain ⟨s, hs, hid, hsent⟩ : ∃ s, run (step reportJson) init overtakingRun = some s
      ∧ (1 ∈ s.broker.subscribers ∧ (s.subscriptions 1).streams = 0) ∧ (s.subscriptions 1).sent
        = [.reading 0, .registration 0, .termination 0 .timeout, .reading 0] := by
    decide +kernel
  refine ⟨s, hs, hsent, fun h => ?_⟩
  have hordered := (h 1 (by simpa [transit] using hid.1) 0 hid.2.le).1
  have hpre : [] ++ [.reading 0] <+: (s.subscriptions 1).sent := by simp [hsent]
  exact absurd (hordered [] hpre).1 (by simp)

/-- In every run in which nothing is left on the event loop's channel and on a session's stream, a
client that subscribed before the session's registration, and is still, has been sent exactly one
termination of it, with how it ended, exactly if it did not end by a socket that could not be
bound. -/
theorem terminated_iff (json : SerdeJson) (ls : List SessionEvent) (s : Sessions)
    (h : run (step json) init ls = some s) (i : ℕ) (state : ErrorState)
    (hending : s.endings i = some state) (hreceiver : s.broker.receiver = [])
    (hqueue : ∀ stream ∈ s.broker.streams[i]?, stream.queue = []) (id : ClientId)
    (hid : id ∈ s.broker.subscribers) (hregistered : (s.subscriptions id).registered ≤ i) :
    Transit.endsOf i (s.subscriptions id).sent = [state] ↔ state ≠ .setupError := by
  have hinv : s.Inv := run_invariant (C := fun _ => True) (fun _ _ _ _ hinv hs => inv_step hinv hs)
    inv_init (fun _ _ => trivial) h
  obtain ⟨-, -, hconserved⟩ := hinv.conserved i state hending
  have hevents : s.events = [] := by
    have htags := hinv.aligned.events
    rwa [hreceiver, List.forall₂_nil_right_iff] at htags
  have hstream : s.transit.queue i = [] := by
    simp only [transit, queueOf]
    rcases hi : s.broker.streams[i]? with _ | stream
    · rfl
    · simp [hqueue stream hi]
  have hsent := hconserved id (by simpa [transit] using hid) hregistered
  have hnone : Transit.endsOf i s.transit.events = [] := by simp [transit, hevents, Transit.endsOf]
  rw [hnone, hstream, List.append_nil] at hsent
  have hreported : Transit.endsOf i (s.subscriptions id).sent = Transit.reported state :=
    (List.append_nil _).symm.trans hsent
  rw [hreported]
  rcases state <;> simp [Transit.reported]

/-- A node whose socket cannot be bound. -/
def unboundRun : List SessionEvent :=
  [.broker (.request (.subscribe 1 ⟨0, 1⟩)), .broker .subscription, .handler node,
    .registration ⟨.of 0x60 0x55 0xf9 0xf6 0 1, .localhost, "mint"⟩, .socket 0 (.bind false)] ++
    streamRun ++ [.broker .forwardRegistration, .broker (.incoming [(1, ⟨0, 1⟩)])]

theorem terminated_timeout : ∃ s, run (step reportJson) init inOrderRun = some s
    ∧ Transit.endsOf 0 (s.subscriptions 1).sent = [.timeout] := by
  obtain ⟨s, hs, hending, hreceiver, hqueue, hid, hregistered⟩ :
      ∃ s, run (step reportJson) init inOrderRun = some s ∧ s.endings 0 = some .timeout
        ∧ s.broker.receiver = [] ∧ (∀ stream ∈ s.broker.streams[0]?, stream.queue.length = 0)
        ∧ 1 ∈ s.broker.subscribers ∧ (s.subscriptions 1).registered ≤ 0 := by
    decide +kernel
  exact ⟨s, hs, (terminated_iff reportJson inOrderRun s hs 0 .timeout hending hreceiver
    (fun stream hi => List.length_eq_zero_iff.mp (hqueue stream hi)) 1 hid hregistered).mpr nofun⟩

theorem not_terminated : ∃ s, run (step reportJson) init unboundRun = some s
    ∧ s.endings 0 = some .setupError ∧ s.broker.receiver = [] ∧ s.broker.nodeRegStream = []
    ∧ s.broker.dataQueue.length = 0 ∧ (∀ stream ∈ s.broker.streams, stream.queue.length = 0)
    ∧ 1 ∈ s.broker.subscribers ∧ (s.subscriptions 1).registered = 0
    ∧ (s.subscriptions 1).sent = [.registration 0]
    ∧ Transit.endsOf 0 (s.subscriptions 1).sent ≠ [.setupError] := by
  decide +kernel

end Sessions

end Pmind
