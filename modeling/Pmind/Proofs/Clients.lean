import Pmind.Proofs.Broker

/-!
# What several clients get

The event loop takes the clients' requests in the order they were made. So where each client
subscribes once, with channels of its own, and stays, those that subscribed later have got the end
of what the earlier ones got, of the readings and of the statuses.
-/

namespace Pmind

open HashMap Transition Broadcast

def BrokerStep.requests : BrokerStep → List ClientApi
  | .request msg => [msg]
  | _ => []

def ClientApi.client : ClientApi → Option (ClientId × Senders)
  | .subscribe id senders => some (id, senders)
  | .unsubscribe _ => none

namespace Broker

/-- The requests a step handles. -/
def granted (s : Broker) : BrokerStep → List ClientApi
  | .subscription => s.subscriptionReceiver.head?.toList
  | _ => []

theorem subscriptionReceiver_step {s s' : Broker} {e : BrokerStep} (hs : Step s e s') :
    s.subscriptionReceiver ++ e.requests = s.granted e ++ s'.subscriptionReceiver := by
  cases hs with
  | forward he => rcases he with rfl | rfl <;> simp [BrokerStep.requests, granted]
  | @incoming _ event _ _ _ =>
    rcases event <;> simp [BrokerStep.requests, granted, handleIncoming]
  | @subscription msg _ hq =>
    rcases msg <;> simp [BrokerStep.requests, granted, handleRequest, hq]
  | @process _ _ msg _ _ _ _ =>
    rcases msg <;> simp [BrokerStep.requests, granted, handleStream]
  | _ => simp [BrokerStep.requests, granted]

theorem run_requests {ls : List BrokerStep} {s : Broker} (h : run step init ls = some s) :
    ls.flatMap BrokerStep.requests = outputs step granted init ls ++ s.subscriptionReceiver := by
  rw [← outputs_eq_flatMap h]
  exact outputs_conserved (q := Broker.subscriptionReceiver) (P := fun _ => True)
    (fun t e t' _ _ ht => subscriptionReceiver_step (step_some ht))
    (everyState_of_forall fun _ => trivial) h

/-! ## The acts -/

def requestOf {μ : Type} : Act ClientId Senders μ → Option ClientApi
  | .subscribe id senders => some (.subscribe id senders)
  | .unsubscribe id => some (.unsubscribe id)
  | .publish _ => none

theorem requestOf_act {μ : Type} (msgs : List ClientApi) :
    (msgs.map fun msg => (msg.act : Act ClientId Senders μ)).filterMap requestOf = msgs := by
  rw [List.filterMap_map]
  refine (List.filterMap_congr fun msg _ => ?_).trans List.filterMap_some
  rcases msg <;> rfl

theorem requestOf_publish {μ : Type} (ms : List μ) :
    (ms.map Act.publish).filterMap requestOf = [] := by
  rw [List.filterMap_map, List.filterMap_eq_nil_iff]
  exact fun _ _ => rfl

theorem requestOf_readingActs (s : Broker) (e : BrokerStep) :
    (s.readingActs e).filterMap requestOf = s.granted e := by
  cases e with
  | data => exact requestOf_publish _
  | subscription => exact requestOf_act _
  | _ => rfl

theorem requestOf_statusActs (s : Broker) (e : BrokerStep) :
    (s.statusActs e).filterMap requestOf = s.granted e := by
  cases e with
  | incoming => exact requestOf_publish _
  | subscription => exact requestOf_act _
  | _ => rfl

/-- Each client subscribes once, in this order, with channels no other has, and no one
unsubscribes. -/
structure Clients (clients : List (ClientId × Senders)) (ls : List BrokerStep) : Prop where
  requests : ls.flatMap BrokerStep.requests <+: clients.map fun c => .subscribe c.1 c.2
  ids : (clients.map Prod.fst).Nodup
  readings : (clients.map fun c => c.2.sensorReadings).Nodup
  statuses : (clients.map fun c => c.2.nodeStatus).Nodup

variable {clients : List (ClientId × Senders)} {ls : List BrokerStep} {s : Broker}

/-- The acts of a run whose requests are these subscriptions have some of them, in their order. -/
theorem Clients.subscriptions {μ : Type} (hc : Clients clients ls) (h : run step init ls = some s)
    {out : Broker → BrokerStep → List (Act ClientId Senders μ)}
    (hout : ∀ s e, (out s e).filterMap requestOf = s.granted e) :
    State.subscriptions (outputs step out init ls) <+: clients
      ∧ ∀ id, .unsubscribe id ∉ outputs step out init ls := by
  have hgranted : (outputs step out init ls).filterMap requestOf
      <+: clients.map fun c => ClientApi.subscribe c.1 c.2 := by
    refine List.IsPrefix.trans ?_ hc.requests
    rw [run_requests h, outputs_filterMap]
    simp only [hout]
    exact List.prefix_append _ _
  refine ⟨?_, fun id hmem => ?_⟩
  · have hsubs : State.subscriptions (outputs step out init ls)
        = ((outputs step out init ls).filterMap requestOf).filterMap ClientApi.client := by
      rw [List.filterMap_filterMap]
      refine List.filterMap_congr fun a _ => ?_
      rcases a with ⟨id, senders⟩ | id | m <;> rfl
    have hclients : (clients.map fun c => ClientApi.subscribe c.1 c.2).filterMap ClientApi.client
        = clients := by
      rw [List.filterMap_map]
      exact List.filterMap_some
    rw [hsubs, ← hclients]
    exact hgranted.filterMap _
  · have hreq : ClientApi.unsubscribe id ∈ (outputs step out init ls).filterMap requestOf :=
      List.mem_filterMap.mpr ⟨_, hmem, rfl⟩
    obtain ⟨c, -, hcontra⟩ := List.mem_map.mp (hgranted.subset hreq)
    cases hcontra

theorem Clients.forGood_readings (hc : Clients clients ls) (h : run step init ls = some s) :
    State.ForGood Senders.sensorReadings (outputs step readingActs init ls) := by
  obtain ⟨hpre, hstay⟩ := hc.subscriptions h requestOf_readingActs
  exact ⟨hc.ids.sublist (hpre.map _).sublist, hc.readings.sublist (hpre.map _).sublist, hstay⟩

theorem Clients.forGood_statuses (hc : Clients clients ls) (h : run step init ls = some s) :
    State.ForGood Senders.nodeStatus (outputs step statusActs init ls) := by
  obtain ⟨hpre, hstay⟩ := hc.subscriptions h requestOf_statusActs
  exact ⟨hc.ids.sublist (hpre.map _).sublist, hc.statuses.sublist (hpre.map _).sublist, hstay⟩

/-- What the event loop sends is what a client misses and then what it gets. -/
theorem Clients.readings_eq (hc : Clients clients ls) (h : run step init ls = some s)
    {c : ClientId × Senders} (hmem : c ∈ clients)
    (hopen : (s.readings c.2.sensorReadings).closed = false) :
    published (outputs step readingActs init ls)
      = missed c.1 (outputs step readingActs init ls)
        ++ (s.readings c.2.sensorReadings).sent := by
  rw [(run_shows_readings h).2 _ hopen]
  exact (hc.forGood_readings h).published_eq (hc.subscriptions h requestOf_readingActs).1 hc.ids
    hc.readings hmem

theorem Clients.statuses_eq (hc : Clients clients ls) (h : run step init ls = some s)
    {c : ClientId × Senders} (hmem : c ∈ clients)
    (hopen : (s.statuses c.2.nodeStatus).closed = false) :
    published (outputs step statusActs init ls)
      = missed c.1 (outputs step statusActs init ls)
        ++ (s.statuses c.2.nodeStatus).sent := by
  rw [(run_shows_statuses h).2 _ hopen]
  exact (hc.forGood_statuses h).published_eq (hc.subscriptions h requestOf_statusActs).1 hc.ids
    hc.statuses hmem

/-! ## Earlier and later clients -/

/-- Of two clients, what the later one has been sent is the end of what the earlier one has, whether
or not its subscription has been handled. -/
theorem later_isSuffix {μ : Type} {acts : List (Act ClientId Senders μ)} {chan : Senders → ℕ}
    (hgood : State.ForGood chan acts) (hpre : State.subscriptions acts <+: clients)
    (hchans : (clients.map fun c => chan c.2).Nodup) {before mid after : List (ClientId × Senders)}
    {a b : ClientId × Senders} (hab : clients = before ++ a :: (mid ++ b :: after)) :
    (State.init.after chan acts).sent (chan b.2)
      <:+ (State.init.after chan acts).sent (chan a.2) := by
  obtain ⟨rest, hrest⟩ := hpre
  by_cases hb : b ∈ State.subscriptions acts
  · obtain ⟨first, last, hsubs⟩ := List.append_of_mem hb
    have hnd : clients.Nodup := hchans.of_map
    have heq : first ++ b :: (last ++ rest) = (before ++ a :: mid) ++ b :: after := by
      rw [← List.cons_append, ← List.append_assoc, ← hsubs, hrest, hab]
      simp
    have hnotin : b ∉ first ∧ b ∉ last ++ rest := by
      rw [← hrest, hsubs, List.append_assoc, List.cons_append, List.nodup_middle,
        List.nodup_cons] at hnd
      exact not_or.mp fun hmem => hnd.1 (List.mem_append.mpr hmem)
    obtain ⟨hfirst, -, -⟩ := (List.append_cons_inj_of_notMem hnotin.1 hnotin.2).mp heq
    have hsplit : State.subscriptions acts
        = before ++ (a.1, a.2) :: (mid ++ (b.1, b.2) :: last) := by
      rw [hsubs, hfirst]
      simp
    exact hgood.later_suffix hsplit
  · have hnone : ∀ k v, .subscribe k v ∈ acts → chan v ≠ chan b.2 := by
      intro k v hmem heq
      have hsub := State.mem_subscriptions.mpr hmem
      have hclient : (k, v) ∈ clients := hrest ▸ List.mem_append_left rest hsub
      have hbmem : b ∈ clients := by
        rw [hab]
        simp
      exact hb (List.inj_on_of_nodup_map hchans hclient hbmem heq ▸ hsub)
    rw [(State.sent_of_not_holds (not_holds_empty chan _) hnone).2]
    exact List.nil_suffix

theorem Clients.later_readings (hc : Clients clients ls) (h : run step init ls = some s)
    {before mid after : List (ClientId × Senders)} {a b : ClientId × Senders}
    (hab : clients = before ++ a :: (mid ++ b :: after))
    (ha : (s.readings a.2.sensorReadings).closed = false)
    (hb : (s.readings b.2.sensorReadings).closed = false) :
    (s.readings b.2.sensorReadings).sent <:+ (s.readings a.2.sensorReadings).sent := by
  rw [(run_shows_readings h).2 _ ha, (run_shows_readings h).2 _ hb]
  exact later_isSuffix (hc.forGood_readings h) (hc.subscriptions h requestOf_readingActs).1
    hc.readings hab

theorem Clients.later_statuses (hc : Clients clients ls) (h : run step init ls = some s)
    {before mid after : List (ClientId × Senders)} {a b : ClientId × Senders}
    (hab : clients = before ++ a :: (mid ++ b :: after))
    (ha : (s.statuses a.2.nodeStatus).closed = false)
    (hb : (s.statuses b.2.nodeStatus).closed = false) :
    (s.statuses b.2.nodeStatus).sent <:+ (s.statuses a.2.nodeStatus).sent := by
  rw [(run_shows_statuses h).2 _ ha, (run_shows_statuses h).2 _ hb]
  exact later_isSuffix (hc.forGood_statuses h) (hc.subscriptions h requestOf_statusActs).1
    hc.statuses hab

/-- Where each client subscribes once, with channels of its own, and stays: what was sent is what a
client missed before its subscription was handled, and then what it has got on an open channel; any
open channel has got the end of what was sent; and what a later client has got on its open channels
is the end of what an earlier one has on its. -/
theorem later_gets_suffix (clients : List (ClientId × Senders)) (ls : List BrokerStep) (s : Broker)
    (h : run step init ls = some s) (hc : Clients clients ls) :
    (∀ c ∈ clients,
      ((s.readings c.2.sensorReadings).closed = false →
        published (outputs step readingActs init ls)
          = missed c.1 (outputs step readingActs init ls) ++ (s.readings c.2.sensorReadings).sent)
      ∧ ((s.statuses c.2.nodeStatus).closed = false →
        published (outputs step statusActs init ls)
          = missed c.1 (outputs step statusActs init ls) ++ (s.statuses c.2.nodeStatus).sent))
      ∧ (∀ ch, (s.readings ch).closed = false →
        (s.readings ch).sent <:+ published (outputs step readingActs init ls))
      ∧ (∀ ch, (s.statuses ch).closed = false →
        (s.statuses ch).sent <:+ published (outputs step statusActs init ls))
      ∧ ∀ before mid after a b, clients = before ++ a :: (mid ++ b :: after) →
        ((s.readings a.2.sensorReadings).closed = false →
          (s.readings b.2.sensorReadings).closed = false →
          (s.readings b.2.sensorReadings).sent <:+ (s.readings a.2.sensorReadings).sent)
        ∧ ((s.statuses a.2.nodeStatus).closed = false →
          (s.statuses b.2.nodeStatus).closed = false →
          (s.statuses b.2.nodeStatus).sent <:+ (s.statuses a.2.nodeStatus).sent) := by
  refine ⟨?_, ?_, ?_, ?_⟩
  · intro c hmem
    exact ⟨hc.readings_eq h hmem, hc.statuses_eq h hmem⟩
  · intro ch hopen
    rw [(run_shows_readings h).2 ch hopen]
    exact (hc.forGood_readings h).sent_suffix ch
  · intro ch hopen
    rw [(run_shows_statuses h).2 ch hopen]
    exact (hc.forGood_statuses h).sent_suffix ch
  · intro before mid after a b hab
    exact ⟨hc.later_readings h hab, hc.later_statuses h hab⟩

/-- A reading comes before the second client's subscription is handled, and one after. -/
def joinedRun : List BrokerStep :=
  [.request (.subscribe 1 ⟨0, 1⟩), .request (.subscribe 2 ⟨2, 3⟩), .stream,
    .place 0 (.sensorReading (reading 700)), .place 0 (.sensorReading (reading 701)),
    .forwardStream, .incoming [], .process 0, .process 0, .subscription, .data [(1, ⟨0, 1⟩)],
    .subscription, .data [(2, ⟨2, 3⟩), (1, ⟨0, 1⟩)]]

theorem suffix_joined : ∃ s, run step init joinedRun = some s
    ∧ (s.readings 2).sent = [reading 701]
    ∧ missed 2 (outputs step readingActs init joinedRun) = [reading 700]
    ∧ published (outputs step readingActs init joinedRun)
      = missed 2 (outputs step readingActs init joinedRun) ++ (s.readings 2).sent
    ∧ (s.readings 2).sent <:+ (s.readings 0).sent := by
  obtain ⟨s, hs, hopen, hopen', hsent⟩ : ∃ s, run step init joinedRun = some s
      ∧ (s.readings 0).closed = false ∧ (s.readings 2).closed = false
      ∧ (s.readings 2).sent = [reading 701] := ⟨_, rfl, rfl, rfl, rfl⟩
  have hc : Clients [(1, ⟨0, 1⟩), (2, ⟨2, 3⟩)] joinedRun :=
    ⟨List.prefix_rfl, by decide, by decide, by decide⟩
  obtain ⟨hmissed, -, -, hlater⟩ := later_gets_suffix _ joinedRun s hs hc
  exact ⟨s, hs, hsent, rfl, (hmissed (2, ⟨2, 3⟩) (by decide)).1 hopen',
    (hlater [] [] [] _ _ rfl).1 hopen hopen'⟩

end Broker

end Pmind
