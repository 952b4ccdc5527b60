import Mathlib.Data.List.Basic
import Mathlib.Data.List.Infix
import Pmind.Session

/-!
# What is on the way from the nodes to the clients

The sessions with the broker's channels left out: what is still on each session's stream, what waits
for the event loop, and what each client has been sent. A session's end is the last thing on its
stream, so it is in one place only until it is sent: on the stream, before the loop, or with the
clients. Registrations come to the loop in the order of the sessions.
-/

namespace Pmind

/-- An event on a stream: a reading, or the session's end. -/
inductive Item where
  | reading
  | ending (state : ErrorState)
deriving DecidableEq

@[ext]
structure Transit where
  opened : ℕ
  registered : ℕ
  forwarded : ℕ
  announced : ℕ
  ended : ℕ → Bool
  queue : ℕ → List Item
  events : List Sent
  readings : List ℕ
  subscribers : ClientId → Bool
  subscriptions : ClientId → Subscription
  endings : ℕ → Option ErrorState

namespace Transit

/-- Every client that is subscribed is sent `x`. -/
def sendAll (t : Transit) (x : Sent) : ClientId → Subscription := fun id =>
  if t.subscribers id then
    { t.subscriptions id with sent := (t.subscriptions id).sent ++ [x] }
  else t.subscriptions id

def counts : Sent → ℕ
  | .registration _ => 1
  | _ => 0

/-- A step, with what the event loop sends by it. -/
inductive Step (t : Transit) : Option Sent → Transit → Prop
  | quiet : Step t none t
  | opened (h : t.registered = t.opened) : Step t none { t with opened := t.opened + 1 }
  | registered (h : t.registered < t.opened) : Step t none
    { t with registered := t.registered + 1 }
  | placed {i} (h : t.ended i = false) : Step t none
    { t with queue := Function.update t.queue i (t.queue i ++ [.reading]) }
  | ended {i state} (h : t.ended i = false) : Step t none
    { t with
      ended := Function.update t.ended i true
      queue := Function.update t.queue i (t.queue i ++ [.ending state])
      endings := if i < t.registered then Function.update t.endings i (some state)
        else t.endings }
  | forwarded (h : t.forwarded < t.registered) : Step t none
    { t with
      forwarded := t.forwarded + 1
      events := t.events ++ [.registration t.forwarded] }
  | entered {i rest} (h : t.queue i = .reading :: rest) : Step t none
    { t with
      queue := Function.update t.queue i rest
      readings := t.readings ++ [i] }
  | arrived {i state rest} (h : t.queue i = .ending state :: rest) (hs : state ≠ .setupError) :
    Step t none
    { t with
      queue := Function.update t.queue i rest
      events := t.events ++ [.termination i state] }
  | dropped {i rest} (h : t.queue i = .ending .setupError :: rest) : Step t none
    { t with queue := Function.update t.queue i [] }
  | taken {x rest} (h : t.events = x :: rest) : Step t (some x)
    { t with
      announced := t.announced + counts x
      events := rest
      subscriptions := t.sendAll x }
  | read {i rest} (h : t.readings = i :: rest) : Step t (some (.reading i))
    { t with
      readings := rest
      subscriptions := t.sendAll (.reading i) }
  | subscribed {id} : Step t none
    { t with
      subscribers := Function.update t.subscribers id true
      subscriptions := Function.update t.subscriptions id ⟨t.opened, t.registered, []⟩ }
  | unsubscribed {id} : Step t none
    { t with subscribers := Function.update t.subscribers id false }

variable {t t' : Transit} {x : Option Sent}

theorem sendAll_sent (t : Transit) (y : Sent) (id : ClientId) :
    (t.sendAll y id).sent
      = (t.subscriptions id).sent ++ if t.subscribers id then [y] else [] := by
  unfold sendAll
  split_ifs
  · rfl
  · rw [List.append_nil]

@[simp] theorem mem_sendAll {y z : Sent} {id : ClientId} :
    z ∈ (t.sendAll y id).sent
      ↔ z ∈ (t.subscriptions id).sent ∨ (t.subscribers id = true ∧ z = y) := by
  rw [sendAll_sent]
  rcases t.subscribers id <;> simp

@[simp] theorem sendAll_streams (t : Transit) (y : Sent) (id : ClientId) :
    (t.sendAll y id).streams = (t.subscriptions id).streams := by
  unfold sendAll
  split_ifs <;> rfl

@[simp] theorem sendAll_registered (t : Transit) (y : Sent) (id : ClientId) :
    (t.sendAll y id).registered = (t.subscriptions id).registered := by
  unfold sendAll
  split_ifs <;> rfl

/-! ## The registrations -/

def registrationOf : Sent → Option ℕ
  | .registration i => some i
  | _ => none

/-- The registrations that wait are those after the last that the event loop took, in order, and
what a client has been sent of them is those taken since its subscription. -/
structure Registering (t : Transit) : Prop where
  announced_le : t.announced ≤ t.forwarded
  forwarded_le : t.forwarded ≤ t.registered
  registered_le : t.registered ≤ t.opened
  waiting : t.events.filterMap registrationOf
    = List.range' t.announced (t.forwarded - t.announced)
  since : ∀ id, (t.subscriptions id).registered ≤ (t.subscriptions id).streams
  sent : ∀ id, t.subscribers id = true → ∀ i, (t.subscriptions id).registered ≤ i →
    (.registration i ∈ (t.subscriptions id).sent ↔ i < t.announced)

/-- Of the registrations that wait, the first is that of the next session. -/
theorem waiting_cons {i announced forwarded : ℕ} {is : List ℕ}
    (h : i :: is = List.range' announced (forwarded - announced)) :
    i = announced ∧ announced < forwarded
      ∧ is = List.range' (announced + 1) (forwarded - (announced + 1)) := by
  rcases hn : forwarded - announced with _ | n <;> rw [hn] at h
  · cases h
  · rw [List.range'_succ, List.cons.injEq] at h
    have hsub : forwarded - (announced + 1) = n := by omega
    exact ⟨h.1, by omega, hsub.symm ▸ h.2⟩

theorem registering_step (h : t.Registering) (hs : Step t x t') : t'.Registering := by
  obtain ⟨hann, hfwd, hreg, hwait, hsince, hsent⟩ := h
  cases hs with
  | opened => exact ⟨hann, hfwd, hreg.trans (Nat.le_succ _), hwait, hsince, hsent⟩
  | registered h => exact ⟨hann, hfwd.trans (Nat.le_succ _), h, hwait, hsince, hsent⟩
  | forwarded h =>
    refine ⟨hann.trans (Nat.le_succ _), h, hreg, ?_, hsince, hsent⟩
    rw [List.filterMap_append, hwait, Nat.sub_add_comm hann, List.range'_concat]
    simp [registrationOf, Nat.add_sub_cancel' hann]
  | arrived =>
    refine ⟨hann, hfwd, hreg, ?_, hsince, hsent⟩
    simpa [List.filterMap_cons, registrationOf] using hwait
  | @taken y rest hy =>
    rw [hy, List.filterMap_cons] at hwait
    rcases y with k | k | ⟨k, state⟩
    · obtain ⟨rfl, hlt, hrest⟩ := waiting_cons hwait
      refine ⟨hlt, hfwd, hreg, hrest, fun id => by simpa using hsince id, fun id hid i hi => ?_⟩
      simp only [sendAll_registered] at hi
      simp only [mem_sendAll, hsent id hid i hi, Sent.registration.injEq, counts]
      rw [Nat.lt_succ_iff_lt_or_eq, and_iff_right hid]
    · refine ⟨hann, hfwd, hreg, hwait, fun id => by simpa using hsince id, fun id hid i hi => ?_⟩
      simpa [counts] using hsent id hid i (by simpa using hi)
    · refine ⟨hann, hfwd, hreg, hwait, fun id => by simpa using hsince id, fun id hid i hi => ?_⟩
      simpa [counts] using hsent id hid i (by simpa using hi)
  | read =>
    refine ⟨hann, hfwd, hreg, hwait, fun id => by simpa using hsince id, fun id hid i hi => ?_⟩
    simpa using hsent id hid i (by simpa using hi)
  | subscribed =>
    refine ⟨hann, hfwd, hreg, hwait, fun id => ?_, fun id hid i hi => ?_⟩
    · simp only [Function.update_apply]
      split_ifs
      · exact hreg
      · exact hsince id
    · simp only [Function.update_apply] at hid hi ⊢
      split_ifs at hid hi ⊢
      · simp only [List.not_mem_nil, false_iff, not_lt]
        exact hann.trans (hfwd.trans hi)
      · exact hsent id hid i hi
  | unsubscribed =>
    refine ⟨hann, hfwd, hreg, hwait, hsince, fun id hid i hi => ?_⟩
    simp only [Function.update_apply] at hid
    split_ifs at hid
    exact hsent id hid i hi
  | _ => exact ⟨hann, hfwd, hreg, hwait, hsince, hsent⟩

/-! ## The ends -/

/-- Nothing of the session's end has left its stream. -/
def Silent (t : Transit) (i : ℕ) : Prop :=
  ∀ state, .termination i state ∉ t.events
    ∧ ∀ id, t.subscribers id = true → .termination i state ∉ (t.subscriptions id).sent

/-- The end of a session is the last on its stream, and leaves it last. -/
structure Ending (t : Transit) : Prop where
  last : ∀ i pre state post, t.queue i = pre ++ .ending state :: post →
    post = [] ∧ t.ended i = true
  silent : ∀ i, t.ended i = false ∨ t.queue i ≠ [] → t.Silent i
  noReading : ∀ i, .reading i ∉ t.events

theorem ended_step {i : ℕ} (h : t.ended i = true) (hs : Step t x t') : t'.ended i = true := by
  cases hs with
  | ended =>
    simp only [Function.update_apply]
    split_ifs
    · rfl
    · exact h
  | _ => exact h

/-- A session that has ended and has nothing on its stream stays so. -/
theorem finished_step {i : ℕ} (h : t.ended i = true) (hq : t.queue i = []) (hs : Step t x t') :
    t'.queue i = [] := by
  cases hs with
  | @placed j hj | @ended j _ hj =>
    have hne : i ≠ j := by
      rintro rfl
      rw [h] at hj
      cases hj
    simpa [hne] using hq
  | @entered j _ hj | @arrived j _ _ hj _ | @dropped j _ hj =>
    have hne : i ≠ j := by
      rintro rfl
      rw [hq] at hj
      cases hj
    simpa [hne] using hq
  | _ => exact hq

theorem last_update {i : ℕ} {items : List Item} {ended : ℕ → Bool}
    (h : ∀ i pre state post, t.queue i = pre ++ .ending state :: post →
      post = [] ∧ t.ended i = true)
    (hended : ∀ j, t.ended j = true → ended j = true)
    (hitems : ∀ pre state post, items = pre ++ .ending state :: post →
      post = [] ∧ ended i = true) :
    ∀ j pre state post, Function.update t.queue i items j = pre ++ .ending state :: post →
      post = [] ∧ ended j = true := by
  intro j pre state post hj
  simp only [Function.update_apply] at hj
  split_ifs at hj with heq
  · rw [heq]
    exact hitems pre state post hj
  · exact (h j pre state post hj).imp_right (hended j)

theorem concat_eq {α : Type*} {l pre post : List α} {a b : α} (h : l ++ [a] = pre ++ b :: post) :
    (post = [] ∧ a = b) ∨ ∃ post', l = pre ++ b :: post' := by
  rcases List.eq_nil_or_concat' post with rfl | ⟨post', c, rfl⟩
  · exact Or.inl ⟨rfl, List.singleton_inj.mp (List.append_inj' h rfl).2⟩
  · have hl : l ++ [a] = (pre ++ b :: post') ++ [c] := by simpa using h
    exact Or.inr ⟨post', (List.append_inj' hl rfl).1⟩

theorem last_step (h : ∀ i pre state post, t.queue i = pre ++ .ending state :: post →
      post = [] ∧ t.ended i = true) (hs : Step t x t') :
    ∀ i pre state post, t'.queue i = pre ++ .ending state :: post →
      post = [] ∧ t'.ended i = true := by
  cases hs with
  | @placed i hi =>
    refine last_update h (fun _ hj => hj) fun pre state post hq => ?_
    rcases concat_eq hq with ⟨-, hne⟩ | ⟨post', hq⟩
    · cases hne
    · exact absurd (h i pre state post' hq).2 (by simp [hi])
  | @ended i state hi =>
    refine last_update h (fun j hj => ?_) fun pre state' post hq => ?_
    · simp only [Function.update_apply]
      split_ifs
      · rfl
      · exact hj
    · rcases concat_eq hq with ⟨hpost, -⟩ | ⟨post', hq⟩
      · exact ⟨hpost, Function.update_self ..⟩
      · exact absurd (h i pre state' post' hq).2 (by simp [hi])
  | @entered i rest hq =>
    refine last_update h (fun _ hj => hj) fun pre state post hrest => ?_
    exact h i (.reading :: pre) state post (by rw [hq, hrest]; rfl)
  | @arrived i state rest hq =>
    refine last_update h (fun _ hj => hj) fun pre state' post hrest => ?_
    exact h i (.ending state :: pre) state' post (by rw [hq, hrest]; rfl)
  | dropped =>
    refine last_update h (fun _ hj => hj) fun pre state post hnil => ?_
    simp at hnil
  | _ => exact h

theorem Silent.of_subset {i : ℕ} (h : t.Silent i)
    (hevents : ∀ state, .termination i state ∈ t'.events → .termination i state ∈ t.events)
    (hsent : ∀ id state, t'.subscribers id = true →
      .termination i state ∈ (t'.subscriptions id).sent →
        .termination i state ∈ t.events
          ∨ (t.subscribers id = true ∧ .termination i state ∈ (t.subscriptions id).sent)) :
    t'.Silent i := by
  intro state
  refine ⟨fun he => (h state).1 (hevents state he), fun id hid he => ?_⟩
  rcases hsent id state hid he with he | ⟨hid, he⟩
  · exact (h state).1 he
  · exact (h state).2 id hid he

/-- A session is silent until its end is taken off its stream. -/
theorem silent_step {i : ℕ} (h : t.Silent i) (hs : Step t x t') :
    t'.Silent i ∨ ∃ state rest, t.queue i = .ending state :: rest ∧ t'.queue i = rest := by
  cases hs with
  | forwarded =>
    refine Or.inl (h.of_subset (fun state he => ?_) fun id state hid he => Or.inr ⟨hid, he⟩)
    simpa using he
  | @arrived j state rest hq =>
    by_cases hij : i = j
    · subst hij
      exact Or.inr ⟨state, rest, hq, Function.update_self ..⟩
    · refine Or.inl (h.of_subset (fun state' he => ?_) fun id state hid he => Or.inr ⟨hid, he⟩)
      simpa [hij] using he
  | @taken y rest hy =>
    refine Or.inl (h.of_subset (fun state he => ?_) fun id state hid he => ?_)
    · rw [hy]
      exact List.mem_cons_of_mem _ he
    · rcases mem_sendAll.mp he with he | ⟨-, he⟩
      · exact Or.inr ⟨hid, he⟩
      · rw [hy, he]
        exact Or.inl List.mem_cons_self
  | read =>
    refine Or.inl (h.of_subset (fun state he => he) fun id state hid he => ?_)
    rcases mem_sendAll.mp he with he | ⟨-, he⟩
    · exact Or.inr ⟨hid, he⟩
    · cases he
  | subscribed =>
    refine Or.inl (h.of_subset (fun state he => he) fun id state hid he => ?_)
    simp only [Function.update_apply] at hid he
    split_ifs at hid he
    · cases he
    · exact Or.inr ⟨hid, he⟩
  | unsubscribed =>
    refine Or.inl (h.of_subset (fun state he => he) fun id state hid he => ?_)
    simp only [Function.update_apply] at hid
    split_ifs at hid
    exact Or.inr ⟨hid, he⟩
  | _ => exact Or.inl h

theorem noReading_step (h : ∀ i, .reading i ∉ t.events) (hs : Step t x t') :
    ∀ i, .reading i ∉ t'.events := by
  intro i
  cases hs with
  | forwarded | arrived => simpa using h i
  | taken hy => exact fun hi => h i (hy ▸ List.mem_cons_of_mem _ hi)
  | _ => exact h i

theorem ending_step (h : t.Ending) (hs : Step t x t') : t'.Ending := by
  refine ⟨last_step h.last hs, fun i hi => ?_, noReading_step h.noReading hs⟩
  have hopen : t.ended i = false ∨ t.queue i ≠ [] := by
    by_contra hdone
    rw [not_or, Bool.not_eq_false, not_not] at hdone
    rcases hi with hi | hi
    · rw [ended_step hdone.1 hs] at hi
      cases hi
    · exact hi (finished_step hdone.1 hdone.2 hs)
  rcases silent_step (h.silent i hopen) hs with hsilent | ⟨state, rest, hq, hq'⟩
  · exact hsilent
  · -- what is taken off the stream is the last on it
    obtain ⟨rfl, hended⟩ := h.last i [] state rest hq
    rcases hi with hi | hi
    · rw [ended_step hended hs] at hi
      cases hi
    · exact absurd hq' hi

/-! ## Where the end of a session is -/

def endsOf (i : ℕ) (l : List Sent) : List ErrorState :=
  l.filterMap fun
    | .termination j state => if j = i then some state else none
    | _ => none

/-- What is reported of an end: a stream that could not be set up is only closed. -/
def reported : ErrorState → List ErrorState
  | .setupError => []
  | state => [state]

def endsIn (l : List Item) : List ErrorState :=
  l.flatMap fun
    | .reading => []
    | .ending state => reported state

/-- What is to be reported of a session's end is reported, or before the event loop, or on the
session's stream, for every client that subscribed before the session was registered. -/
def Conserved (t : Transit) : Prop :=
  ∀ i state, t.endings i = some state → i < t.registered ∧ t.ended i = true
    ∧ ∀ id, t.subscribers id = true → (t.subscriptions id).registered ≤ i →
      endsOf i (t.subscriptions id).sent ++ endsOf i t.events ++ endsIn (t.queue i)
        = reported state

@[simp] theorem endsOf_append (i : ℕ) (l l' : List Sent) :
    endsOf i (l ++ l') = endsOf i l ++ endsOf i l' := List.filterMap_append

@[simp] theorem endsIn_append (l l' : List Item) : endsIn (l ++ l') = endsIn l ++ endsIn l' :=
  List.flatMap_append

theorem reported_of_ne {state : ErrorState} (h : state ≠ .setupError) :
    reported state = [state] := by
  rcases state <;> first | rfl | exact absurd rfl h

theorem endsOf_eq_nil {i : ℕ} {l : List Sent} (h : ∀ state, .termination i state ∉ l) :
    endsOf i l = [] := by
  refine List.filterMap_eq_nil_iff.mpr fun y hy => ?_
  rcases y with k | k | ⟨k, state⟩
  · rfl
  · rfl
  · simp only [ite_eq_right_iff, reduceCtorEq, imp_false]
    rintro rfl
    exact h state hy

theorem endsIn_eq_nil {l : List Item} (h : ∀ state, .ending state ∉ l) : endsIn l = [] := by
  refine List.flatMap_eq_nil_iff.mpr fun y hy => ?_
  rcases y with _ | state
  · rfl
  · exact absurd hy (h state)

theorem Ending.endsIn_queue (h : t.Ending) {i : ℕ} (hi : t.ended i = false) :
    endsIn (t.queue i) = [] := by
  refine endsIn_eq_nil fun state hmem => ?_
  obtain ⟨pre, post, hq⟩ := List.append_of_mem hmem
  rw [(h.last i pre state post hq).2] at hi
  cases hi

theorem conserved_ended (hend : t.Ending) (h : t.Conserved) {j : ℕ} {state' : ErrorState}
    (hj : t.ended j = false) : Conserved
    { t with
      ended := Function.update t.ended j true
      queue := Function.update t.queue j (t.queue j ++ [.ending state'])
      endings := if j < t.registered then Function.update t.endings j (some state')
        else t.endings } := by
  intro i state hi
  by_cases hij : i = j
  · subst hij
    have hnone : t.endings i = none := by
      rcases hsome : t.endings i with _ | state''
      · rfl
      · rw [(h i state'' hsome).2.1] at hj
        cases hj
    simp only [] at hi
    split_ifs at hi with hlt
    · rw [Function.update_self, Option.some.injEq] at hi
      subst hi
      refine ⟨hlt, Function.update_self .., fun id hid hreg => ?_⟩
      have hsilent := hend.silent i (Or.inl hj)
      simp only [Function.update_self, endsIn_append, hend.endsIn_queue hj, List.nil_append]
      rw [endsOf_eq_nil fun state => (hsilent state).1,
        endsOf_eq_nil fun state => (hsilent state).2 id hid]
      simp [endsIn]
    · rw [hnone] at hi
      cases hi
  · have hi' : t.endings i = some state := by
      simp only [] at hi
      split_ifs at hi
      · rwa [Function.update_of_ne hij] at hi
      · exact hi
    simpa [hij] using h i state hi'

theorem conserved_step (hend : t.Ending) (h : t.Conserved) (hs : Step t x t') : t'.Conserved := by
  cases hs with
  | ended hj => exact conserved_ended hend h hj
  | quiet | opened => exact h
  | registered =>
    intro i state hi
    exact ⟨Nat.lt_succ_of_lt (h i state hi).1, (h i state hi).2⟩
  | @placed j hj =>
    intro i state hi
    have hne : i ≠ j := by
      rintro rfl
      simp [(h i state hi).2.1] at hj
    simpa [hne] using h i state hi
  | forwarded =>
    intro i state hi
    simpa [endsOf] using h i state hi
  | @entered j rest hq =>
    intro i state hi
    by_cases hij : i = j
    · simpa [hij, hq, endsIn] using h i state hi
    · simpa [hij] using h i state hi
  | @arrived j state' rest hq hne =>
    intro i state hi
    by_cases hij : i = j
    · subst hij
      simpa [hq, endsIn, endsOf, reported_of_ne hne] using h i state hi
    · simpa [hij, Ne.symm hij, endsOf] using h i state hi
  | @dropped j rest hq =>
    intro i state hi
    by_cases hij : i = j
    · subst hij
      obtain ⟨rfl, -⟩ := hend.last i [] _ rest hq
      simpa [hq, endsIn, reported] using h i state hi
    · simpa [hij] using h i state hi
  | @taken y rest hy =>
    intro i state hi
    obtain ⟨hlt, hended, hids⟩ := h i state hi
    refine ⟨hlt, hended, fun id hid hreg => ?_⟩
    rw [sendAll_registered] at hreg
    rw [← hids id hid hreg, hy, sendAll_sent, if_pos hid, endsOf_append, List.append_assoc _ _
      (endsOf i rest), ← endsOf_append, List.singleton_append]
  | @read j rest hr =>
    intro i state hi
    obtain ⟨hlt, hended, hids⟩ := h i state hi
    refine ⟨hlt, hended, fun id hid hreg => ?_⟩
    rw [sendAll_registered] at hreg
    rw [← hids id hid hreg, sendAll_sent, if_pos hid, endsOf_append]
    simp [endsOf]
  | subscribed =>
    intro i state hi
    obtain ⟨hlt, hended, hids⟩ := h i state hi
    refine ⟨hlt, hended, fun id hid hreg => ?_⟩
    simp only [Function.update_apply] at hid hreg ⊢
    split_ifs at hid hreg ⊢
    · exact absurd hlt (Nat.not_lt.mpr hreg)
    · exact hids id hid hreg
  | unsubscribed =>
    intro i state hi
    obtain ⟨hlt, hended, hids⟩ := h i state hi
    refine ⟨hlt, hended, fun id hid hreg => ?_⟩
    simp only [Function.update_apply] at hid
    split_ifs at hid
    exact hids id hid hreg

/-! ## The order in which a client is sent a session -/

/-- The readings of a session come after its registration and before its termination. -/
def Ordered (i : ℕ) (l : List Sent) : Prop :=
  ∀ pre, pre ++ [.reading i] <+: l →
    .registration i ∈ pre ∧ ∀ state, .termination i state ∉ pre

theorem ordered_concat {i : ℕ} {l : List Sent} {y : Sent} :
    Ordered i (l ++ [y]) ↔ Ordered i l ∧
      (y = .reading i → .registration i ∈ l ∧ ∀ state, .termination i state ∉ l) := by
  simp only [Ordered, List.prefix_concat_iff]
  refine ⟨?_, ?_⟩
  · intro h
    refine ⟨fun pre hpre => h pre (Or.inr hpre), ?_⟩
    rintro rfl
    exact h l (Or.inl rfl)
  · rintro ⟨h, hy⟩ pre (heq | hpre)
    · obtain ⟨rfl, hlast⟩ := List.append_inj' heq rfl
      exact hy (List.singleton_inj.mp hlast).symm
    · exact h pre hpre

/-- Some client has been subscribed since before the session's stream was handed over. -/
def Followed (t : Transit) (i : ℕ) : Prop :=
  ∃ id, t.subscribers id = true ∧ (t.subscriptions id).streams ≤ i

/-- Every client is sent the sessions it follows in order, and no reading of a session waits for it
that has been terminated. -/
def InOrder (t : Transit) : Prop :=
  ∀ id, t.subscribers id = true → ∀ i, (t.subscriptions id).streams ≤ i →
    Ordered i (t.subscriptions id).sent
      ∧ ∀ state, .termination i state ∈ (t.subscriptions id).sent → i ∉ t.readings

/-- A reading is sent if the registration has been, and a termination if no reading waits. -/
def InTurn (t : Transit) : Option Sent → Prop
  | some (.reading i) => t.Followed i → i < t.announced
  | some (.termination i _) => t.Followed i → i ∉ t.readings
  | _ => True

theorem inOrder_read (hreg : t.Registering) (h : t.InOrder) {i : ℕ} {rest : List ℕ}
    (hr : t.readings = i :: rest) :
    InOrder { t with readings := rest, subscriptions := t.sendAll (.reading i) }
      ↔ t.InTurn (some (.reading i)) := by
  refine ⟨?_, ?_⟩
  · rintro h' ⟨id, hid, hi⟩
    have hordered := (h' id hid i (by simpa using hi)).1
    simp only [sendAll_sent, hid, if_true, ordered_concat] at hordered
    exact (hreg.sent id hid i ((hreg.since id).trans hi)).mp (hordered.2 trivial).1
  · intro hturn id hid j hj
    simp only [sendAll_streams] at hj
    obtain ⟨hordered, hnot⟩ := h id hid j hj
    rw [hr] at hnot
    simp only [sendAll_sent, (show t.subscribers id = true from hid), if_true, ordered_concat]
    refine ⟨⟨hordered, ?_⟩, fun state hmem => ?_⟩
    · rintro heq
      cases heq
      refine ⟨(hreg.sent id hid i ((hreg.since id).trans hj)).mpr (hturn ⟨id, hid, hj⟩), ?_⟩
      exact fun state hmem => hnot state hmem List.mem_cons_self
    · have hmem : .termination j state ∈ (t.subscriptions id).sent := by simpa using hmem
      exact fun hrest => hnot state hmem (List.mem_cons_of_mem _ hrest)

theorem inOrder_taken (h : t.InOrder) {y : Sent} {rest : List Sent} {announced : ℕ}
    (hy : ∀ i, y ≠ .reading i) :
    InOrder { t with announced, events := rest, subscriptions := t.sendAll y }
      ↔ t.InTurn (some y) := by
  have hordered : ∀ id i, Ordered i (t.sendAll y id).sent ↔ Ordered i (t.subscriptions id).sent :=
    fun id i => by
      rw [sendAll_sent]
      rcases t.subscribers id
      · simp
      · simp [ordered_concat, hy i]
  refine ⟨?_, ?_⟩
  · intro h'
    rcases y with k | k | ⟨k, state⟩
    · trivial
    · exact absurd rfl (hy k)
    · rintro ⟨id, hid, hk⟩
      exact (h' id hid k (by simpa using hk)).2 state (mem_sendAll.mpr (Or.inr ⟨hid, rfl⟩))
  · intro hturn id hid i hi
    simp only [sendAll_streams] at hi
    refine ⟨(hordered id i).mpr (h id hid i hi).1, fun state hmem => ?_⟩
    rcases mem_sendAll.mp hmem with hmem | ⟨-, rfl⟩
    · exact (h id hid i hi).2 state hmem
    · exact hturn ⟨id, hid, hi⟩

theorem inOrder_step (hreg : t.Registering) (hend : t.Ending) (h : t.InOrder)
    (hs : Step t x t') : t'.InOrder ↔ t.InTurn x := by
  cases hs with
  | read hr => exact inOrder_read hreg h hr
  | @taken y rest hy =>
    refine inOrder_taken h ?_
    rintro i rfl
    exact hend.noReading i (hy ▸ List.mem_cons_self)
  | @entered i rest hq =>
    refine iff_of_true (fun id hid j hj => ?_) trivial
    refine ⟨(h id hid j hj).1, fun state hmem hwaits => ?_⟩
    rcases List.mem_append.mp hwaits with hwaits | hwaits
    · exact (h id hid j hj).2 state hmem hwaits
    · -- its stream is not empty, so its end is still there
      obtain rfl := List.mem_singleton.mp hwaits
      have hsilent := hend.silent j (Or.inr (by simp [hq]))
      exact (hsilent state).2 id hid hmem
  | subscribed =>
    refine iff_of_true (fun id hid i hi => ?_) trivial
    simp only [Function.update_apply] at hid hi ⊢
    split_ifs at hid hi ⊢
    · exact ⟨fun pre hpre => by simp at hpre, nofun⟩
    · exact h id hid i hi
  | unsubscribed =>
    refine iff_of_true (fun id hid i hi => ?_) trivial
    simp only [Function.update_apply] at hid
    split_ifs at hid
    exact h id hid i hi
  | _ => exact iff_of_true h trivial

end Transit

end Pmind
