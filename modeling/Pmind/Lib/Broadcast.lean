import Mathlib.Data.List.TakeWhile
import Pmind.Lib.HashMap

/-!
# Broadcasting to subscribers

Subscribers come and go under keys, each with a value that names the channel it listens to, and
what is published goes to the channel of each. A channel that one subscription alone brought gets
what is published from that subscription to the next one, or the end of it, under its key
(`sent_after`), whatever happens under other keys. Where all subscribe for good, who comes later
gets the end of what those before get (`ForGood.later_suffix`).
-/

namespace Broadcast

open HashMap

variable {K V β μ : Type*}

inductive Act (K V μ : Type*) where
  | subscribe (k : K) (v : V)
  | unsubscribe (k : K)
  | publish (m : μ)

def published (acts : List (Act K V μ)) : List μ :=
  acts.filterMap fun
    | .publish m => some m
    | _ => none

theorem published_append (acts acts' : List (Act K V μ)) :
    published (acts ++ acts') = published acts ++ published acts' :=
  List.filterMap_append

section Step

variable [DecidableEq K] [DecidableEq β] (chan : V → β)

/-- The act ends a subscription under the key, or renews it. -/
def Act.isAbout (k : K) : Act K V μ → Bool
  | .subscribe k' _ => k' = k
  | .unsubscribe k' => k' = k
  | .publish _ => false

/-- What is published before the first act about a key. -/
def missed (k : K) (acts : List (Act K V μ)) : List μ :=
  published (acts.takeWhile fun a => !a.isAbout k)

structure State (K V β μ : Type*) where
  subscribers : HashMap K V
  sent : β → List μ

namespace State

def init : State K V β μ := ⟨∅, fun _ => []⟩

/-- A channel gets what is published once for each subscriber that listens to it. -/
def step (s : State K V β μ) : Act K V μ → State K V β μ
  | .subscribe k v => { s with subscribers := s.subscribers.insert k v }
  | .unsubscribe k => { s with subscribers := s.subscribers.erase k }
  | .publish m => { s with
    sent := fun b => s.sent b ++ List.replicate (count chan s.subscribers b) m }

def after (s : State K V β μ) (acts : List (Act K V μ)) : State K V β μ :=
  acts.foldl (step chan) s

@[simp] theorem after_nil (s : State K V β μ) : s.after chan [] = s := rfl

theorem after_cons (s : State K V β μ) (a : Act K V μ) (acts : List (Act K V μ)) :
    s.after chan (a :: acts) = (s.step chan a).after chan acts := rfl

theorem after_append (s : State K V β μ) (acts acts' : List (Act K V μ)) :
    s.after chan (acts ++ acts') = (s.after chan acts).after chan acts' :=
  List.foldl_append

variable {chan} {s : State K V β μ} {b : β}

theorem not_holds_step {a : Act K V μ} (h : ¬ Holds chan s.subscribers b)
    (ha : ∀ k v, a = .subscribe k v → chan v ≠ b) :
    ¬ Holds chan (s.step chan a).subscribers b ∧ (s.step chan a).sent b = s.sent b := by
  rcases a with ⟨k, v⟩ | k | m
  · exact ⟨fun hh => hh.of_insert.elim (ha k v rfl) h, rfl⟩
  · refine ⟨?_, rfl⟩
    rintro ⟨k', v, hl, hv⟩
    simp only [step, lookup_erase_eq] at hl
    split_ifs at hl
    exact h ⟨k', v, hl, hv⟩
  · refine ⟨h, ?_⟩
    simp only [step, count_eq_zero h, List.replicate_zero, List.append_nil]

/-- A channel nobody listens to gets nothing, as long as no one subscribes with it. -/
theorem sent_of_not_holds : ∀ {acts : List (Act K V μ)} {s : State K V β μ},
    ¬ Holds chan s.subscribers b → (∀ k v, .subscribe k v ∈ acts → chan v ≠ b) →
      ¬ Holds chan (s.after chan acts).subscribers b ∧ (s.after chan acts).sent b = s.sent b
  | [], _, h, _ => ⟨h, rfl⟩
  | a :: acts, s, h, hacts => by
    obtain ⟨hh, hs⟩ := not_holds_step h fun k v ha => hacts k v (ha ▸ List.mem_cons_self)
    obtain ⟨hh', hs'⟩ :=
      sent_of_not_holds hh fun k v hm => hacts k v (List.mem_cons_of_mem _ hm)
    rw [after_cons]
    exact ⟨hh', hs'.trans hs⟩

def Alone (chan : V → β) (m : HashMap K V) (k : K) (b : β) : Prop :=
  (∃ v, m.lookup k = some v ∧ chan v = b)
    ∧ ∀ k' v', m.lookup k' = some v' → chan v' = b → k' = k

omit [DecidableEq β] in
theorem Alone.insert {m : HashMap K V} {k : K} {v : V} (h : ¬ Holds chan m (chan v)) :
    Alone chan (m.insert k v) k (chan v) := by
  refine ⟨⟨v, Finmap.lookup_insert m, rfl⟩, fun k' v' hl hv => ?_⟩
  rw [lookup_insert_eq] at hl
  split_ifs at hl with heq
  · exact heq
  · exact absurd ⟨k', v', hl, hv⟩ h

/-- Until an act about its key, the channel gets each message once; the act ends that. -/
theorem alone_step {k : K} {a : Act K V μ} (h : Alone chan s.subscribers k b)
    (ha : ∀ k' v, a = .subscribe k' v → chan v ≠ b) :
    (s.step chan a).sent b = s.sent b ++ published [a]
      ∧ (a.isAbout k = true → ¬ Holds chan (s.step chan a).subscribers b)
      ∧ (a.isAbout k = false → Alone chan (s.step chan a).subscribers k b) := by
  obtain ⟨⟨v, hk, rfl⟩, honly⟩ := h
  rcases a with ⟨k', v'⟩ | k' | m
  · refine ⟨by simp [step, published], ?_, ?_⟩
    · intro heq
      simp only [Act.isAbout, decide_eq_true_eq] at heq
      rintro ⟨k₁, v₁, hl, hv⟩
      simp only [step, lookup_insert_eq] at hl
      split_ifs at hl with hk₁
      · cases hl
        exact ha k' v' rfl hv
      · exact hk₁ ((honly k₁ v₁ hl hv).trans heq.symm)
    · intro hne
      simp only [Act.isAbout, decide_eq_false_iff_not] at hne
      refine ⟨⟨v, ?_, rfl⟩, ?_⟩
      · simp only [step, lookup_insert_eq, if_neg (Ne.symm hne), hk]
      · intro k₁ v₁ hl hv
        simp only [step, lookup_insert_eq] at hl
        split_ifs at hl with hk₁
        · cases hl
          exact absurd hv (ha k' v' rfl)
        · exact honly k₁ v₁ hl hv
  · refine ⟨by simp [step, published], ?_, ?_⟩
    · intro heq
      simp only [Act.isAbout, decide_eq_true_eq] at heq
      rintro ⟨k₁, v₁, hl, hv⟩
      simp only [step, lookup_erase_eq] at hl
      split_ifs at hl with hk₁
      exact hk₁ ((honly k₁ v₁ hl hv).trans heq.symm)
    · intro hne
      simp only [Act.isAbout, decide_eq_false_iff_not] at hne
      refine ⟨⟨v, ?_, rfl⟩, ?_⟩
      · simp only [step, lookup_erase_eq, if_neg (Ne.symm hne), hk]
      · intro k₁ v₁ hl hv
        simp only [step, lookup_erase_eq] at hl
        split_ifs at hl
        exact honly k₁ v₁ hl hv
  · refine ⟨?_, fun heq => by simp [Act.isAbout] at heq, fun _ => ⟨⟨v, hk, rfl⟩, honly⟩⟩
    simp only [step, count_eq_one hk honly]
    rfl

theorem sent_of_alone {k : K} : ∀ {acts : List (Act K V μ)} {s : State K V β μ},
    Alone chan s.subscribers k b → (∀ k' v, .subscribe k' v ∈ acts → chan v ≠ b) →
      (s.after chan acts).sent b =
        s.sent b ++ published (acts.takeWhile fun a => !a.isAbout k)
  | [], s, _, _ => by simp [published]
  | a :: acts, s, h, hacts => by
    have ha : ∀ k' v, a = .subscribe k' v → chan v ≠ b := fun k' v heq =>
      hacts k' v (heq ▸ List.mem_cons_self)
    have hacts' : ∀ k' v, .subscribe k' v ∈ acts → chan v ≠ b := fun k' v hm =>
      hacts k' v (List.mem_cons_of_mem _ hm)
    obtain ⟨hsent, hend, hon⟩ := alone_step h ha
    rw [after_cons]
    cases hab : a.isAbout k with
    | true =>
      have hnil : published [a] = ([] : List μ) := by
        rcases a with ⟨k', v'⟩ | k' | m
        · rfl
        · rfl
        · simp [Act.isAbout] at hab
      rw [(sent_of_not_holds (hend hab) hacts').2, hsent, hnil, List.takeWhile_cons]
      simp [hab, published]
    | false =>
      rw [sent_of_alone (hon hab) hacts', hsent, List.takeWhile_cons]
      simp only [hab, Bool.not_false, if_true, List.append_assoc]
      rw [← published_append, List.singleton_append]

/-- A channel that one subscription alone brought gets what is published until the next act about
the subscription's key, once and in order, and nothing else. -/
theorem sent_after {pre post : List (Act K V μ)} {k : K} {v : V}
    (hv : ∀ k' v', .subscribe k' v' ∈ pre ++ post → chan v' ≠ chan v) :
    ((init : State K V β μ).after chan (pre ++ .subscribe k v :: post)).sent (chan v) =
      published (post.takeWhile fun a => !a.isAbout k) := by
  have hnone : ¬ Holds chan (init : State K V β μ).subscribers (chan v) := not_holds_empty chan _
  have hpre := sent_of_not_holds hnone fun k' v' hm => hv k' v' (List.mem_append_left post hm)
  rw [after_append, after_cons, sent_of_alone (Alone.insert hpre.1) fun k' v' hm =>
    hv k' v' (List.mem_append_right _ hm)]
  simp only [step, hpre.2]
  rfl

/-- A subscriber's subscription is among the acts. -/
theorem subscribe_of_lookup {k : K} {v : V} : ∀ {acts : List (Act K V μ)} {s : State K V β μ},
    (s.after chan acts).subscribers.lookup k = some v →
      s.subscribers.lookup k = some v ∨ .subscribe k v ∈ acts
  | [], s, h => Or.inl h
  | a :: acts, s, h => by
    rcases subscribe_of_lookup (s := s.step chan a) h with h | h
    · rcases a with ⟨k', v'⟩ | k' | m
      · simp only [step, lookup_insert_eq] at h
        split_ifs at h with hk
        · cases h
          exact Or.inr (hk ▸ List.mem_cons_self)
        · exact Or.inl h
      · simp only [step, lookup_erase_eq] at h
        split_ifs at h
        exact Or.inl h
      · exact Or.inl h
    · exact Or.inr (List.mem_cons_of_mem _ h)

/-! ### Subscriptions for good -/

/-- The subscriptions, in order. -/
def subscriptions (acts : List (Act K V μ)) : List (K × V) :=
  acts.filterMap fun
    | .subscribe k v => some (k, v)
    | _ => none

omit [DecidableEq K] [DecidableEq β] in
theorem subscriptions_append (acts acts' : List (Act K V μ)) :
    subscriptions (acts ++ acts') = subscriptions acts ++ subscriptions acts' :=
  List.filterMap_append

omit [DecidableEq K] [DecidableEq β] in
theorem mem_subscriptions {acts : List (Act K V μ)} {k : K} {v : V} :
    (k, v) ∈ subscriptions acts ↔ .subscribe k v ∈ acts := by
  unfold subscriptions
  rw [List.mem_filterMap]
  constructor
  · rintro ⟨a, ha, hkv⟩
    rcases a with ⟨k', v'⟩ | k' | m
    · cases hkv
      exact ha
    · cases hkv
    · cases hkv
  · exact fun h => ⟨_, h, rfl⟩

omit [DecidableEq K] [DecidableEq β] in
theorem subscriptions_eq_append {acts : List (Act K V μ)} {before after : List (K × V)} {k : K}
    {v : V} (h : subscriptions acts = before ++ (k, v) :: after) :
    ∃ pre post, acts = pre ++ .subscribe k v :: post ∧ subscriptions pre = before
      ∧ subscriptions post = after := by
  obtain ⟨pre, rest, rfl, hpre, hrest⟩ := List.filterMap_eq_append_iff.mp h
  obtain ⟨skip, a, post, rfl, hskip, ha, hpost⟩ := List.filterMap_eq_cons_iff.mp hrest
  refine ⟨pre ++ skip, post, ?_, ?_, hpost⟩
  · rcases a with ⟨k', v'⟩ | k' | m
    · cases ha
      rw [List.append_assoc]
    · cases ha
    · cases ha
  · have hnone : subscriptions skip = [] := List.filterMap_eq_nil_iff.mpr hskip
    rw [subscriptions_append, hnone, List.append_nil]
    exact hpre

/-- Keys and channels are each client's own, and no one unsubscribes. -/
structure ForGood (chan : V → β) (acts : List (Act K V μ)) : Prop where
  keys : ((subscriptions acts).map Prod.fst).Nodup
  chans : ((subscriptions acts).map fun r => chan r.2).Nodup
  stay : ∀ k, .unsubscribe k ∉ acts

section ForGood

variable {k : K} {v : V}

omit [DecidableEq β] in
theorem takeWhile_isAbout {acts : List (Act K V μ)} (hsub : ∀ v, .subscribe k v ∉ acts)
    (hunsub : .unsubscribe k ∉ acts) : acts.takeWhile (fun a => !a.isAbout k) = acts := by
  refine List.takeWhile_eq_self_iff.mpr fun a ha => ?_
  rcases a with ⟨k', v'⟩ | k' | m
  · have hne : k' ≠ k := by
      rintro rfl
      exact hsub v' ha
    simpa [Act.isAbout] using hne
  · have hne : k' ≠ k := by
      rintro rfl
      exact hunsub ha
    simpa [Act.isAbout] using hne
  · rfl

/-- A channel gets all that is published after its subscription. -/
theorem ForGood.sent_eq {pre post : List (Act K V μ)}
    (h : ForGood chan (pre ++ .subscribe k v :: post)) :
    ((init : State K V β μ).after chan (pre ++ .subscribe k v :: post)).sent (chan v)
      = published post := by
  have hsubs : subscriptions (pre ++ .subscribe k v :: post)
      = subscriptions pre ++ (k, v) :: subscriptions post := subscriptions_append _ _
  have hkeys := h.keys
  have hchans := h.chans
  rw [hsubs, List.map_append, List.map_cons, List.nodup_middle, List.nodup_cons] at hkeys hchans
  have hown : ∀ k' v', .subscribe k' v' ∈ pre ++ post → chan v' ≠ chan v := by
    intro k' v' hmem heq
    refine hchans.1 ?_
    rw [← List.map_append, List.mem_map]
    refine ⟨(k', v'), ?_, heq⟩
    rw [List.mem_append, mem_subscriptions, mem_subscriptions]
    exact List.mem_append.mp hmem
  have hend : post.takeWhile (fun a => !a.isAbout k) = post := by
    refine takeWhile_isAbout (fun v' ha => hkeys.1 (List.mem_append_right _ ?_)) fun ha => ?_
    · exact List.mem_map.mpr ⟨(k, v'), mem_subscriptions.mpr ha, rfl⟩
    · exact h.stay k (List.mem_append_right pre (List.mem_cons_of_mem _ ha))
  rw [sent_after hown, hend]

/-- A channel gets the end of what is published, and nothing if no one has it. -/
theorem ForGood.sent_suffix {acts : List (Act K V μ)} (h : ForGood chan acts) (b : β) :
    ((init : State K V β μ).after chan acts).sent b <:+ published acts := by
  by_cases hb : ∃ k v, .subscribe k v ∈ acts ∧ chan v = b
  · obtain ⟨k, v, hmem, rfl⟩ := hb
    obtain ⟨pre, post, rfl⟩ := List.append_of_mem hmem
    have hpub : published (pre ++ .subscribe k v :: post) = published pre ++ published post := by
      rw [published_append]
      rfl
    rw [h.sent_eq, hpub]
    exact List.suffix_append _ _
  · have hnone : ∀ k v, .subscribe k v ∈ acts → chan v ≠ b := fun k v hmem heq =>
      hb ⟨k, v, hmem, heq⟩
    rw [(sent_of_not_holds (not_holds_empty chan b) hnone).2]
    exact List.nil_suffix

/-- A client that is to subscribe misses what is published before, and gets the rest. -/
theorem ForGood.published_eq {acts : List (Act K V μ)} {clients : List (K × V)}
    (h : ForGood chan acts) (hpre : subscriptions acts <+: clients)
    (hkeys : (clients.map Prod.fst).Nodup) (hchans : (clients.map fun r => chan r.2).Nodup)
    (hkv : (k, v) ∈ clients) :
    published acts
      = missed k acts ++ ((init : State K V β μ).after chan acts).sent (chan v) := by
  by_cases hsub : .subscribe k v ∈ acts
  · obtain ⟨pre, post, rfl⟩ := List.append_of_mem hsub
    have hnd := h.keys
    rw [subscriptions_append, List.map_append] at hnd
    have hwhile : pre.takeWhile (fun a => !a.isAbout k) = pre := by
      refine takeWhile_isAbout (fun v' ha => ?_) fun ha => h.stay k (List.mem_append_left _ ha)
      refine List.disjoint_of_nodup_append hnd (a := k) ?_ ?_
      · exact List.mem_map.mpr ⟨(k, v'), mem_subscriptions.mpr ha, rfl⟩
      · exact List.mem_map.mpr
          ⟨(k, v), mem_subscriptions.mpr List.mem_cons_self, rfl⟩
    rw [h.sent_eq, missed, List.takeWhile_append, hwhile, published_append]
    simp [Act.isAbout, published]
  · have hmem : ∀ k' v', .subscribe k' v' ∈ acts → (k', v') ∈ clients := fun k' v' ha =>
      hpre.subset (mem_subscriptions.mpr ha)
    have hnone : ∀ v', .subscribe k v' ∉ acts := by
      intro v' ha
      cases List.inj_on_of_nodup_map hkeys (hmem k v' ha) hkv rfl
      exact hsub ha
    have hchan : ∀ k' v', .subscribe k' v' ∈ acts → chan v' ≠ chan v := by
      intro k' v' ha heq
      cases List.inj_on_of_nodup_map hchans (hmem k' v' ha) hkv heq
      exact hsub ha
    rw [missed, takeWhile_isAbout hnone (h.stay k),
      (sent_of_not_holds (not_holds_empty chan _) hchan).2]
    exact (List.append_nil _).symm

/-- Who subscribes later gets the end of what one before gets. -/
theorem ForGood.later_suffix {acts : List (Act K V μ)} {before mid after : List (K × V)} {k' : K}
    {v' : V} (h : ForGood chan acts)
    (hsubs : subscriptions acts = before ++ (k, v) :: (mid ++ (k', v') :: after)) :
    ((init : State K V β μ).after chan acts).sent (chan v')
      <:+ ((init : State K V β μ).after chan acts).sent (chan v) := by
  obtain ⟨pre, post, rfl, -, hpost⟩ := subscriptions_eq_append hsubs
  obtain ⟨pre', post', rfl, -, -⟩ := subscriptions_eq_append hpost
  have hlater := h
  have hsplit : pre ++ .subscribe k v :: (pre' ++ .subscribe k' v' :: post')
      = (pre ++ .subscribe k v :: pre') ++ .subscribe k' v' :: post' := by simp
  rw [h.sent_eq]
  rw [hsplit] at hlater ⊢
  rw [hlater.sent_eq, published_append]
  exact (List.suffix_append _ _)

end ForGood

end State

end Step

end Broadcast
