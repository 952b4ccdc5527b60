import Pmind.Lib.Pool
import Pmind.Lib.Run
import Pmind.Monitor

/-!
# The port pool as an allocator

`Ports::new` fills the pool with the ports of an interval, none of which wraps around. From then on
what is free and what is handed out split that interval, in whatever order ports are taken and
returned, as long as only those that are handed out are returned.
-/

namespace Pmind

open HashMap Transition

namespace Ports

/-! ## A new pool -/

/-- The ports from `base` on, `size` of them. -/
def interval (base : NodeRcvPort) (size : UInt16) : Finset NodeRcvPort :=
  (Finset.range size.toNat).image fun i => base + UInt16.ofNat i

theorem toNat_add_ofNat {base size : UInt16} (h : base.toNat + size.toNat < 2 ^ 16) {i : ℕ}
    (hi : i < size.toNat) : (base + UInt16.ofNat i).toNat = base.toNat + i := by
  have hlt : i < 2 ^ 16 := by omega
  rw [UInt16.toNat_add, UInt16.toNat_ofNat', Nat.mod_eq_of_lt hlt]
  exact Nat.mod_eq_of_lt (by omega)

theorem mem_interval {base size p : UInt16} (h : base.toNat + size.toNat < 2 ^ 16) :
    p ∈ interval base size ↔ base.toNat ≤ p.toNat ∧ p.toNat < base.toNat + size.toNat := by
  simp only [interval, Finset.mem_image, Finset.mem_range]
  constructor
  · rintro ⟨i, hi, rfl⟩
    rw [toNat_add_ofNat h hi]
    omega
  · rintro ⟨hle, hlt⟩
    have hi : p.toNat - base.toNat < size.toNat := by omega
    refine ⟨p.toNat - base.toNat, hi, UInt16.toNat_inj.mp ?_⟩
    rw [toNat_add_ofNat h hi]
    omega

theorem card_interval {base size : UInt16} (h : base.toNat + size.toNat < 2 ^ 16) :
    (interval base size).card = size.toNat := by
  have hinj : Set.InjOn (fun i => base + UInt16.ofNat i) (Finset.range size.toNat) := by
    intro i hi j hj heq
    have hnat := congrArg UInt16.toNat heq
    rw [toNat_add_ofNat h (Finset.mem_range.mp hi), toNat_add_ofNat h (Finset.mem_range.mp hj)]
      at hnat
    omega
  rw [interval, Finset.card_image_of_injOn hinj, Finset.card_range]

/-- The loop of `Ports::new`, turn by turn. -/
theorem foldl_insert (base : NodeRcvPort) (n : ℕ) :
    (List.range n).foldl (fun ports i => insert (base + UInt16.ofNat i) ports) ∅
      = (Finset.range n).image fun i => base + UInt16.ofNat i := by
  induction n with
  | zero => rfl
  | succ n ih =>
    rw [List.range_succ, List.foldl_append, ih, Finset.range_add_one, Finset.image_insert]
    rfl

theorem new_ok_iff {base size : UInt16} {ports : Ports} :
    new base size = .ok ports ↔
      base.toNat + size.toNat < 2 ^ 16 ∧ ports = ⟨base, interval base size⟩ := by
  unfold new interval
  rw [foldl_insert]
  split_ifs with h
  · constructor
    · intro heq
      cases heq
      exact ⟨h, rfl⟩
    · rintro ⟨-, rfl⟩
      rfl
  · constructor
    · intro heq
      cases heq
    · rintro ⟨hlt, -⟩
      exact absurd hlt h

theorem exists_new_iff (base size : UInt16) :
    (∃ ports, new base size = .ok ports) ↔ base.toNat + size.toNat ≤ 65535 := by
  simp only [new_ok_iff, exists_and_left, exists_eq, and_true]
  omega

end Ports

/-! ## Ports handed out -/

/-- A pool, and the ports that were handed out of it and not returned. -/
structure Leases where
  ports : Ports
  out : Finset NodeRcvPort

inductive LeaseEvent where
  | getFreePort (top : Option NodeRcvPort)
  | markPortFreeToUse (port : NodeRcvPort)

namespace Leases

/-- Only a port that is handed out is returned. -/
def step (s : Leases) : LeaseEvent → Option Leases
  | .getFreePort top =>
    if IterNext s.ports.ports top then
      match s.ports.getFreePort top with
      | (.ok port, ports) => some ⟨ports, insert port s.out⟩
      | (.error _, ports) => some ⟨ports, s.out⟩
    else none
  | .markPortFreeToUse port =>
    if port ∈ s.out then some ⟨s.ports.markPortFreeToUse port, s.out.erase port⟩ else none

theorem getFreePort_cases {ports : Ports} {top : Option NodeRcvPort}
    (h : IterNext ports.ports top) :
    (ports.ports = ∅
        ∧ ports.getFreePort top = (.error (.portError "No free ports available"), ports))
      ∨ ∃ p ∈ ports.ports,
        ports.getFreePort top = (.ok p, { ports with ports := ports.ports.erase p }) := by
  by_cases hempty : ports.ports = ∅
  · exact Or.inl ⟨hempty, by simp [Ports.getFreePort, hempty]⟩
  · obtain ⟨p, hp, rfl⟩ := h.mem hempty
    exact Or.inr ⟨p, hp, by simp [Ports.getFreePort, hempty]⟩

theorem splits_step {all : Finset NodeRcvPort} {s s' : Leases} {e : LeaseEvent}
    (h : Pool.Splits all s.ports.ports s.out) (hs : step s e = some s') :
    Pool.Splits all s'.ports.ports s'.out := by
  rcases e with top | port
  · simp only [step] at hs
    split_ifs at hs with htop
    obtain ⟨-, hget⟩ | ⟨p, hp, hget⟩ := getFreePort_cases htop
    · rw [hget] at hs
      cases hs
      exact h
    · rw [hget] at hs
      cases hs
      exact h.take hp
  · simp only [step] at hs
    split_ifs at hs with hout
    cases hs
    exact h.give hout

theorem splits_run {all : Finset NodeRcvPort} {base : NodeRcvPort} {es : List LeaseEvent}
    {s : Leases} (h : run step ⟨⟨base, all⟩, ∅⟩ es = some s) :
    Pool.Splits all s.ports.ports s.out :=
  run_invariant (C := fun _ => True) (fun _ _ _ _ hinv hs => splits_step hinv hs)
    (Pool.Splits.init all) (fun _ _ => trivial) h

/-! ## Soundness -/

def InInterval (base size : UInt16) (p : NodeRcvPort) : Prop :=
  base.toNat ≤ p.toNat ∧ p.toNat < base.toNat + size.toNat

/-- The free ports and those handed out partition the interval, a port that is handed out next is
of the interval and not out, and there is none exactly if `size` are out. -/
structure Sound (base size : UInt16) (s : Leases) : Prop where
  disjoint : Disjoint s.ports.ports s.out
  covers : ∀ p, p ∈ s.ports.ports ∪ s.out ↔ InInterval base size p
  fresh : ∀ top p, IterNext s.ports.ports top → (s.ports.getFreePort top).1 = .ok p →
    InInterval base size p ∧ p ∉ s.out
  fails : ∀ top, IterNext s.ports.ports top →
    ((∃ e, (s.ports.getFreePort top).1 = .error e) ↔ s.out.card = size.toNat)

theorem sound_of_splits {base size : UInt16} {s : Leases}
    (hsize : base.toNat + size.toNat < 2 ^ 16)
    (h : Pool.Splits (Ports.interval base size) s.ports.ports s.out) : Sound base size s := by
  refine ⟨h.disjoint, ?_, ?_, ?_⟩
  · intro p
    rw [h.union]
    exact Ports.mem_interval hsize
  · intro top p htop hp
    obtain ⟨-, hget⟩ | ⟨q, hq, hget⟩ := getFreePort_cases htop
    · rw [hget] at hp
      cases hp
    · rw [hget] at hp
      cases hp
      exact ⟨(Ports.mem_interval hsize).mp (h.mem_all_of_free hq), h.notMem_out hq⟩
  · intro top htop
    rw [← Ports.card_interval hsize, ← h.free_eq_empty_iff]
    obtain ⟨hempty, hget⟩ | ⟨q, hq, hget⟩ := getFreePort_cases htop
    · simp [hget, hempty]
    · simp [hget, Finset.ne_empty_of_mem hq]

/-- `Ports::new` succeeds exactly if the interval ends at 65535 or before, fills the pool with it
without a wrap, and every run from there is sound throughout. -/
theorem ports_sound (base size : UInt16) :
    ((∃ ports, Ports.new base size = .ok ports) ↔ base.toNat + size.toNat ≤ 65535)
      ∧ ∀ ports, Ports.new base size = .ok ports →
        (∀ i < size.toNat, (base + UInt16.ofNat i).toNat = base.toNat + i)
          ∧ (∀ p, p ∈ ports.ports ↔ InInterval base size p)
          ∧ ∀ es s, run step ⟨ports, ∅⟩ es = some s → Sound base size s := by
  refine ⟨Ports.exists_new_iff base size, fun ports hnew => ?_⟩
  obtain ⟨hsize, rfl⟩ := Ports.new_ok_iff.mp hnew
  refine ⟨fun i hi => Ports.toNat_add_ofNat hsize hi, fun p => Ports.mem_interval hsize, ?_⟩
  intro es s hrun
  exact sound_of_splits hsize (splits_run hrun)

/-- A pool that ends at 65535: two ports are taken, and the first of them is returned and taken
again. -/
theorem ports_sound_top : ∃ ports s, Ports.new 65532 3 = .ok ports
    ∧ run step ⟨ports, ∅⟩ [.getFreePort (some 65534), .getFreePort (some 65532),
      .markPortFreeToUse 65534, .getFreePort (some 65534)] = some s
    ∧ s.out = {65532, 65534} ∧ Sound 65532 3 s := by
  obtain ⟨ports, hnew⟩ := (ports_sound 65532 3).1.mpr (by decide)
  obtain ⟨s, hrun, hout⟩ : ∃ s, run step ⟨ports, ∅⟩ [.getFreePort (some 65534),
      .getFreePort (some 65532), .markPortFreeToUse 65534, .getFreePort (some 65534)] = some s
      ∧ s.out = {65532, 65534} := by
    cases hnew
    exact ⟨_, rfl, by decide⟩
  exact ⟨ports, s, hnew, hrun, hout, ((ports_sound 65532 3).2 ports hnew).2.2 _ s hrun⟩

end Leases

end Pmind
