import Pmind.Lib.Text
import Pmind.Net

/-!
# An address is determined by its text

The text of an address that is not IPv4-mapped is its numerals separated by colons, with empty ones
where zeros are left out: one, and one more at an end it touches. So the text gives the segments
before the gap and those after it, and the gap is zeros. Only the text of an IPv4-mapped address has
a dot.
-/

namespace Pmind

namespace Ipv6Addr

theorem hex_injective : Function.Injective hex := fun _ _ h =>
  UInt16.toNat_inj.mp (Text.toDigits_injective (by decide) (by decide) h)

theorem hex_ne_nil (s : UInt16) : hex s ≠ [] := Nat.toDigits_ne_nil

theorem colon_notMem_hex (s : UInt16) : ':' ∉ hex s :=
  Text.notMem_toDigits (by decide) (by decide) (by decide) _

/-! ## The gap is zeros -/

def Span.Zeros (all : List UInt16) (sp : Span) : Prop :=
  sp.start + sp.len ≤ all.length ∧ ∀ i, sp.start ≤ i → i < sp.start + sp.len → all[i]? = some 0

theorem zeroSpan_zeros (all : List UInt16) : ∀ (rest : List UInt16) (i : ℕ)
    (longest current : Span), all.drop i = rest → longest.Zeros all → current.Zeros all →
    (current.len = 0 ∨ current.start + current.len = i) →
      (zeroSpan i longest current rest).Zeros all
  | [], _, _, _, _, hl, _, _ => hl
  | s :: rest, i, longest, current, hdrop, hl, hc, hi => by
    have hs : all[i]? = some s := by
      rw [← Nat.add_zero i, ← List.getElem?_drop, hdrop]
      rfl
    have hlen : i < all.length := (List.getElem?_eq_some_iff.mp hs).1
    have hrest : all.drop (i + 1) = rest := by
      rw [← List.drop_drop, hdrop]
      rfl
    by_cases hz : s = 0
    · obtain ⟨c, hcdef⟩ : ∃ c : Span,
          c = ⟨if current.len = 0 then i else current.start, current.len + 1⟩ := ⟨_, rfl⟩
      have hend : c.start + c.len = i + 1 := by
        rw [hcdef]
        simp only
        split_ifs <;> omega
      have hzeros : c.Zeros all := by
        refine ⟨by omega, fun j h1 h2 => ?_⟩
        by_cases hj : j = i
        · rw [hj, hs, hz]
        · rw [hcdef] at h1 h2
          simp only at h1 h2
          split_ifs at h1 h2
          · omega
          · exact hc.2 j h1 (by omega)
      simp only [zeroSpan, hz, if_true, ← hcdef]
      refine zeroSpan_zeros all rest (i + 1) _ c hrest ?_ hzeros (Or.inr hend)
      split_ifs
      · exact hzeros
      · exact hl
    · simp only [zeroSpan, hz, if_false]
      exact zeroSpan_zeros all rest (i + 1) longest ⟨0, 0⟩ hrest hl
        ⟨Nat.zero_le _, fun j _ h => absurd h (by simp)⟩ (Or.inl rfl)

theorem Span.Zeros.eq_append {all : List UInt16} {sp : Span} (h : sp.Zeros all) :
    all = all.take sp.start ++ List.replicate sp.len 0 ++ all.drop (sp.start + sp.len) := by
  obtain ⟨hle, hz⟩ := h
  have hmid : (all.drop sp.start).take sp.len = List.replicate sp.len 0 := by
    refine List.ext_getElem? fun i => ?_
    by_cases hi : i < sp.len
    · rw [List.getElem?_take_of_lt hi, List.getElem?_drop, hz _ (by omega) (by omega),
        List.getElem?_replicate_of_lt hi]
    · rw [List.getElem?_eq_none (by simp; omega), List.getElem?_eq_none (by simpa using hi)]
  rw [← hmid, List.append_assoc, ← List.drop_drop, List.take_append_drop, List.take_append_drop]

/-! ## The text, split at its separators -/

theorem fmtSubslice_eq : ∀ l, fmtSubslice l = [':'].intercalate (l.map hex)
  | [] => rfl
  | [s] => by simp [fmtSubslice]
  | s :: s' :: l => by
    have ih := fmtSubslice_eq (s' :: l)
    simp only [fmtSubslice, List.map_cons, List.intercalate_cons_cons] at ih ⊢
    rw [← ih]
    simp

/-- The numerals of the segments on one side of a gap, or an empty one if there are none. -/
def side (l : List UInt16) : List (List Char) := if l = [] then [[]] else l.map hex

theorem side_ne_nil (l : List UInt16) : side l ≠ [] := by
  unfold side
  split_ifs with h
  · simp
  · simpa using h

theorem intercalate_side (l : List UInt16) : [':'].intercalate (side l) = fmtSubslice l := by
  unfold side
  split_ifs with h
  · rw [h]
    rfl
  · exact (fmtSubslice_eq l).symm

theorem colon_notMem_side {l : List UInt16} {t : List Char} (ht : t ∈ side l) : ':' ∉ t := by
  unfold side at ht
  split_ifs at ht
  · rw [List.mem_singleton.mp ht]
    exact List.not_mem_nil
  · obtain ⟨s, -, rfl⟩ := List.mem_map.mp ht
    exact colon_notMem_hex s

theorem takeWhile_side (l : List UInt16) (rest : List (List Char)) :
    (side l ++ [] :: rest).takeWhile (· ≠ []) = l.map hex := by
  unfold side
  split_ifs with h
  · simp [h]
  · rw [List.takeWhile_append_of_pos fun t ht => ?_]
    · simp
    · obtain ⟨s, -, rfl⟩ := List.mem_map.mp ht
      simpa using hex_ne_nil s

theorem side_injective {l l' : List UInt16} (h : side l = side l') : l = l' := by
  have := congrArg (fun ts => (ts ++ [[]]).takeWhile (· ≠ [])) h
  simp only [takeWhile_side] at this
  exact List.map_injective_iff.mpr hex_injective this

inductive Layout where
  | full (segments : List UInt16)
  | gap (left right : List UInt16)

namespace Layout

def tokens : Layout → List (List Char)
  | full segments => segments.map hex
  | gap left right => side left ++ [] :: side right

theorem colon_notMem_tokens : ∀ {y : Layout} {t : List Char}, t ∈ y.tokens → ':' ∉ t
  | full l, t, ht => by
    obtain ⟨s, -, rfl⟩ := List.mem_map.mp ht
    exact colon_notMem_hex s
  | gap l r, t, ht => by
    simp only [tokens, List.mem_append, List.mem_cons] at ht
    rcases ht with ht | rfl | ht
    · exact colon_notMem_side ht
    · exact List.not_mem_nil
    · exact colon_notMem_side ht

theorem tokens_injective {a b : Layout} (h : a.tokens = b.tokens) : a = b := by
  have hfull : ∀ segments : List UInt16, [] ∉ segments.map hex := fun segments hmem => by
    obtain ⟨s, -, hs⟩ := List.mem_map.mp hmem
    exact hex_ne_nil s hs
  rcases a with l | ⟨l, r⟩ <;> rcases b with l' | ⟨l', r'⟩
  · exact congrArg full (List.map_injective_iff.mpr hex_injective h)
  · exact absurd (by rw [show l.map hex = _ from h]; simp [tokens]) (hfull l)
  · exact absurd (by rw [show l'.map hex = _ from h.symm]; simp [tokens]) (hfull l')
  · simp only [tokens] at h
    have hl : l = l' := by
      have := congrArg (List.takeWhile (· ≠ [])) h
      rw [takeWhile_side, takeWhile_side] at this
      exact List.map_injective_iff.mpr hex_injective this
    subst hl
    rw [List.append_cancel_left_eq, List.cons_inj_right] at h
    rw [side_injective h]

end Layout

def layout (a : Ipv6Addr) : Layout :=
  let segments := a.segments.toList
  let zeroes := zeroSpan 0 ⟨0, 0⟩ ⟨0, 0⟩ segments
  if 1 < zeroes.len then
    .gap (segments.take zeroes.start) (segments.drop (zeroes.start + zeroes.len))
  else
    .full segments

theorem layout_tokens_ne_nil (a : Ipv6Addr) : a.layout.tokens ≠ [] := by
  unfold layout
  simp only
  split_ifs
  · simp [Layout.tokens]
  · simp only [Layout.tokens, ne_eq, List.map_eq_nil_iff]
    exact List.ne_nil_of_length_pos (by simp)

theorem layout_injective {a b : Ipv6Addr} (h : a.layout = b.layout) : a = b := by
  have hlen : ∀ c : Ipv6Addr, c.segments.toList.length = 8 := fun c => by simp
  have hz : ∀ c : Ipv6Addr,
      (zeroSpan 0 ⟨0, 0⟩ ⟨0, 0⟩ c.segments.toList).Zeros c.segments.toList := fun c =>
    zeroSpan_zeros _ _ 0 ⟨0, 0⟩ ⟨0, 0⟩ rfl ⟨Nat.zero_le _, fun j _ h => absurd h (by simp)⟩
      ⟨Nat.zero_le _, fun j _ h => absurd h (by simp)⟩ (Or.inl rfl)
  have hsegs : a.segments.toList = b.segments.toList := by
    simp only [layout] at h
    split_ifs at h
    · simp only [Layout.gap.injEq] at h
      have ha := (hz a).eq_append
      have hb := (hz b).eq_append
      rw [h.1, h.2] at ha
      -- the gaps are as long as each other, as both addresses have eight segments
      have hgap := congrArg List.length ha
      have hgap' := congrArg List.length hb
      simp only [List.length_append, List.length_replicate, hlen] at hgap hgap'
      have hn : (zeroSpan 0 ⟨0, 0⟩ ⟨0, 0⟩ a.segments.toList).len
          = (zeroSpan 0 ⟨0, 0⟩ ⟨0, 0⟩ b.segments.toList).len := by omega
      rw [hn] at ha
      exact ha.trans hb.symm
    · exact Layout.full.inj h
  cases a
  cases b
  exact congrArg Ipv6Addr.mk (Vector.toList_inj.mp hsegs)

/-! ## Both forms -/

theorem dot_notMem_fmtSubslice : ∀ l, '.' ∉ fmtSubslice l
  | [] => List.not_mem_nil
  | s :: l => by
    have hhex : ∀ s, '.' ∉ hex s := fun s =>
      Text.notMem_toDigits (by decide) (by decide) (by decide) _
    simp only [fmtSubslice, List.mem_append, List.mem_flatMap, List.mem_cons, not_or, not_exists,
      not_and]
    exact ⟨hhex s, fun s' _ => ⟨by decide, hhex s'⟩⟩

theorem chars_of_none {a : Ipv6Addr} (h : a.toIpv4Mapped = none) :
    a.chars = [':'].intercalate a.layout.tokens ∧ '.' ∉ a.chars := by
  simp only [chars, h, layout]
  split_ifs
  · refine ⟨?_, ?_⟩
    · rw [Layout.tokens, Text.intercalate_append (side_ne_nil _) (by simp),
        List.intercalate_cons_of_ne_nil (side_ne_nil _), intercalate_side, intercalate_side]
      simp
    · simp only [List.mem_append, List.mem_cons, not_or]
      exact ⟨dot_notMem_fmtSubslice _, by decide, by decide, dot_notMem_fmtSubslice _⟩
  · exact ⟨fmtSubslice_eq _, dot_notMem_fmtSubslice _⟩

theorem chars_of_some {a : Ipv6Addr} {o : ℕ × ℕ × ℕ × ℕ} (h : a.toIpv4Mapped = some o) :
    a.chars = "::ffff:".toList ++
      ['.'].intercalate ([o.1, o.2.1, o.2.2.1, o.2.2.2].map (Nat.toDigits 10)) := by
  simp [chars, h, List.intercalate_cons_cons]

theorem toIpv4Mapped_some {a : Ipv6Addr} {o : ℕ × ℕ × ℕ × ℕ} (h : a.toIpv4Mapped = some o) :
    ∃ ab cd : UInt16, a.segments.toList = [0, 0, 0, 0, 0, 0xffff, ab, cd]
      ∧ ab.toNat = o.1 * 256 + o.2.1 ∧ cd.toNat = o.2.2.1 * 256 + o.2.2.2 := by
  unfold toIpv4Mapped at h
  split at h
  · rename_i ab cd hsegs
    cases h
    exact ⟨ab, cd, hsegs, (Nat.div_add_mod' _ _).symm, (Nat.div_add_mod' _ _).symm⟩
  · cases h

theorem toText_injective : Function.Injective toText := by
  intro a b h
  have hc : a.chars = b.chars := String.ofList_injective h
  have hdot : ∀ {c : Ipv6Addr} {o : ℕ × ℕ × ℕ × ℕ}, c.toIpv4Mapped = some o → '.' ∈ c.chars :=
    fun ho => by simp [chars, ho]
  rcases ha : a.toIpv4Mapped with _ | o <;> rcases hb : b.toIpv4Mapped with _ | o'
  · rw [(chars_of_none ha).1, (chars_of_none hb).1] at hc
    exact layout_injective (Layout.tokens_injective
      (Text.intercalate_injective (fun _ => Layout.colon_notMem_tokens)
        (fun _ => Layout.colon_notMem_tokens) (layout_tokens_ne_nil a) (layout_tokens_ne_nil b) hc))
  · exact absurd (hc ▸ hdot hb) (chars_of_none ha).2
  · exact absurd (hc ▸ hdot ha) (chars_of_none hb).2
  · rw [chars_of_some ha, chars_of_some hb, List.append_cancel_left_eq] at hc
    have hdigits : ∀ os : List ℕ, ∀ t ∈ os.map (Nat.toDigits 10), '.' ∉ t := fun os t ht => by
      obtain ⟨n, -, rfl⟩ := List.mem_map.mp ht
      exact Text.notMem_toDigits (by decide) (by decide) (by decide) n
    have ho := List.map_injective_iff.mpr
      (fun _ _ => Text.toDigits_injective (by decide) (by decide))
      (Text.intercalate_injective (hdigits _) (hdigits _) (by simp) (by simp) hc)
    obtain ⟨ab, cd, hsegs, hab, hcd⟩ := toIpv4Mapped_some ha
    obtain ⟨ab', cd', hsegs', hab', hcd'⟩ := toIpv4Mapped_some hb
    simp only [List.cons.injEq, and_true] at ho
    have hab₂ : ab = ab' := UInt16.toNat_inj.mp (by omega)
    have hcd₂ : cd = cd' := UInt16.toNat_inj.mp (by omega)
    rw [hab₂, hcd₂, ← hsegs'] at hsegs
    cases a
    cases b
    exact congrArg Ipv6Addr.mk (Vector.toList_inj.mp hsegs)

end Ipv6Addr

end Pmind
