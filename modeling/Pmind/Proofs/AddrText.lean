import Pmind.Proofs.AddrParse
import Pmind.Proofs.Net
import Pmind.SocketAddrParse

/-!
# An address is read as it was printed

A numeral is read up to the character after it, which is no digit. So the segments that are printed
with a colon between any two are read one after the other, until there is no colon or two: at the
gap, if one is printed, and at the end. No dot is met, unless the address is IPv4-mapped, and then
its two last segments are read from the dotted quad.
-/

namespace Pmind

namespace AddrParse

open Str Ipv6Addr

/-- No digit comes first. -/
def Breaks (radix : ℕ) (rest : List Char) : Prop := ∀ c ∈ rest.head?, toDigit radix c = none

theorem breaks_nil (radix : ℕ) : Breaks radix [] := fun c hc => by cases hc

theorem breaks_cons {radix : ℕ} {c : Char} (hc : toDigit radix c = none) (rest : List Char) :
    Breaks radix (c :: rest) := fun d hd => by
  cases hd
  exact hc

/-! ## Numerals -/

theorem takeWhile_digits {radix : ℕ} {digits rest : List Char}
    (hd : ∀ c ∈ digits, (toDigit radix c).isSome) (hr : Breaks radix rest) :
    (digits ++ rest).takeWhile (fun c => (toDigit radix c).isSome) = digits
      ∧ (digits ++ rest).dropWhile (fun c => (toDigit radix c).isSome) = rest := by
  rw [List.takeWhile_append_of_pos hd, List.dropWhile_append_of_pos hd]
  rcases rest with _ | ⟨c, rest⟩
  · simp
  · have hc := hr c rfl
    simp [hc]

theorem readNumber_toDigits {b m bound n : ℕ} {zero : Bool} {rest : List Char} (hb : 1 < b)
    (hb' : b ≤ 16) (hlen : (Nat.toDigits b n).length ≤ m) (hlt : n < bound)
    (hr : Breaks b rest) :
    readNumber b m zero bound (Nat.toDigits b n ++ rest) = some (n, rest) := by
  obtain ⟨hdigits, hval⟩ := ofDigits_toDigits hb hb' n
  obtain ⟨htake, hdrop⟩ := takeWhile_digits hdigits hr
  have hpos := Nat.length_toDigits_pos (b := b) (n := n)
  have hzero : ¬ (¬ zero = true ∧ (Nat.toDigits b n ++ rest).head? = some '0'
      ∧ 1 < (Nat.toDigits b n).length) := by
    rintro ⟨-, hhead, hone⟩
    rw [List.head?_append_of_ne_nil _ Nat.toDigits_ne_nil] at hhead
    rcases Nat.eq_zero_or_pos n with rfl | hn
    · simp at hone
    · exact head_toDigits hb hn hhead
  unfold readNumber
  simp only [htake, hdrop, hval]
  rw [if_neg (by omega), if_neg hzero, if_pos hlt]

theorem readNumber_breaks {radix m bound : ℕ} {zero : Bool} {s : List Char} (h : Breaks radix s) :
    readNumber radix m zero bound s = none := by
  have htake : s.takeWhile (fun c => (toDigit radix c).isSome) = [] :=
    (takeWhile_digits (fun c hc => absurd hc List.not_mem_nil) h).1
  unfold readNumber
  simp [htake]

theorem readGroup {s : UInt16} {rest : List Char} (hr : Breaks 16 rest) :
    readNumber 16 4 true (2 ^ 16) (hex s ++ rest) = some (s.toNat, rest) :=
  readNumber_toDigits (by decide) (by decide)
    (Nat.toDigits_length 16 s.toNat 4 (by decide) s.toNat_lt) s.toNat_lt hr

/-! ## Groups -/

theorem readSeparator_zero {τ : Type} {sep : Char} {inner : Reader τ} (s : List Char) :
    readSeparator sep 0 inner s = inner s := if_neg (lt_irrefl 0)

theorem readSeparator_cons {τ : Type} {sep : Char} {inner : Reader τ} {i : ℕ} (hi : 0 < i)
    (s : List Char) : readSeparator sep i inner (sep :: s) = inner s := by
  rw [readSeparator, if_pos hi, readGivenChar, if_pos rfl, Option.bind_some]

theorem readSeparator_none {τ : Type} {sep : Char} {inner : Reader τ} {i : ℕ} (hi : 0 < i)
    {s : List Char} (h : sep ∉ s) : readSeparator sep i inner s = none := by
  unfold readSeparator
  rw [if_pos hi]
  rcases s with _ | ⟨c, s⟩
  · rfl
  · have hc : c ≠ sep := fun heq => h (heq ▸ List.mem_cons_self)
    simp [readGivenChar, hc]

/-- Without a dot no IPv4 address is read. -/
theorem readIpv4Addr_none {s : List Char} (h : '.' ∉ s) : readIpv4Addr s = none := by
  unfold readIpv4Addr readOctets
  rcases hn : readSeparator '.' 0 (readNumber 10 3 false 256) s with _ | ⟨octet, rest⟩
  · rfl
  · have hrest : '.' ∉ rest := by
      have hdot : toDigit 10 '.' = none := by decide
      unfold readSeparator readNumber at hn
      simp only [] at hn
      split_ifs at hn with h0 h1 h2 h3
      · cases h0
      · cases hn
        exact fun hmem => h (List.dropWhile_subset _ hmem)
    rw [Option.bind_some]
    simp [readOctets, readSeparator_none (Nat.succ_pos 0) hrest]

theorem readIpv4Addr_after_colon {left i : ℕ} {s : List Char} (h : '.' ∉ s) :
    (if 0 < left then readSeparator ':' i readIpv4Addr s else none) = none := by
  split_ifs
  · unfold readSeparator
    split_ifs with hi
    · rcases s with _ | ⟨c, s⟩
      · rfl
      · have hs : '.' ∉ s := fun hmem => h (List.mem_cons_of_mem c hmem)
        rw [readGivenChar]
        split_ifs
        · exact readIpv4Addr_none hs
        · rfl
    · exact readIpv4Addr_none h
  · rfl

theorem readGroups_some {left i group : ℕ} {s rest : List Char} (hdot : '.' ∉ s)
    (h : readSeparator ':' i (readNumber 16 4 true (2 ^ 16)) s = some (group, rest))
    {groups : List UInt16} {t : List Char}
    (hrest : readGroups left (i + 1) rest = (groups, false, t)) :
    readGroups (left + 1) i s = (UInt16.ofNat group :: groups, false, t) := by
  unfold readGroups
  rw [readIpv4Addr_after_colon hdot]
  simp only [h, hrest]

theorem readGroups_none {left i : ℕ} {s : List Char} (hdot : '.' ∉ s)
    (h : readSeparator ':' i (readNumber 16 4 true (2 ^ 16)) s = none) :
    readGroups (left + 1) i s = ([], false, s) := by
  unfold readGroups
  rw [readIpv4Addr_after_colon hdot]
  simp only [h]

/-- No more group is read. -/
def Stops (left i : ℕ) (rest : List Char) : Prop :=
  left = 0 ∨ readSeparator ':' i (readNumber 16 4 true (2 ^ 16)) rest = none

theorem readGroups_stops {left i : ℕ} {rest : List Char} (hdot : '.' ∉ rest)
    (h : Stops left i rest) : readGroups left i rest = ([], false, rest) := by
  rcases left with _ | left
  · rfl
  · exact readGroups_none hdot (h.resolve_left (Nat.succ_ne_zero left))

/-- The segments after the first, each with its colon. -/
theorem readGroups_tail {rest : List Char} (hr : Breaks 16 rest) (hdot : '.' ∉ rest) :
    ∀ (tail : List UInt16) (left i : ℕ), 0 < i → tail.length ≤ left →
      Stops (left - tail.length) (i + tail.length) rest →
      readGroups left i ((tail.flatMap fun s => ':' :: hex s) ++ rest) = (tail, false, rest)
  | [], left, i, _, _, hs => readGroups_stops hdot hs
  | s :: tail, 0, i, _, hlen, _ => absurd hlen (by simp)
  | s :: tail, left + 1, i, hi, hlen, hs => by
    have hnext : Breaks 16 ((tail.flatMap fun s => ':' :: hex s) ++ rest) := by
      rcases tail with _ | ⟨s', tail⟩
      · exact hr
      · exact breaks_cons (by decide) _
    have hdots : '.' ∉ ((s :: tail).flatMap fun s => ':' :: hex s) ++ rest := by
      have hhex := dot_notMem_fmtSubslice (0 :: s :: tail)
      simp only [fmtSubslice, List.mem_append, not_or] at hhex
      simp only [List.mem_append, not_or]
      exact ⟨hhex.2, hdot⟩
    have hread : readSeparator ':' i (readNumber 16 4 true (2 ^ 16))
        (((s :: tail).flatMap fun s => ':' :: hex s) ++ rest)
        = some (s.toNat, (tail.flatMap fun s => ':' :: hex s) ++ rest) := by
      rw [List.flatMap_cons, List.cons_append, List.cons_append, readSeparator_cons hi,
        List.append_assoc]
      exact readGroup hnext
    have ih := readGroups_tail hr hdot tail left (i + 1) (by omega)
      (by simpa using hlen)
      (by
        have hlen' : (s :: tail).length = tail.length + 1 := rfl
        rwa [hlen', Nat.add_sub_add_right, Nat.add_comm tail.length, ← Nat.add_assoc] at hs)
    rw [readGroups_some hdots hread ih, UInt16.ofNat_toNat]

theorem readGroups_fmtSubslice (l : List UInt16) (left : ℕ) {rest : List Char}
    (hr : Breaks 16 rest) (hdot : '.' ∉ rest) (hlen : l.length ≤ left)
    (hs : Stops (left - l.length) l.length rest) :
    readGroups left 0 (fmtSubslice l ++ rest) = (l, false, rest) := by
  rcases l with _ | ⟨s, tail⟩
  · exact readGroups_stops hdot hs
  · rcases left with _ | left
    · exact absurd hlen (by simp)
    · have hnext : Breaks 16 ((tail.flatMap fun s => ':' :: hex s) ++ rest) := by
        rcases tail with _ | ⟨s', tail⟩
        · exact hr
        · exact breaks_cons (by decide) _
      have hdots : '.' ∉ fmtSubslice (s :: tail) ++ rest := by
        simp only [List.mem_append, not_or]
        exact ⟨dot_notMem_fmtSubslice _, hdot⟩
      have hread : readSeparator ':' 0 (readNumber 16 4 true (2 ^ 16))
          (fmtSubslice (s :: tail) ++ rest)
          = some (s.toNat, (tail.flatMap fun s => ':' :: hex s) ++ rest) := by
        rw [readSeparator_zero, fmtSubslice, List.append_assoc]
        exact readGroup hnext
      have htail := readGroups_tail hr hdot tail left 1 (by omega)
        (by simpa using hlen)
        (by
          have hlen' : (s :: tail).length = tail.length + 1 := rfl
          rwa [hlen', Nat.add_sub_add_right, Nat.add_comm tail.length] at hs)
      rw [readGroups_some hdots hread htail, UInt16.ofNat_toNat]

/-! ## The dotted quad -/

theorem readOctet {o : ℕ} (ho : o < 256) {rest : List Char} (hr : Breaks 10 rest) :
    readNumber 10 3 false 256 (Nat.toDigits 10 o ++ rest) = some (o, rest) :=
  readNumber_toDigits (by decide) (by decide)
    (Nat.toDigits_length 10 o 3 (by decide) (by omega)) ho hr

theorem readIpv4Addr_quad {o₀ o₁ o₂ o₃ : ℕ} (h₀ : o₀ < 256) (h₁ : o₁ < 256) (h₂ : o₂ < 256)
    (h₃ : o₃ < 256) {rest : List Char} (hr : Breaks 10 rest) :
    readIpv4Addr (Nat.toDigits 10 o₀ ++ '.' :: (Nat.toDigits 10 o₁ ++
      '.' :: (Nat.toDigits 10 o₂ ++ '.' :: (Nat.toDigits 10 o₃ ++ rest))))
      = some ([o₀, o₁, o₂, o₃], rest) := by
  have hdot : ∀ rest : List Char, Breaks 10 ('.' :: rest) :=
    fun rest => breaks_cons (by decide) rest
  simp [readIpv4Addr, readOctets, readSeparator, readGivenChar, readOctet h₀ (hdot _),
    readOctet h₁ (hdot _), readOctet h₂ (hdot _), readOctet h₃ hr]

theorem readIpv4Addr_breaks {s : List Char} (h : Breaks 10 s) : readIpv4Addr s = none := by
  unfold readIpv4Addr readOctets
  rw [readSeparator_zero, readNumber_breaks h, Option.bind_none]

/-- The groups of `ffff` and the quad. -/
theorem readGroups_quad {octets : List ℕ} {quad rest : List Char}
    (h : readIpv4Addr quad = some (octets, rest)) :
    readGroups 7 0 (hex 0xffff ++ ':' :: quad)
      = (0xffff :: groupsOfOctets octets, true, rest) := by
  have hf : Breaks 10 (hex 0xffff ++ ':' :: quad) := breaks_cons (by decide) _
  have hcolon : Breaks 16 (':' :: quad) := breaks_cons (by decide) quad
  have hrest : readGroups 6 1 (':' :: quad) = (groupsOfOctets octets, true, rest) := by
    unfold readGroups
    rw [if_pos (by decide), readSeparator_cons (by decide), h]
  unfold readGroups
  rw [if_pos (by decide), readSeparator_zero, readIpv4Addr_breaks hf, readSeparator_zero,
    readGroup hcolon]
  simp only [Nat.zero_add, hrest]
  rfl

/-! ## An address -/

/-- What does not go on with an address. -/
structure Ends (rest : List Char) : Prop where
  digit : Breaks 16 rest
  dot : '.' ∉ rest
  colon : ':' ∉ rest.head?

theorem Ends.stops {rest : List Char} (h : Ends rest) (left i : ℕ) : Stops left i rest := by
  refine Or.inr ?_
  unfold readSeparator
  split_ifs
  · rcases rest with _ | ⟨c, rest⟩
    · rfl
    · have hc : c ≠ ':' := fun heq => h.colon (by simp [heq])
      simp [readGivenChar, hc]
  · exact readNumber_breaks h.digit

theorem stops_colons (left i : ℕ) (rest : List Char) : Stops left i (':' :: ':' :: rest) := by
  have hcolon : ∀ rest, Breaks 16 (':' :: rest) := fun rest => breaks_cons (by decide) rest
  refine Or.inr ?_
  unfold readSeparator
  split_ifs
  · rw [readGivenChar, if_pos rfl, Option.bind_some]
    exact readNumber_breaks (hcolon _)
  · exact readNumber_breaks (hcolon _)

theorem readIpv6Addr_full {segments : List UInt16} (hlen : segments.length = 8)
    {rest : List Char} (hr : Ends rest) :
    readIpv6Addr (fmtSubslice segments ++ rest) = some (segments, rest) := by
  have hread := readGroups_fmtSubslice segments 8 hr.digit hr.dot (by omega) (hr.stops _ _)
  unfold readIpv6Addr
  simp only [hread, hlen, if_true]

theorem readIpv6Addr_gap {left right : List UInt16} (hlen : left.length + right.length < 8)
    {rest : List Char} (hr : Ends rest) :
    readIpv6Addr (fmtSubslice left ++ ':' :: ':' :: (fmtSubslice right ++ rest))
      = some (left ++ List.replicate (8 - left.length - right.length) 0 ++ right, rest) := by
  have hdots : '.' ∉ ':' :: ':' :: (fmtSubslice right ++ rest) := by
    simp only [List.mem_cons, List.mem_append, not_or]
    exact ⟨by decide, by decide, dot_notMem_fmtSubslice right, hr.dot⟩
  have hhead := readGroups_fmtSubslice left 8 (breaks_cons (by decide) _) hdots (by omega)
    (stops_colons _ _ _)
  have htail := readGroups_fmtSubslice right (8 - (left.length + 1)) hr.digit hr.dot (by omega)
    (hr.stops _ _)
  unfold readIpv6Addr
  simp only [hhead]
  rw [if_neg (by omega), if_neg (by decide)]
  simp only [readGivenChar, if_true, Option.bind_some, Option.map_some, htail]

theorem readIpv6Addr_mapped {o₀ o₁ o₂ o₃ : ℕ} (h₀ : o₀ < 256) (h₁ : o₁ < 256) (h₂ : o₂ < 256)
    (h₃ : o₃ < 256) {rest : List Char} (hr : Ends rest) :
    readIpv6Addr ("::ffff:".toList ++ (Nat.toDigits 10 o₀ ++ '.' :: (Nat.toDigits 10 o₁ ++
      '.' :: (Nat.toDigits 10 o₂ ++ '.' :: (Nat.toDigits 10 o₃ ++ rest)))))
      = some ([0, 0, 0, 0, 0, 0xffff, UInt16.ofNat (256 * o₀ + o₁), UInt16.ofNat (256 * o₂ + o₃)],
        rest) := by
  have hbreaks : Breaks 10 rest := fun c hc => by
    have h16 := hr.digit c hc
    by_contra h10
    have hsome := toDigit_mono (by decide) (Option.isSome_iff_ne_none.mpr h10)
    rw [h16] at hsome
    exact absurd hsome (by decide)
  have hquad := readGroups_quad (readIpv4Addr_quad h₀ h₁ h₂ h₃ hbreaks)
  have htext : "::ffff:".toList = ':' :: ':' :: (hex 0xffff ++ [':']) := by decide +kernel
  rw [htext, List.cons_append, List.cons_append, List.append_assoc, List.singleton_append]
  have hcolon : ∀ rest, Breaks 16 (':' :: rest) := fun rest => breaks_cons (by decide) rest
  have hcolon' : ∀ rest, Breaks 10 (':' :: rest) := fun rest => breaks_cons (by decide) rest
  have hhead : ∀ s, readGroups 8 0 (':' :: s) = ([], false, ':' :: s) := fun s => by
    unfold readGroups
    rw [if_pos (by decide), readSeparator_zero, readIpv4Addr_breaks (hcolon' s),
      readSeparator_zero, readNumber_breaks (hcolon s)]
  unfold readIpv6Addr
  simp only [hhead]
  rw [if_neg (by decide), if_neg (by decide)]
  simp only [readGivenChar, if_true, Option.bind_some, Option.map_some]
  rw [List.length_nil, Nat.zero_add, hquad]
  rfl

end AddrParse

open AddrParse

namespace Ipv6Addr

theorem readIpv6Addr_chars (a : Ipv6Addr) {rest : List Char} (hr : Ends rest) :
    readIpv6Addr (a.chars ++ rest) = some (a.segments.toList, rest) := by
  rcases hm : a.toIpv4Mapped with _ | ⟨o₀, o₁, o₂, o₃⟩
  · have hlen : a.segments.toList.length = 8 := by simp
    obtain ⟨sp, hsp⟩ : ∃ sp, sp = zeroSpan 0 ⟨0, 0⟩ ⟨0, 0⟩ a.segments.toList := ⟨_, rfl⟩
    have hz : sp.Zeros a.segments.toList :=
      hsp ▸ zeroSpan_zeros _ _ 0 ⟨0, 0⟩ ⟨0, 0⟩ rfl
        ⟨Nat.zero_le _, fun j _ h => absurd h (by simp)⟩
        ⟨Nat.zero_le _, fun j _ h => absurd h (by simp)⟩ (Or.inl rfl)
    have hle := hz.1
    unfold chars
    simp only [hm, ← hsp]
    split_ifs with hgap
    · have hcut : 8 - (a.segments.toList.take sp.start).length
          - (a.segments.toList.drop (sp.start + sp.len)).length = sp.len := by
        simp only [List.length_take, List.length_drop]
        omega
      rw [List.append_assoc, List.cons_append, List.cons_append,
        readIpv6Addr_gap (by simp only [List.length_take, List.length_drop]; omega) hr, hcut,
        ← hz.eq_append]
    · exact readIpv6Addr_full hlen hr
  · have hchars := chars_of_some hm
    unfold toIpv4Mapped at hm
    split at hm
    · rename_i ab cd hsegs
      cases hm
      have hab := ab.toNat_lt
      have hcd := cd.toNat_lt
      have hhigh : ab.toNat / 256 < 256 ∧ ab.toNat % 256 < 256 := by omega
      have hlow : cd.toNat / 256 < 256 ∧ cd.toNat % 256 < 256 := by omega
      have hread := readIpv6Addr_mapped hhigh.1 hhigh.2 hlow.1 hlow.2 hr
      simp only [Nat.div_add_mod, UInt16.ofNat_toNat] at hread
      rw [hsegs, ← hread, hchars]
      simp [List.intercalate_cons_cons]
    · cases hm

theorem ofFn_segments (a : Ipv6Addr) :
    (⟨Vector.ofFn fun i : Fin 8 => a.segments.toList.getD i 0⟩ : Ipv6Addr) = a := by
  cases a with
  | mk segments =>
    refine congrArg Ipv6Addr.mk (Vector.ext fun i hi => ?_)
    rw [Vector.getElem_ofFn, List.getD_eq_getElem?_getD]
    simp [hi]

/-- The standard library reads the address it printed. -/
theorem fromStr_chars (a : Ipv6Addr) : Ipv6Addr.fromStr a.chars = some a := by
  have hends : Ends [] := ⟨breaks_nil 16, List.not_mem_nil, by simp⟩
  have hread := a.readIpv6Addr_chars hends
  rw [List.append_nil] at hread
  unfold Ipv6Addr.fromStr
  simp only [hread]
  rw [ofFn_segments]

end Ipv6Addr

/-- The text of a socket address is read as the address and the port. -/
theorem SocketAddrV6.fromStr_text (ip : Ipv6Addr) (port : UInt16) :
    SocketAddrV6.fromStr ('[' :: ip.chars ++ "]:".toList ++ Nat.toDigits 10 port.toNat)
      = some ⟨ip, port⟩ := by
  have hdigits : Nat.toDigits 10 port.toNat = Nat.toDigits 10 port.toNat ++ [] := by simp
  have hdot : '.' ∉ "]:".toList ++ Nat.toDigits 10 port.toNat := by
    rw [List.mem_append, not_or]
    exact ⟨by decide, Text.notMem_toDigits (by decide) (by decide) (by decide) _⟩
  have hends : Ends ("]:".toList ++ Nat.toDigits 10 port.toNat) :=
    ⟨breaks_cons (by decide) _, hdot, by simp⟩
  have hport : readLongNumber (2 ^ 16) (Nat.toDigits 10 port.toNat) = some (port.toNat, []) := by
    unfold readLongNumber
    conv_lhs => rw [hdigits]
    exact readNumber_toDigits (by decide) (by decide) (by simp) port.toNat_lt (breaks_nil 10)
  have hscope : readScopeId ("]:".toList ++ Nat.toDigits 10 port.toNat) = none := rfl
  have hread : readSocketAddrV6 ('[' :: ip.chars ++ "]:".toList ++ Nat.toDigits 10 port.toNat)
      = some (⟨ip, port⟩, []) := by
    unfold readSocketAddrV6
    rw [List.append_assoc, List.cons_append, readGivenChar, if_pos rfl, Option.bind_some,
      ip.readIpv6Addr_chars hends, Option.bind_some]
    simp only [hscope, Option.map_none, Option.getD_none]
    have hbracket : readGivenChar ']' ("]:".toList ++ Nat.toDigits 10 port.toNat)
        = some (':' :: Nat.toDigits 10 port.toNat) := rfl
    have hcolon : readPort (':' :: Nat.toDigits 10 port.toNat) = some (port.toNat, []) := by
      rw [readPort, readGivenChar, if_pos rfl, Option.bind_some, hport]
    rw [hbracket, Option.bind_some, hcolon, Option.map_some, ip.ofFn_segments, UInt16.ofNat_toNat]
  unfold SocketAddrV6.fromStr
  simp only [hread]

namespace Poll

/-- Whatever the addresses and the port are, the texts `coap_observer_register` prints of them are
read as the node's address with the port of its CoAP server, and the broker's with the port. -/
theorem registerAddrs_eq (omrAddr : Ipv6Addr) (port : UInt16) (ipAddr : Ipv6Addr) :
    registerAddrs omrAddr port ipAddr = some (⟨ipAddr, 1212⟩, ⟨omrAddr, port⟩) := by
  have hsend : SocketAddrV6.fromStr (ipWPort ipAddr) = some ⟨ipAddr, 1212⟩ := by
    have htext : ipWPort ipAddr
        = '[' :: ipAddr.chars ++ "]:".toList ++ Nat.toDigits 10 (1212 : UInt16).toNat := by
      have hport : "]:1212".toList = "]:".toList ++ Nat.toDigits 10 (1212 : UInt16).toNat := by
        decide +kernel
      rw [ipWPort, hport, List.append_assoc]
    rw [htext]
    exact SocketAddrV6.fromStr_text ipAddr 1212
  have haddr : SocketAddrV6.fromStr (addrText omrAddr port) = some ⟨omrAddr, port⟩ :=
    SocketAddrV6.fromStr_text omrAddr port
  rw [registerAddrs, hsend, haddr]
  rfl

end Poll

end Pmind
