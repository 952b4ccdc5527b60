import Pmind.AddrParse

/-!
# The characters of an address

Every reader takes its text from the front, and only hexadecimal digits, colons and dots of it. So a
text that is read to its end has no other characters: no white space above all.
-/

namespace Pmind

namespace AddrParse

open Str

def AddrChar (c : Char) : Prop := (toDigit 16 c).isSome ∨ c = ':' ∨ c = '.'

/-- What is read stands before what is left. -/
def Reads (s rest : List Char) : Prop := ∃ read, s = read ++ rest ∧ ∀ c ∈ read, AddrChar c

variable {s t rest : List Char}

theorem Reads.rfl : Reads s s := ⟨[], by simp⟩

theorem Reads.trans (h : Reads s t) (h' : Reads t rest) : Reads s rest := by
  obtain ⟨a, rfl, ha⟩ := h
  obtain ⟨b, rfl, hb⟩ := h'
  exact ⟨a ++ b, by simp, fun c hc => (List.mem_append.mp hc).elim (ha c) (hb c)⟩

theorem toDigit_mono {radix : ℕ} (hr : radix ≤ 16) {c : Char} (h : (toDigit radix c).isSome) :
    (toDigit 16 c).isSome := by
  obtain ⟨d, hd⟩ := Option.isSome_iff_exists.mp h
  obtain ⟨hv, hlt⟩ := Option.filter_eq_some_iff.mp hd
  have hlt : d < radix := by simpa using hlt
  refine Option.isSome_iff_exists.mpr ⟨d, Option.filter_eq_some_iff.mpr ⟨hv, ?_⟩⟩
  simpa using hlt.trans_le hr

/-! ## The readers -/

theorem readGivenChar_reads {target : Char} (ht : AddrChar target)
    (h : readGivenChar target s = some rest) : Reads s rest := by
  rcases s with _ | ⟨c, s⟩
  · cases h
  · simp only [readGivenChar] at h
    split_ifs at h with hc
    cases h
    exact ⟨[c], List.singleton_append.symm, by simpa [hc] using ht⟩

theorem readSeparator_reads {τ : Type} {sep : Char} (hsep : AddrChar sep) {inner : Reader τ}
    (hinner : ∀ s x rest, inner s = some (x, rest) → Reads s rest) {i : ℕ} {x : τ}
    (h : readSeparator sep i inner s = some (x, rest)) : Reads s rest := by
  unfold readSeparator at h
  split_ifs at h
  · obtain ⟨t, ht, h⟩ := Option.bind_eq_some_iff.mp h
    exact (readGivenChar_reads hsep ht).trans (hinner t x rest h)
  · exact hinner s x rest h

theorem readNumber_reads {radix maxDigits bound : ℕ} {zero : Bool} (hr : radix ≤ 16) (s : List Char)
    (n : ℕ) (rest : List Char) (h : readNumber radix maxDigits zero bound s = some (n, rest)) :
    Reads s rest := by
  unfold readNumber at h
  simp only [] at h
  split_ifs at h
  cases h
  refine ⟨_, List.takeWhile_append_dropWhile.symm, fun c hc => ?_⟩
  have hdigit : (toDigit radix c).isSome := by simpa using List.mem_takeWhile_imp hc
  exact Or.inl (toDigit_mono hr hdigit)

theorem readOctets_reads : ∀ (left i : ℕ) (s : List Char) (octets : List ℕ) (rest : List Char),
    readOctets left i s = some (octets, rest) → Reads s rest
  | 0, i, s, octets, rest, h => by
    cases h
    exact Reads.rfl
  | left + 1, i, s, octets, rest, h => by
    obtain ⟨⟨octet, t⟩, ht, h⟩ := Option.bind_eq_some_iff.mp h
    obtain ⟨⟨octets, u⟩, hu, h⟩ := Option.map_eq_some_iff.mp h
    cases h
    have hdot : AddrChar '.' := Or.inr (Or.inr rfl)
    exact (readSeparator_reads hdot (readNumber_reads (by decide)) ht).trans
      (readOctets_reads left (i + 1) t octets rest hu)

theorem readGroups_reads : ∀ (left i : ℕ) (s : List Char), Reads s (readGroups left i s).2.2
  | 0, i, s => Reads.rfl
  | left + 1, i, s => by
    have hcolon : AddrChar ':' := Or.inr (Or.inl rfl)
    unfold readGroups
    split
    · rename_i octets t h
      split_ifs at h
      exact readSeparator_reads hcolon (readOctets_reads 4 0) h
    · split
      · rename_i group t h
        exact (readSeparator_reads hcolon (readNumber_reads (by decide)) h).trans
          (readGroups_reads left (i + 1) t)
      · exact Reads.rfl

theorem readIpv6Addr_reads {groups : List UInt16} (h : readIpv6Addr s = some (groups, rest)) :
    Reads s rest := by
  have hcolon : AddrChar ':' := Or.inr (Or.inl rfl)
  have hhead := readGroups_reads 8 0 s
  unfold readIpv6Addr at h
  simp only [] at h
  split_ifs at h
  · cases h
    exact hhead
  · obtain ⟨u, hu, h⟩ := Option.map_eq_some_iff.mp h
    obtain ⟨t, ht, hu⟩ := Option.bind_eq_some_iff.mp hu
    cases h
    have hcolons := (readGivenChar_reads hcolon ht).trans (readGivenChar_reads hcolon hu)
    exact (hhead.trans hcolons).trans (readGroups_reads _ 0 u)

end AddrParse

open AddrParse

theorem Ipv6Addr.addrChar_of_fromStr {s : List Char} {ip : Ipv6Addr}
    (h : Ipv6Addr.fromStr s = some ip) : ∀ c ∈ s, AddrChar c := by
  unfold Ipv6Addr.fromStr at h
  split at h
  · rename_i groups hr
    obtain ⟨read, rfl, hread⟩ := readIpv6Addr_reads hr
    simpa using hread
  · cases h

theorem AddrParse.AddrChar.not_isWhitespace {c : Char} (h : AddrChar c) : ¬ Str.isWhitespace c := by
  rcases h with h | rfl | rfl
  · exact Str.not_isWhitespace_of_toDigit h
  · decide
  · decide

end Pmind
