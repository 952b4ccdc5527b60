import Pmind.Proofs.AddrText
import Pmind.Proofs.Children

/-!
# The broker's own address

`ot-ctl` prints the prefix, and then the addresses of the interface one a line. They are read back
as they were, and the first of them that agrees with the prefix in its first segment is taken.
-/

namespace Pmind

open Str AddrParse

namespace OtCliClient

/-- A line printed for an address: any text it is read from. -/
structure AddrLine where
  ip : Ipv6Addr
  ipText : List Char
  lineEnd : LineEnd
  fromStr_ipText : Ipv6Addr.fromStr ipText = some ip

namespace AddrLine

/-- The standard library's own text of an address will do. -/
def ofAddr (ip : Ipv6Addr) (lineEnd : LineEnd) : AddrLine :=
  ⟨ip, ip.chars, lineEnd, ip.fromStr_chars⟩

variable (a : AddrLine)

def body : List Char := a.ipText ++ a.lineEnd.cr

theorem not_isWhitespace {c : Char} (h : c ∈ a.ipText) : ¬ isWhitespace c :=
  (Ipv6Addr.addrChar_of_fromStr a.fromStr_ipText c h).not_isWhitespace

theorem newline_notMem_body : '\n' ∉ a.body := by
  intro h
  rcases List.mem_append.mp h with h | h
  · exact a.not_isWhitespace h rfl
  · rcases he : a.lineEnd <;> rw [he] at h <;> exact absurd h (by decide)

theorem fromStr_body : Ipv6Addr.fromStr (trim a.body) = some a.ip := by
  have hself : trim a.ipText = a.ipText := trim_eq_self fun _ => a.not_isWhitespace
  have htrim : trim a.body = a.ipText := by
    unfold body
    rcases a.lineEnd
    · rw [LineEnd.cr, List.append_nil, hself]
    · rw [LineEnd.cr, trim_concat (by decide), hself]
  rw [htrim, a.fromStr_ipText]

end AddrLine

/-- The addresses and the line `Done`, which may lack its end. -/
def printedAddrs (lines : List AddrLine) (doneEnd : Option LineEnd) : List Char :=
  (lines.map AddrLine.body).flatMap (fun line => line ++ ['\n'])
    ++ (done ++ doneEnd.elim [] LineEnd.chars)

theorem trimEndMatches_printedAddrs (lines : List AddrLine) (doneEnd : Option LineEnd) :
    trimEndMatches done (printedAddrs lines doneEnd)
      = (lines.map AddrLine.body).flatMap (fun line => line ++ ['\n'])
        ++ doneEnd.elim [] fun e => done ++ e.chars := by
  rcases doneEnd with _ | e
  · have hlines : ¬ done <:+ (lines.map AddrLine.body).flatMap (fun line => line ++ ['\n']) := by
      rcases List.eq_nil_or_concat lines with rfl | ⟨lines, a, rfl⟩
      · decide
      · rw [List.concat_eq_append, List.map_append, List.flatMap_append, List.map_singleton,
          List.flatMap_singleton, ← List.append_assoc]
        exact not_done_isSuffix _
    simpa [printedAddrs] using trimEndMatches_eq (by decide) hlines 1
  · have hprinted : ¬ done <:+ printedAddrs lines (some e) := by
      rw [printedAddrs, Option.elim_some, LineEnd.chars, ← List.append_assoc, ← List.append_assoc]
      exact not_done_isSuffix _
    simpa [printedAddrs] using trimEndMatches_eq (by decide) hprinted 0

theorem parseIpaddrOutput_printed (lines : List AddrLine) (doneEnd : Option LineEnd) :
    parseIpaddrOutput (printedAddrs lines doneEnd) = lines.map AddrLine.ip := by
  have hbody : (lines.map AddrLine.body).filterMap (fun i => Ipv6Addr.fromStr (trim i))
      = lines.map AddrLine.ip := by
    rw [List.filterMap_map, ← List.filterMap_eq_map]
    exact List.filterMap_congr fun a _ => a.fromStr_body
  have hdone : ((doneEnd.elim [] fun e => done ++ e.chars).splitOn '\n').filterMap
      (fun i => Ipv6Addr.fromStr (trim i)) = [] := by
    rcases doneEnd with _ | _ | _ <;> rfl
  have hlines : ∀ line ∈ lines.map AddrLine.body, '\n' ∉ line := fun line h => by
    obtain ⟨a, -, rfl⟩ := List.mem_map.mp h
    exact a.newline_notMem_body
  rw [parseIpaddrOutput, trimEndMatches_printedAddrs, splitOn_flatMap _ hlines,
    List.filterMap_append, hbody, hdone, List.append_nil]

/-! ## The prefix -/

/-- Stripping `Done` leaves a space and what stands before it. -/
theorem trimEndMatches_word (word rest : List Char) :
    ∃ rest', trimEndMatches done (word ++ ' ' :: rest) = word ++ ' ' :: rest' := by
  have hdone : done ≠ [] := by decide
  obtain ⟨k, hk⟩ := exists_trimEndMatches hdone (word ++ ' ' :: rest)
  have hspace : ' ' ∉ (List.replicate k done).flatten := by
    intro h
    obtain ⟨l, hl, hmem⟩ := List.mem_flatten.mp h
    rw [List.eq_of_mem_replicate hl] at hmem
    exact absurd hmem (by decide)
  rcases List.append_eq_append_iff.mp hk with ⟨cut, htrim, hcut⟩ | ⟨cut, hword, hcut⟩
  · rcases cut with _ | ⟨c, cut⟩
    · rw [List.nil_append] at hcut
      exact absurd (hcut ▸ List.mem_cons_self) hspace
    · cases hcut
      exact ⟨cut, htrim⟩
  · exact absurd (hcut ▸ List.mem_append_right cut List.mem_cons_self) hspace

/-- The prefix is the first word, whatever comes after it. -/
theorem parsePrefixOutput_word {parse : List Char → Option Ipv6Net} {word : List Char}
    (hword : ' ' ∉ word) {omrPrefix : Ipv6Net} (hparse : parse word = some omrPrefix)
    (rest : List Char) : parsePrefixOutput parse (word ++ ' ' :: rest) = .ok omrPrefix := by
  obtain ⟨rest', htrim⟩ := trimEndMatches_word word rest
  simp only [parsePrefixOutput, htrim, splitOn_cons_of_notMem hword, hparse]

/-! ## The address -/

/-- The client whose commands print this prefix and these addresses. -/
def printing (childip : Except OtClientError (List Char)) (parse : List Char → Option Ipv6Net)
    (omrPrefix : List Char) (lines : List AddrLine) (doneEnd : Option LineEnd) : OtCliClient :=
  ⟨childip, parsePrefixOutput parse omrPrefix, .ok (printedAddrs lines doneEnd)⟩

/-- Where the prefix is printed first and the addresses one a line, all of them are read, and the
broker's address is the first of them that has the prefix's first segment. -/
theorem getOmrIp_printed (childip : Except OtClientError (List Char))
    (parse : List Char → Option Ipv6Net) (word rest : List Char) (hword : ' ' ∉ word)
    (omrPrefix : Ipv6Net) (hparse : parse word = some omrPrefix) (lines : List AddrLine)
    (doneEnd : Option LineEnd) :
    (printing childip parse (word ++ ' ' :: rest) lines doneEnd).getIpAddrsFromCli
        = .ok (lines.map AddrLine.ip)
      ∧ (∀ ip, (printing childip parse (word ++ ' ' :: rest) lines doneEnd).getOmrIpAddrFromCli
          = .ok ip ↔ ip.segment0 = omrPrefix.addr.segment0
            ∧ ∃ before after, lines.map AddrLine.ip = before ++ ip :: after
              ∧ ∀ b ∈ before, b.segment0 ≠ omrPrefix.addr.segment0)
      ∧ ((∀ ip, (printing childip parse (word ++ ' ' :: rest) lines doneEnd).getOmrIpAddrFromCli
          ≠ .ok ip) ↔ ∀ a ∈ lines, a.ip.segment0 ≠ omrPrefix.addr.segment0) := by
  have hips : (printing childip parse (word ++ ' ' :: rest) lines doneEnd).getIpAddrsFromCli
      = .ok (lines.map AddrLine.ip) := by
    simp only [printing, getIpAddrsFromCli, Except.map, parseIpaddrOutput_printed]
  have homr : (printing childip parse (word ++ ' ' :: rest) lines doneEnd).getOmrPrefixFromCli
      = .ok omrPrefix := parsePrefixOutput_word hword hparse rest
  have hget : ∀ ip, (printing childip parse (word ++ ' ' :: rest) lines doneEnd).getOmrIpAddrFromCli
      = .ok ip ↔ (lines.map AddrLine.ip).find?
        (fun i => i.segment0 = omrPrefix.addr.segment0) = some ip := fun ip => by
    simp only [getOmrIpAddrFromCli, homr, hips]
    split
    · rename_i ip' hf
      rw [hf, Except.ok.injEq, Option.some.injEq]
    · rename_i hf
      simp only [hf, reduceCtorEq]
  refine ⟨hips, fun ip => ?_, ?_⟩
  · rw [hget, List.find?_eq_some_iff_append]
    simp
  · simp only [ne_eq, hget]
    rw [← Option.eq_none_iff_forall_ne_some, List.find?_eq_none]
    simp

/-- A prefix and an address, printed as `ot-ctl` does. -/
theorem getOmrIp_sample :
    let omrPrefix : Ipv6Net := ⟨.new 0xfd00 0 0 0 0 0 0 0, 64⟩
    let ip := Ipv6Addr.new 0xfd00 0 0 0 0 0 0 9
    let client := printing (.error .io) (fun _ => some omrPrefix)
      ("fd00::/64".toList ++ ' ' :: "paos low 4400\r\nDone".toList)
      [.ofAddr .localhost .crlf, .ofAddr ip .crlf] none
    client.getIpAddrsFromCli = .ok [.localhost, ip] ∧ client.getOmrIpAddrFromCli = .ok ip := by
  intro omrPrefix ip client
  obtain ⟨hips, hget, -⟩ := getOmrIp_printed (.error .io) (fun _ => some omrPrefix)
    "fd00::/64".toList "paos low 4400\r\nDone".toList (by decide) omrPrefix rfl
    [.ofAddr .localhost .crlf, .ofAddr ip .crlf] none
  exact ⟨hips, (hget ip).mpr ⟨rfl, [.localhost], [], rfl, by decide⟩⟩

end OtCliClient

end Pmind
