import Mathlib.Data.Fintype.Prod
import Pmind.Cli
import Pmind.Proofs.AddrParse

/-!
# Reading the child table

A table printed one child a line is read back as it was. Of any other text an entry comes from each
line that has an address, even where what stands before it is no number: then the rloc is 0.
-/

namespace Pmind

open Str AddrParse

namespace OtCliClient

/-! ## Printed tables -/

/-- A hexadecimal digit, in either case. -/
def hexChar (d : Fin 16 × Bool) : Char :=
  if d.2 then d.1.val.digitChar.toUpper else d.1.val.digitChar

inductive LineEnd where
  | lf
  | crlf
deriving DecidableEq

def LineEnd.cr : LineEnd → List Char
  | .lf => []
  | .crlf => ['\r']

def LineEnd.chars (e : LineEnd) : List Char := e.cr ++ ['\n']

/-- A line printed for a child: the rloc in some 1 to 4 digits, and any text its address is read
from. -/
structure ChildLine where
  rloc : Rloc
  ip : Ipv6Addr
  digits : List (Fin 16 × Bool)
  ipText : List Char
  lineEnd : LineEnd
  length_digits : 1 ≤ digits.length ∧ digits.length ≤ 4
  ofDigits_digits : ofDigits 16 (digits.map fun d => d.1.val) = rloc.toNat
  fromStr_ipText : Ipv6Addr.fromStr ipText = some ip

namespace ChildLine

def body (c : ChildLine) : List Char :=
  c.digits.map hexChar ++ separator ++ (c.ipText ++ c.lineEnd.cr)

def text (c : ChildLine) : List Char := c.body ++ ['\n']

def entry (c : ChildLine) : Rloc × Ipv6Addr := (c.rloc, c.ip)

/-- Any rloc can be printed: in four digits. -/
def ofRloc (rloc : Rloc) {ip : Ipv6Addr} {ipText : List Char}
    (h : Ipv6Addr.fromStr ipText = some ip) (lineEnd : LineEnd) : ChildLine where
  rloc := rloc
  ip := ip
  digits := [12, 8, 4, 0].map fun k => (Fin.ofNat 16 (rloc.toNat / 2 ^ k), false)
  ipText := ipText
  lineEnd := lineEnd
  length_digits := by simp
  ofDigits_digits := by
    have := rloc.toNat_lt
    simp [ofDigits]
    omega
  fromStr_ipText := h

end ChildLine

/-- The table and the line `Done`, which may lack its end. -/
def printed (lines : List ChildLine) (doneEnd : Option LineEnd) : List Char :=
  lines.flatMap ChildLine.text ++ (done ++ doneEnd.elim [] LineEnd.chars)

theorem toDigit_hexChar : ∀ d : Fin 16 × Bool, toDigit 16 (hexChar d) = some d.1.val := by
  decide

theorem mapM_hexChar : ∀ ds : List (Fin 16 × Bool),
    (ds.map hexChar).mapM (toDigit 16) = some (ds.map fun d => d.1.val)
  | [] => rfl
  | d :: ds => by
    rw [List.map_cons, List.mapM_cons, toDigit_hexChar, mapM_hexChar ds]
    rfl

theorem hexChar_ne : ∀ d : Fin 16 × Bool, hexChar d ≠ ':' ∧ hexChar d ≠ '\n' := by
  decide

namespace ChildLine

variable (c : ChildLine)

theorem not_isWhitespace_ipText {a : Char} (h : a ∈ c.ipText) : ¬ isWhitespace a :=
  (Ipv6Addr.addrChar_of_fromStr c.fromStr_ipText a h).not_isWhitespace

theorem newline_notMem_body : '\n' ∉ c.body := by
  intro h
  rcases List.mem_append.mp h with h | h
  · rcases List.mem_append.mp h with h | h
    · obtain ⟨d, -, hd⟩ := List.mem_map.mp h
      exact (hexChar_ne d).2 hd
    · exact absurd h (by decide)
  · rcases List.mem_append.mp h with h | h
    · exact c.not_isWhitespace_ipText h rfl
    · rcases he : c.lineEnd <;> rw [he] at h <;> exact absurd h (by decide)

theorem not_separator_isPrefix : ¬ separator <+: c.ipText ++ c.lineEnd.cr := by
  intro h
  have hmem : ' ' ∈ c.ipText ++ c.lineEnd.cr := h.mem (by decide)
  rcases List.mem_append.mp hmem with h | h
  · exact c.not_isWhitespace_ipText h rfl
  · rcases he : c.lineEnd <;> rw [he] at h <;> exact absurd h (by decide)

theorem trim_rest : trim (c.ipText ++ c.lineEnd.cr) = c.ipText := by
  have hself : trim c.ipText = c.ipText := trim_eq_self fun _ => c.not_isWhitespace_ipText
  rcases c.lineEnd
  · rw [LineEnd.cr, List.append_nil, hself]
  · rw [LineEnd.cr, trim_concat (by decide), hself]

theorem parseChildip_body : parseChildip c.body = some c.entry := by
  have hfind : find separator c.body = some (c.digits.map hexChar).length := by
    refine find_append _ fun h => ?_
    obtain ⟨d, -, hd⟩ := List.mem_map.mp h
    exact (hexChar_ne d).1 hd
  have hsplit : c.body.splitAt (c.digits.map hexChar).length
      = (c.digits.map hexChar, separator ++ (c.ipText ++ c.lineEnd.cr)) := by
    rw [List.splitAt_eq, body, List.append_assoc, List.take_left, List.drop_left]
  have hrloc : fromStrRadix 16 (2 ^ 16) (c.digits.map hexChar) = some c.rloc.toNat := by
    rw [← c.ofDigits_digits]
    refine fromStrRadix_eq (mapM_hexChar c.digits) ?_ ?_
    · intro hnil
      have hlen := c.length_digits.1
      rw [List.map_eq_nil_iff.mp hnil] at hlen
      exact absurd hlen (by decide)
    · rw [c.ofDigits_digits]
      exact c.rloc.toNat_lt
  have hrem : trimStartMatches separator (separator ++ (c.ipText ++ c.lineEnd.cr))
      = c.ipText ++ c.lineEnd.cr :=
    trimStartMatches_eq (by decide) c.not_separator_isPrefix 1
  simp only [parseChildip, hfind, hsplit, hrloc, hrem, c.trim_rest, c.fromStr_ipText, entry,
    Option.getD_some, UInt16.ofNat_toNat, Option.map_some]

end ChildLine

theorem splitOn_lines (rest : List Char) : ∀ lines : List ChildLine,
    (lines.flatMap ChildLine.text ++ rest).splitOn '\n'
      = lines.map ChildLine.body ++ rest.splitOn '\n'
  | [] => rfl
  | c :: lines => by
    rw [List.flatMap_cons, ChildLine.text, List.append_assoc, List.append_assoc,
      List.singleton_append, splitOn_cons_of_notMem c.newline_notMem_body, splitOn_lines rest lines]
    rfl

/-- What ends in a line break does not end in `Done`. -/
theorem not_done_isSuffix (s : List Char) : ¬ done <:+ s ++ ['\n'] := by
  rintro ⟨t, ht⟩
  have hlast := congrArg List.getLast? ht
  simp [done] at hlast

theorem trimEndMatches_printed (lines : List ChildLine) (doneEnd : Option LineEnd) :
    trimEndMatches done (printed lines doneEnd)
      = lines.flatMap ChildLine.text ++ doneEnd.elim [] fun e => done ++ e.chars := by
  rcases doneEnd with _ | e
  · have hlines : ¬ done <:+ lines.flatMap ChildLine.text := by
      rcases List.eq_nil_or_concat lines with rfl | ⟨lines, c, rfl⟩
      · decide
      · rw [List.concat_eq_append, List.flatMap_append, List.flatMap_singleton, ChildLine.text,
          ← List.append_assoc]
        exact not_done_isSuffix _
    simpa [printed] using trimEndMatches_eq (by decide) hlines 1
  · have hprinted : ¬ done <:+ printed lines (some e) := by
      rw [printed, Option.elim_some, LineEnd.chars, ← List.append_assoc, ← List.append_assoc]
      exact not_done_isSuffix _
    simpa [printed] using trimEndMatches_eq (by decide) hprinted 0

/-- Reading undoes printing. -/
theorem parseChildipOutput_printed (lines : List ChildLine) (doneEnd : Option LineEnd) :
    parseChildipOutput (printed lines doneEnd) = lines.map ChildLine.entry := by
  have hbody : (lines.map ChildLine.body).filterMap parseChildip = lines.map ChildLine.entry := by
    rw [List.filterMap_map, ← List.filterMap_eq_map]
    exact List.filterMap_congr fun c _ => c.parseChildip_body
  have hdone : ((doneEnd.elim [] fun e => done ++ e.chars).splitOn '\n').filterMap parseChildip
      = [] := by
    rcases doneEnd with _ | _ | _ <;> rfl
  rw [parseChildipOutput, trimEndMatches_printed, splitOn_lines, List.filterMap_append, hbody,
    hdone, List.append_nil]

/-- A child with the address `::1`. -/
def sampleLine : ChildLine :=
  .ofRloc 0xc04f (by decide : Ipv6Addr.fromStr [':', ':', '1'] = some Ipv6Addr.localhost) .crlf

example : printed [sampleLine] none = "c04f: ::1\r\nDone".toList
    ∧ parseChildipOutput (printed [sampleLine] none) = [(0xc04f, Ipv6Addr.localhost)] := by
  decide +kernel

/-! ## Any text -/

/-- The entry of a line whose part before the first separator is a number and whose remainder is an
address. -/
def entryOf (line : List Char) : Option (Rloc × Ipv6Addr) :=
  (find separator line).bind fun idx =>
    (fromStrRadix 16 (2 ^ 16) (line.take idx)).bind fun rloc =>
      (Ipv6Addr.fromStr (trim (line.drop (idx + separator.length)))).map fun ip =>
        (UInt16.ofNat rloc, ip)

/-- The entries are those of some of the lines, in order. -/
def InventsNothing (text : List Char) : Prop :=
  List.Sublist (parseChildipOutput text) ((text.splitOn '\n').filterMap entryOf)

/-- The address that comes after a line's separators. -/
def addressOf (line : List Char) : Option Ipv6Addr :=
  (find separator line).bind fun idx =>
    Ipv6Addr.fromStr (trim (trimStartMatches separator (line.drop idx)))

/-- Before a line's address stand a number and one separator. -/
def Numbered (line : List Char) : Prop :=
  (addressOf line).isSome → ∀ idx ∈ find separator line,
    (fromStrRadix 16 (2 ^ 16) (line.take idx)).isSome
      ∧ ¬ separator <+: line.drop (idx + separator.length)

/-- Every line is numbered, and no `Done` is cut from one with an address. -/
def AllNumbered (text : List Char) : Prop :=
  let cut := trimEndMatches done text
  (∀ line ∈ cut.splitOn '\n', Numbered line)
    ∧ (cut ≠ text → ∀ line ∈ (cut.splitOn '\n').getLast?, addressOf line = none)

/-! ## One line -/

theorem find_separator {line : List Char} {idx : ℕ} (h : find separator line = some idx) :
    line.drop idx = separator ++ line.drop (idx + separator.length) := by
  obtain ⟨rest, hrest⟩ := find_isPrefix h
  rw [← List.drop_drop, ← hrest, List.drop_left]

theorem parseChildip_of_find {line : List Char} {idx : ℕ} (h : find separator line = some idx) :
    parseChildip line = (addressOf line).map fun ip =>
      (UInt16.ofNat ((fromStrRadix 16 (2 ^ 16) (line.take idx)).getD 0), ip) := by
  simp only [parseChildip, addressOf, h, List.splitAt_eq, Option.bind_some]

theorem addressOf_of_find {line : List Char} {idx : ℕ} (h : find separator line = some idx)
    (hone : ¬ separator <+: line.drop (idx + separator.length)) :
    addressOf line = Ipv6Addr.fromStr (trim (line.drop (idx + separator.length))) := by
  have hstrip := trimStartMatches_eq (by decide) hone 1
  rw [List.replicate_one, List.flatten_singleton] at hstrip
  rw [addressOf, h, Option.bind_some, find_separator h, hstrip]

theorem parseChildip_isSome (line : List Char) :
    (parseChildip line).isSome = (addressOf line).isSome := by
  rcases h : find separator line with _ | idx
  · simp only [parseChildip, addressOf, h, Option.bind_none, Option.isSome_none]
  · rw [parseChildip_of_find h, Option.isSome_map]

/-- No address starts with a separator. -/
theorem fromStr_separator (s : List Char) : Ipv6Addr.fromStr (trim (separator ++ s)) = none := by
  rcases h : Ipv6Addr.fromStr (trim (separator ++ s)) with _ | ip
  · rfl
  · have hpre : trim (separator ++ s) <+: ':' :: ' ' :: s := trim_isPrefix (by decide) _
    have hspace : ' ' ∉ trim (separator ++ s) := fun hmem =>
      (Ipv6Addr.addrChar_of_fromStr h _ hmem).not_isWhitespace rfl
    rcases ht : trim (separator ++ s) with _ | ⟨a, _ | ⟨b, t⟩⟩ <;> rw [ht] at h hpre hspace
    · cases h
    · rw [(List.cons_prefix_cons.mp hpre).1] at h
      cases h
    · have hb := (List.cons_prefix_cons.mp (List.cons_prefix_cons.mp hpre).2).1
      rw [hb] at hspace
      exact absurd (by simp) hspace

/-- What a line's entry is, the parser gives. -/
theorem parseChildip_of_entryOf {line : List Char} {e : Rloc × Ipv6Addr}
    (h : entryOf line = some e) : parseChildip line = some e ∧ Numbered line := by
  obtain ⟨idx, hidx, h⟩ := Option.bind_eq_some_iff.mp h
  obtain ⟨rloc, hrloc, h⟩ := Option.bind_eq_some_iff.mp h
  obtain ⟨ip, hip, rfl⟩ := Option.map_eq_some_iff.mp h
  have hone : ¬ separator <+: line.drop (idx + separator.length) := by
    rintro ⟨s, hs⟩
    rw [← hs, fromStr_separator] at hip
    cases hip
  have haddr : addressOf line = some ip := (addressOf_of_find hidx hone).trans hip
  refine ⟨?_, fun _ idx' hidx' => ?_⟩
  · rw [parseChildip_of_find hidx, haddr, hrloc]
    rfl
  · rw [hidx, Option.mem_some] at hidx'
    rw [← hidx', hrloc]
    exact ⟨rfl, hone⟩

theorem entryOf_eq_iff (line : List Char) : entryOf line = parseChildip line ↔ Numbered line := by
  constructor
  · intro h haddr
    rw [← parseChildip_isSome] at haddr
    obtain ⟨e, he⟩ := Option.isSome_iff_exists.mp haddr
    exact (parseChildip_of_entryOf (h.trans he)).2 (by rwa [← parseChildip_isSome])
  · intro h
    rcases hfind : find separator line with _ | idx
    · simp only [entryOf, parseChildip, hfind, Option.bind_none]
    · rcases haddr : addressOf line with _ | ip
      · have hparse : parseChildip line = none := by rw [parseChildip_of_find hfind, haddr]; rfl
        rcases hentry : entryOf line with _ | e
        · exact hparse.symm
        · rw [(parseChildip_of_entryOf hentry).1] at hparse
          cases hparse
      · obtain ⟨hrloc, hone⟩ := h (by rw [haddr]; rfl) idx hfind
        obtain ⟨rloc, hrloc⟩ := Option.isSome_iff_exists.mp hrloc
        have hip := (addressOf_of_find hfind hone).symm.trans haddr
        rw [parseChildip_of_find hfind, haddr, hrloc]
        simp only [entryOf, hfind, hrloc, hip, Option.bind_some, Option.map_some,
          Option.getD_some]

/-- A line that ends in `Done` has no entry. -/
theorem entryOf_done (s : List Char) : entryOf (s ++ done) = none := by
  rcases h : entryOf (s ++ done) with _ | e
  · rfl
  · obtain ⟨idx, hidx, h⟩ := Option.bind_eq_some_iff.mp h
    obtain ⟨_, -, h⟩ := Option.bind_eq_some_iff.mp h
    obtain ⟨ip, hip, -⟩ := Option.map_eq_some_iff.mp h
    have hsuffix : done <:+ (s ++ done).drop (idx + separator.length) := by
      have hsep := find_separator hidx
      have hdrop : (s ++ done).drop idx <:+ s ++ done := List.drop_suffix _ _
      rw [hsep] at hdrop
      rcases List.suffix_or_suffix_of_suffix (List.suffix_append s done) hdrop with h | h
      · rcases List.suffix_cons_iff.mp h with h | h
        · exact absurd (List.cons.inj h).1 (by decide)
        · rcases List.suffix_cons_iff.mp h with h | h
          · exact absurd (List.cons.inj h).1 (by decide)
          · exact h
      · exact absurd (h.mem List.mem_cons_self) (by decide)
    have ho : 'o' ∈ trim ((s ++ done).drop (idx + separator.length)) :=
      mem_trim (by decide) (hsuffix.mem (by decide))
    rcases Ipv6Addr.addrChar_of_fromStr hip _ ho with h | h | h
    · exact absurd h (by decide)
    · exact absurd h (by decide)
    · exact absurd h (by decide)

/-! ## The text -/

theorem entryOf_sublist (lines : List (List Char)) :
    List.Sublist (lines.filterMap parseChildip) (lines.filterMap entryOf)
      ↔ ∀ line ∈ lines, Numbered line :=
  (filterMap_sublist_iff fun _ _ h => (parseChildip_of_entryOf h).1).trans
    (forall₂_congr fun line _ => entryOf_eq_iff line)

theorem inventsNothing_cut {text : List Char} {lines : List (List Char)} {last : List Char}
    (hcut : (trimEndMatches done text).splitOn '\n' = lines ++ [last])
    (htext : (text.splitOn '\n').filterMap entryOf = lines.filterMap entryOf) :
    InventsNothing text ↔ (∀ line ∈ lines, Numbered line) ∧ addressOf last = none := by
  unfold InventsNothing
  rw [parseChildipOutput, hcut, htext, List.filterMap_append]
  have hlast : [last].filterMap parseChildip = [] ↔ addressOf last = none := by
    have hsome := parseChildip_isSome last
    rcases hp : parseChildip last with _ | e <;> rcases ha : addressOf last with _ | ip <;>
      simp [hp, ha] at hsome ⊢
  rw [← hlast, ← entryOf_sublist]
  constructor
  · intro h
    have hsub := filterMap_sublist (f := entryOf) (g := parseChildip)
      (fun _ _ h => (parseChildip_of_entryOf h).1) lines
    have hle := (h.trans hsub).length_le
    rw [List.length_append] at hle
    have hnil : [last].filterMap parseChildip = [] := List.length_eq_zero_iff.mp (by omega)
    rw [hnil, List.append_nil] at h
    exact ⟨h, hnil⟩
  · rintro ⟨h, hnil⟩
    rwa [hnil, List.append_nil]

/-- The parser invents nothing exactly if every line with an address has a number and one separator
before it, and no `Done` after it. -/
theorem inventsNothing_iff (text : List Char) : InventsNothing text ↔ AllNumbered text := by
  have hne : done ≠ [] := by decide
  obtain ⟨k, hk⟩ := exists_trimEndMatches hne text
  rcases k with _ | k
  · have hcut : trimEndMatches done text = text := by simpa using hk.symm
    unfold InventsNothing AllNumbered parseChildipOutput
    simp only [hcut, ne_eq, not_true_eq_false, false_imp_iff, and_true]
    exact entryOf_sublist _
  · have hdone : (List.replicate (k + 1) done).flatten
        = (List.replicate k done).flatten ++ done := by
      rw [List.replicate_succ', List.flatten_append, List.flatten_singleton]
    have hline : '\n' ∉ (List.replicate (k + 1) done).flatten := by
      simp [done]
    obtain ⟨lines, last, hcut, htext⟩ := splitOn_append_of_notMem hline (trimEndMatches done text)
    rw [← hk, hdone, ← List.append_assoc] at htext
    have hentries : (text.splitOn '\n').filterMap entryOf = lines.filterMap entryOf := by
      rw [htext, List.filterMap_append, List.filterMap_cons_none (entryOf_done _),
        List.filterMap_nil, List.append_nil]
    have hcut' : trimEndMatches done text ≠ text := by
      intro heq
      have hlen := congrArg List.length hk
      rw [heq, hdone] at hlen
      simp [done] at hlen
    rw [inventsNothing_cut hcut hentries]
    unfold AllNumbered
    simp only [hcut, hcut', ne_eq, not_false_eq_true, true_imp_iff, List.getLast?_append,
      List.getLast?_singleton, Option.some_or, Option.mem_some, forall_eq',
      List.forall_mem_append, List.forall_mem_singleton]
    refine ⟨fun ⟨h, hlast⟩ => ⟨⟨h, fun haddr => ?_⟩, hlast⟩, fun h => ⟨h.1.1, h.2⟩⟩
    rw [hlast] at haddr
    cases haddr

/-- A line whose rloc is no number has an entry, with rloc 0. -/
theorem not_inventsNothing : parseChildipOutput ['z', 'z', ':', ' ', ':', ':', '1']
      = [(0, Ipv6Addr.localhost)]
    ∧ ¬ InventsNothing ['z', 'z', ':', ' ', ':', ':', '1'] := by
  unfold InventsNothing
  decide +kernel

end OtCliClient

end Pmind
