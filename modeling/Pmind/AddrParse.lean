import Pmind.Lib.Str
import Pmind.Net

/-!
# Addresses read from text

The standard library's parser for an IPv6 address: up to eight groups of at most four hexadecimal
digits, the last two possibly written as an IPv4 address, and `::` once for one or more groups of
zeros. A reader gives what it read and the text after it; one that gives `none` has read nothing.
-/

namespace Pmind

namespace AddrParse

abbrev Reader (τ : Type) := List Char → Option (τ × List Char)

def readGivenChar (target : Char) : List Char → Option (List Char)
  | c :: s => if c = target then some s else none
  | [] => none

/-- Reads the separator first, except before the first of a series. -/
def readSeparator {τ : Type} (sep : Char) (index : ℕ) (inner : Reader τ) : Reader τ := fun s =>
  if 0 < index then (readGivenChar sep s).bind inner else inner s

def readNumber (radix maxDigits : ℕ) (allowZeroPrefix : Bool) (bound : ℕ) : Reader ℕ := fun s =>
  let digits := s.takeWhile fun c => (Str.toDigit radix c).isSome
  let hasLeadingZero := s.head? = some '0'
  let result := Str.ofDigits radix (digits.filterMap (Str.toDigit radix))
  if digits.length = 0 ∨ maxDigits < digits.length then none
  else if ¬ allowZeroPrefix ∧ hasLeadingZero ∧ 1 < digits.length then none
  else if result < bound then some (result, s.dropWhile fun c => (Str.toDigit radix c).isSome)
  else none

/-- The octets of an IPv4 address from index `i` on, `left` of them. -/
def readOctets : (left i : ℕ) → Reader (List ℕ)
  | 0, _, s => some ([], s)
  | left + 1, i, s =>
    (readSeparator '.' i (readNumber 10 3 false 256) s).bind fun (octet, s) =>
      (readOctets left (i + 1) s).map fun (octets, s) => (octet :: octets, s)

def readIpv4Addr : Reader (List ℕ) := readOctets 4 0

/-- Two octets to a group. -/
def groupsOfOctets : List ℕ → List UInt16
  | one :: two :: octets => UInt16.ofNat (256 * one + two) :: groupsOfOctets octets
  | _ => []

/-- The groups from index `i` on, `left` of them at most, and whether the last two were read as an
IPv4 address. -/
def readGroups : (left i : ℕ) → List Char → List UInt16 × Bool × List Char
  | 0, _, s => ([], false, s)
  | left + 1, i, s =>
    match (if 0 < left then readSeparator ':' i readIpv4Addr s else none) with
    | some (octets, s) => (groupsOfOctets octets, true, s)
    | none =>
      match readSeparator ':' i (readNumber 16 4 true (2 ^ 16)) s with
      | some (group, s) =>
        let (groups, ipv4, s) := readGroups left (i + 1) s
        (UInt16.ofNat group :: groups, ipv4, s)
      | none => ([], false, s)

def readIpv6Addr : Reader (List UInt16) := fun s =>
  let (head, headIpv4, s) := readGroups 8 0 s
  if head.length = 8 then some (head, s)
  else if headIpv4 then none
  else ((readGivenChar ':' s).bind (readGivenChar ':')).map fun s =>
    let (tail, _, s) := readGroups (8 - (head.length + 1)) 0 s
    (head ++ List.replicate (8 - head.length - tail.length) 0 ++ tail, s)

end AddrParse

/-- `from_str`: the whole text is an address. -/
def Ipv6Addr.fromStr (s : List Char) : Option Ipv6Addr :=
  match AddrParse.readIpv6Addr s with
  | some (groups, []) => some ⟨Vector.ofFn fun i => groups.getD i 0⟩
  | _ => none

end Pmind
