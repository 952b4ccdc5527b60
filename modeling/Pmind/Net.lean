import Mathlib.Data.Vector.Basic
import Mathlib.Data.Nat.Digits.Defs

/-!
# Addresses and identifiers

The identifiers the broker, the database and the front end share, and the text the standard
library prints for an IPv6 address: eight hexadecimal segments separated by colons, the longest
run of two or more zero segments (the first of them, if several) written `::`, and an IPv4-mapped
address as `::ffff:` and the dotted quad.
-/

namespace Pmind

/-- The Extended Unique Identifier of a node, which persists across resets. -/
abbrev Eui := Vector UInt8 6

def Eui.of (a b c d e f : UInt8) : Eui := #v[a, b, c, d, e, f]

abbrev Rloc := UInt16

/-- An IPv6 address: `segments()`. -/
structure Ipv6Addr where
  segments : Vector UInt16 8
deriving DecidableEq, Repr

namespace Ipv6Addr

def new (a b c d e f g h : UInt16) : Ipv6Addr := ⟨#v[a, b, c, d, e, f, g, h]⟩

def segment0 (a : Ipv6Addr) : UInt16 := a.segments[0]

def localhost : Ipv6Addr := new 0 0 0 0 0 0 0 1

def isLoopback (a : Ipv6Addr) : Bool := a == localhost

/-- `{:x}` of a segment. -/
def hex (s : UInt16) : List Char := Nat.toDigits 16 s.toNat

/-- `fmt_subslice`: segments in hexadecimal, separated by colons. -/
def fmtSubslice : List UInt16 → List Char
  | [] => []
  | first :: tail => hex first ++ tail.flatMap fun s => ':' :: hex s

structure Span where
  start : Nat
  len : Nat
deriving DecidableEq

/-- The longest run of zero segments from index `i` on, given the longest and the current run
before it. -/
def zeroSpan : (i : Nat) → (longest current : Span) → List UInt16 → Span
  | _, longest, _, [] => longest
  | i, longest, current, s :: rest =>
    if s = 0 then
      let current : Span := ⟨if current.len = 0 then i else current.start, current.len + 1⟩
      zeroSpan (i + 1) (if longest.len < current.len then current else longest) current rest
    else
      zeroSpan (i + 1) longest ⟨0, 0⟩ rest

def toIpv4Mapped (a : Ipv6Addr) : Option (Nat × Nat × Nat × Nat) :=
  match a.segments.toList with
  | [0, 0, 0, 0, 0, 0xffff, ab, cd] =>
    some (ab.toNat / 256, ab.toNat % 256, cd.toNat / 256, cd.toNat % 256)
  | _ => none

/-- The characters `to_string` prints. -/
def chars (a : Ipv6Addr) : List Char :=
  match a.toIpv4Mapped with
  | some (o₀, o₁, o₂, o₃) =>
    "::ffff:".toList ++ Nat.toDigits 10 o₀ ++ '.' :: Nat.toDigits 10 o₁ ++
      '.' :: Nat.toDigits 10 o₂ ++ '.' :: Nat.toDigits 10 o₃
  | none =>
    let segments := a.segments.toList
    let zeroes := zeroSpan 0 ⟨0, 0⟩ ⟨0, 0⟩ segments
    if 1 < zeroes.len then
      fmtSubslice (segments.take zeroes.start) ++ ':' :: ':' ::
        fmtSubslice (segments.drop (zeroes.start + zeroes.len))
    else
      fmtSubslice segments

def toText (a : Ipv6Addr) : String := String.ofList a.chars

end Ipv6Addr

/-- A socket address; the flow label and scope id, which nothing reads, are left out. -/
structure SocketAddrV6 where
  ip : Ipv6Addr
  port : UInt16
deriving DecidableEq, Repr

/-- A network prefix: `addr()` is the address written before the slash. -/
structure Ipv6Net where
  addr : Ipv6Addr
  prefixLen : Nat
deriving DecidableEq, Repr

end Pmind
