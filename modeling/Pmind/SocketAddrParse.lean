import Pmind.AddrParse

/-!
# Socket addresses read from text

`coap_observer_register` prints the two addresses it works with, the node's and its own, and has the
standard library parse what it printed.
-/

namespace Pmind

namespace AddrParse

/-- A number of any length. -/
def readLongNumber (bound : ℕ) : Reader ℕ := fun s => readNumber 10 s.length true bound s

def readPort (s : List Char) : Option (ℕ × List Char) :=
  (readGivenChar ':' s).bind (readLongNumber (2 ^ 16))

def readScopeId (s : List Char) : Option (ℕ × List Char) :=
  (readGivenChar '%' s).bind (readLongNumber (2 ^ 32))

def readSocketAddrV6 : Reader SocketAddrV6 := fun s =>
  (readGivenChar '[' s).bind fun s =>
    (readIpv6Addr s).bind fun (groups, s) =>
      let s := ((readScopeId s).map Prod.snd).getD s
      (readGivenChar ']' s).bind fun s =>
        (readPort s).map fun (port, s) =>
          (⟨⟨Vector.ofFn fun i => groups.getD i 0⟩, UInt16.ofNat port⟩, s)

end AddrParse

/-- `from_str`: the whole text is a socket address. -/
def SocketAddrV6.fromStr (s : List Char) : Option SocketAddrV6 :=
  match AddrParse.readSocketAddrV6 s with
  | some (addr, []) => some addr
  | _ => none

namespace Poll

/-- `format!("[{}]:1212", ip_addr)`. -/
def ipWPort (ipAddr : Ipv6Addr) : List Char := '[' :: ipAddr.chars ++ "]:1212".toList

/-- `format!("[{}]:{}", omr_addr, port)`. -/
def addrText (omrAddr : Ipv6Addr) (port : UInt16) : List Char :=
  '[' :: omrAddr.chars ++ "]:".toList ++ Nat.toDigits 10 port.toNat

/-- The addresses `coap_observer_register` sends to and binds, if both texts parse. -/
def registerAddrs (omrAddr : Ipv6Addr) (port : UInt16) (ipAddr : Ipv6Addr) :
    Option (SocketAddrV6 × SocketAddrV6) :=
  (SocketAddrV6.fromStr (ipWPort ipAddr)).bind fun sendAddr =>
    (SocketAddrV6.fromStr (addrText omrAddr port)).map fun addr => (sendAddr, addr)

end Poll

end Pmind
