import Pmind.AddrParse
import Pmind.Monitor

/-!
# The CLI client

`OtCliClient` runs `ot-ctl` and reads what it prints. A value is what the commands print if they
are run now, or the error they end with; the prefix is kept as the `ipnet` crate reads it, since its
parser is not part of the repository.
-/

namespace Pmind

structure OtCliClient where
  childip : Except OtClientError (List Char)
  omrPrefix : Except OtClientError Ipv6Net
  ipaddr : Except OtClientError (List Char)

namespace OtCliClient

def separator : List Char := [':', ' ']

def done : List Char := ['D', 'o', 'n', 'e']

/-- What a line of the child table holds. -/
def parseChildip (l : List Char) : Option (Rloc × Ipv6Addr) :=
  match Str.find separator l with
  | some idx =>
    let (rloc, rem) := l.splitAt idx
    let rloc := UInt16.ofNat ((Str.fromStrRadix 16 (2 ^ 16) rloc).getD 0)
    let rem := Str.trimStartMatches separator rem
    let rem := Str.trim rem
    (Ipv6Addr.fromStr rem).map fun ip => (rloc, ip)
  | none => none

def parseChildipOutput (res : List Char) : List (Rloc × Ipv6Addr) :=
  let res := Str.trimEndMatches done res
  let lines := res.splitOn '\n'
  lines.filterMap parseChildip

def getChildrenFromCli (self : OtCliClient) : Except OtClientError (List (Rloc × Ipv6Addr)) :=
  self.childip.map parseChildipOutput

/-- `parse` is the `ipnet` crate's. -/
def parsePrefixOutput (parse : List Char → Option Ipv6Net) (res : List Char) :
    Except OtClientError Ipv6Net :=
  let res := Str.trimEndMatches done res
  match res.splitOn ' ' with
  | [] => .error (.otClientErr "No prefix is currently set")
  | elem :: _ =>
    match parse elem with
    | some omrPrefix => .ok omrPrefix
    | none => .error .addrParse

def getOmrPrefixFromCli (self : OtCliClient) : Except OtClientError Ipv6Net := self.omrPrefix

def parseIpaddrOutput (res : List Char) : List Ipv6Addr :=
  let res := Str.trimEndMatches done res
  let elems := res.splitOn '\n'
  elems.filterMap fun i => Ipv6Addr.fromStr (Str.trim i)

def getIpAddrsFromCli (self : OtCliClient) : Except OtClientError (List Ipv6Addr) :=
  self.ipaddr.map parseIpaddrOutput

def getOmrIpAddrFromCli (self : OtCliClient) : Except OtClientError Ipv6Addr :=
  match self.getOmrPrefixFromCli with
  | .error e => .error e
  | .ok omrPrefix =>
    match self.getIpAddrsFromCli with
    | .error e => .error e
    | .ok ips =>
      match ips.find? fun i => i.segment0 = omrPrefix.addr.segment0 with
      | some ip => .ok ip
      | none => .error (.otClientErr "No matching prefix found")

/-- `impl OtClient for OtCliClient`. -/
def otClient (self : OtCliClient) : OtClient where
  getChildIps := self.getChildrenFromCli
  getOmrPrefix := self.getOmrPrefixFromCli
  getOmrIp := self.getOmrIpAddrFromCli

end OtCliClient

end Pmind
