import Pmind.Net

/-!
# CoAP messages

What the broker and the nodes read and write of a `coap_lite` packet. Parsing, serialising and what
response a packet has as a request are `coap_lite`'s own, `CoapLite`.
-/

namespace Pmind

inductive MessageType where
  | confirmable
  | nonConfirmable
  | acknowledgement
  | reset
deriving DecidableEq, Repr

structure Packet where
  mtype : MessageType
  /-- The code byte: class in the upper three bits, detail in the lower five. -/
  code : UInt8
  messageId : UInt16
  token : List UInt8
  observe : Option Nat
  uriPath : List String
  payload : List UInt8
deriving DecidableEq, Repr

namespace Packet

/-- `RequestType::Get`, 0.01. -/
def codeGet : UInt8 := 0x01

/-- `ResponseType::Content`, 2.05. -/
def codeContent : UInt8 := 0x45

/-- `ObserveOption::Register`. -/
def observeRegister : Nat := 0

end Packet

/-- `coap_lite`'s `Packet::from_bytes` and `Packet::to_bytes`, and the message of the response that
`CoapRequest::from_packet` makes for a packet, if it makes one. -/
structure CoapLite where
  fromBytes : List UInt8 → Option Packet
  toBytes : Packet → Option (List UInt8)
  response : Packet → Option Packet

/-! ## The messages on the wire -/

def MessageType.bits : MessageType → UInt8
  | .confirmable => 0x00
  | .nonConfirmable => 0x10
  | .acknowledgement => 0x20
  | .reset => 0x30

/-- The response to a confirmable or a non-confirmable request. -/
def Packet.response (request : Packet) : Option Packet :=
  let reply (mtype : MessageType) : Packet :=
    { mtype, code := codeContent, messageId := request.messageId, token := request.token,
      observe := none, uriPath := [], payload := request.payload }
  match request.mtype with
  | .confirmable => some (reply .acknowledgement)
  | .nonConfirmable => some (reply .nonConfirmable)
  | .acknowledgement | .reset => none

/-- The bytes of the registration request and of the reply to it, to run the model with: version,
type and token length, code, message id, token, the Observe and Uri-Path options of the request,
and after `0xff` the payload. -/
def CoapLite.wire : CoapLite where
  response := Packet.response
  toBytes p := some <|
    (0x40 + p.mtype.bits + UInt8.ofNat p.token.length) :: p.code :: (p.messageId >>> 8).toUInt8 ::
      p.messageId.toUInt8 :: p.token
      ++ (if p.observe = some 0 ∧ p.uriPath = ["soilmoisture"] then
          0x60 :: 0x5c :: "soilmoisture".toList.map fun c => UInt8.ofNat c.toNat else [])
      ++ (if p.payload = [] then [] else 0xff :: p.payload)
  fromBytes
    | 0x44 :: code :: hi :: lo :: t₀ :: t₁ :: t₂ :: t₃ :: 0x60 :: 0x5c :: path =>
      if path = "soilmoisture".toList.map fun c => UInt8.ofNat c.toNat then
        some ⟨.confirmable, code, hi.toUInt16 <<< 8 ||| lo.toUInt16, [t₀, t₁, t₂, t₃], some 0,
          ["soilmoisture"], []⟩
      else none
    | 0x64 :: code :: hi :: lo :: t₀ :: t₁ :: t₂ :: t₃ :: 0xff :: b :: payload =>
      some ⟨.acknowledgement, code, hi.toUInt16 <<< 8 ||| lo.toUInt16, [t₀, t₁, t₂, t₃], none, [],
        b :: payload⟩
    | _ => none

end Pmind
