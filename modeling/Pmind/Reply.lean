import Pmind.Router

/-!
# The reply, slice by slice

What the poll loop makes of a datagram on the registration socket, from `Packet::from_bytes` to the
registration it sends on: `coap_observer_register` takes the EUI and the name out of the payload,
`spawn_child_mon_task` cuts the name and makes a `String` of it. A slice out of range panics.
-/

namespace Pmind

namespace Reply

/-- `&l[..i]`. -/
def sliceTo (l : List UInt8) (i : ℕ) : Option (List UInt8) :=
  if i ≤ l.length then some (l.take i) else none

/-- `&l[i..]`. -/
def sliceFrom (l : List UInt8) (i : ℕ) : Option (List UInt8) :=
  if i ≤ l.length then some (l.drop i) else none

/-- `copy_from_slice` to an EUI: the lengths must agree. -/
def copyFromSlice (src : List UInt8) : Option Eui :=
  if h : src.length = 6 then some ⟨src.toArray, h⟩ else none

def ofPayload (payload : List UInt8) : Option (Eui × List UInt8) := do
  let eui ← if 6 ≤ payload.length then (sliceTo payload 6).bind copyFromSlice
    else some (Vector.replicate 6 0)
  let name ← sliceFrom payload 6
  return (eui, name)

def coapObserverRegister (coap : CoapLite) (buffer : List UInt8) : Option (Eui × List UInt8) :=
  match coap.fromBytes buffer with
  | some packet => ofPayload packet.payload
  | none => some (Vector.replicate 6 0, [])

/-- `name.drain(MAX_PLANT_NAME_SIZE..)`, and `String::from_utf8(name).unwrap_or_default()`. -/
def shorten (name : List UInt8) : Option String := do
  let name ← if maxPlantNameSize < name.length then sliceTo name maxPlantNameSize else some name
  return (String.fromUTF8? ⟨name.toArray⟩).getD ""

/-- What is registered of an EUI and the bytes of a name. -/
def registration : Eui × List UInt8 → Option (Eui × String)
  | (eui, name) => (shorten name).map fun name => (eui, name)

end Reply

end Pmind
