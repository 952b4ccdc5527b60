import Pmind.Lib.Utf8
import Pmind.Platform
import Pmind.Proofs.Registering
import Pmind.Reply

/-!
# What becomes of a reply

The payload is checked for the EUI but not for the name behind it, so one of less than six bytes
ends the poll task. The name is cut between bytes, not characters: it arrives as the longest prefix
that fits if a character happens to end there, and empty if not.
-/

namespace Pmind

open Transition Utf8

namespace Reply

theorem copyFromSlice_take {payload : List UInt8} (h : 6 ≤ payload.length) :
    copyFromSlice (payload.take 6) = some (Poll.euiOf payload) := by
  have hlen : (payload.take 6).length = 6 := by
    rw [List.length_take]
    omega
  rw [copyFromSlice, dif_pos hlen, Option.some.injEq]
  ext i hi
  simp [Poll.euiOf, List.getD, show i < payload.length by omega]

theorem ofPayload_eq (payload : List UInt8) :
    ofPayload payload
      = if 6 ≤ payload.length then some (Poll.euiOf payload, payload.drop 6) else none := by
  unfold ofPayload
  split_ifs with h
  · simp [sliceTo, sliceFrom, h, copyFromSlice_take h]
  · simp [sliceFrom, h]

theorem shorten_eq (name : List UInt8) : shorten name = some (Poll.plantName name) := by
  unfold shorten Poll.plantName
  split_ifs with h
  · simp [sliceTo, h.le]
  · rw [List.take_of_length_le (by omega)]
    rfl

theorem coapObserverRegister_isSome {coap : CoapLite} {buffer : List UInt8} :
    (coapObserverRegister coap buffer).isSome
      ↔ ∀ packet ∈ coap.fromBytes buffer, 6 ≤ packet.payload.length := by
  unfold coapObserverRegister
  rcases coap.fromBytes buffer with _ | packet
  · simp
  · simp only [ofPayload_eq, Option.mem_some, forall_eq']
    split_ifs with h <;> simp [h]

end Reply

namespace Poll

open Reply

variable {coap : CoapLite}

theorem recv_eq (coap : CoapLite) {d : Received} (hd : d.bytes ≠ []) (call : Call)
    (rcvd : List Received) :
    recv coap call rcvd d
      = match coapObserverRegister coap (d.bytes.take bufferSize) with
        | some (eui, name) =>
          .registerNode call ⟨eui, name, rcvd ++ [{ d with bytes := d.bytes.take bufferSize }]⟩
        | none => .exited := by
  have htake : d.bytes.take bufferSize ≠ [] := by simp [hd, bufferSize]
  simp only [recv, htake, if_false, coapObserverRegister, ofPayload_eq]
  rcases coap.fromBytes (d.bytes.take bufferSize) with _ | packet
  · rfl
  · by_cases h : 6 ≤ packet.payload.length <;> simp only [h, if_true, if_false]

/-- An acknowledgement of the request on port 1213. -/
def ackOf (payload : List UInt8) : List UInt8 :=
  [0x64, 0x45, 0x04, 0xbd, 0xfa, 0xce, 0xbe, 0xef, 0xff] ++ payload

/-- What a call does from a datagram on its socket to the registration it sends on. -/
def registerWith (d : Received) : List PollEvent := [.recv d, .registerNode, .newHandler, .emit]

/-- The call comes to send on the registration that is read from the datagram. -/
def Completes (coap : CoapLite) (m : OtMonitor) (call : Call) (pc : RegisterPc)
    (rcvd : List Received) (d : Received) : Prop :=
  ∃ s eui name received, run (step coap) ⟨m, .attempt call pc rcvd⟩ (registerWith d) = some s
    ∧ (coapObserverRegister coap (d.bytes.take bufferSize)).bind registration = some (eui, name)
    ∧ outputs (step coap) emitted ⟨m, .attempt call pc rcvd⟩ (registerWith d)
      = [⟨eui, call.ip, name, received⟩]

theorem run_registerWith {m : OtMonitor} {call : Call} {pc : RegisterPc} {rcvd : List Received}
    {d : Received} {answer : Answer} (hpc : pc = .select ∨ pc = .retry)
    (h : recv coap call rcvd d = .registerNode call answer) :
    run (step coap) ⟨m, .attempt call pc rcvd⟩ (registerWith d)
        = some ⟨m.registerNode ⟨call.rloc, call.ip, call.port, answer.eui⟩,
            next call.omrAddr (call.index + 1) call.rest⟩
      ∧ outputs (step coap) emitted ⟨m, .attempt call pc rcvd⟩ (registerWith d)
        = [⟨answer.eui, call.ip, plantName answer.name, answer.received⟩] := by
  have hstep : step coap ⟨m, .attempt call pc rcvd⟩ (.recv d)
      = some ⟨m, .registerNode call answer⟩ := by
    rw [← h]
    rcases hpc with rfl | rfl <;> rfl
  rw [registerWith, outputs_cons hstep, run, hstep]
  rcases hpc with rfl | rfl <;> exact ⟨rfl, rfl⟩

/-- From a datagram that is not empty, in any call and state, no slice taken is out of range and
the registration is sent on, exactly if it is no CoAP message of less than six bytes of payload. -/
theorem completes_iff (coap : CoapLite) (m : OtMonitor) (call : Call) (pc : RegisterPc)
    (hpc : pc = .select ∨ pc = .retry) (rcvd : List Received) (d : Received) (hd : d.bytes ≠ []) :
    Completes coap m call pc rcvd d
      ↔ ∀ packet ∈ coap.fromBytes (d.bytes.take bufferSize), 6 ≤ packet.payload.length := by
  rw [← coapObserverRegister_isSome]
  have hrecv := recv_eq coap hd call rcvd
  rcases hr : coapObserverRegister coap (d.bytes.take bufferSize) with _ | ⟨eui, name⟩ <;>
    rw [hr] at hrecv
  · simp [Completes, hr]
  · simp only [Option.isSome_some, iff_true]
    obtain ⟨hrun, hout⟩ := run_registerWith (m := m) hpc hrecv
    exact ⟨_, eui, plantName name, _, hrun, by simp [hr, registration, shorten_eq], hout⟩

/-- A reply of six bytes is the shortest that is registered. -/
theorem completes_sixBytes :
    Completes .wire (OtMonitor.new (mesh [])) ⟨omrIp, 0x4401, ipOf 1, 1213, 0, []⟩ .select []
      ⟨⟨ipOf 1, 1212⟩, ackOf [0x60, 0x55, 0xf9, 0xf6, 0, 1]⟩ :=
  (completes_iff .wire _ _ .select (Or.inl rfl) [] _ (by decide)).mpr (by decide +kernel)

/-- An acknowledgement with one byte of payload ends the poll task. -/
theorem not_completes :
    ¬ Completes .wire (OtMonitor.new (mesh [])) ⟨omrIp, 0x4401, ipOf 1, 1213, 0, []⟩ .select []
      ⟨⟨ipOf 1, 1212⟩, ackOf [0x60]⟩ := by
  rintro ⟨s, eui, name, received, h, -⟩
  have hnone : run (step .wire) ⟨OtMonitor.new (mesh []),
      .attempt ⟨omrIp, 0x4401, ipOf 1, 1213, 0, []⟩ .select []⟩
      (registerWith ⟨⟨ipOf 1, 1212⟩, ackOf [0x60]⟩) = none := by
    decide +kernel
  rw [hnone] at h
  cases h

end Poll

namespace Reply

/-- The broker gets back the node's EUI, and as much of its name as fits in whole characters. -/
def RoundTrips (p : Esp32Platform) : Prop :=
  ∃ name, (ofPayload p.record).bind registration = some (p.eui, name)
    ∧ LongestPrefix maxPlantNameSize p.plantName name ∧ (p.plantName ≠ "" → name ≠ "")

theorem ofPayload_record (p : Esp32Platform) :
    ofPayload p.record = some (p.eui, p.plantName.toUTF8.toList) := by
  have hlen : p.eui.toList.length = 6 := by simp
  rw [ofPayload_eq, if_pos (by simp [Esp32Platform.record]), Esp32Platform.record,
    List.drop_left' hlen]
  congr 2
  ext i hi
  simp [Poll.euiOf, List.getD, List.getElem?_append_left (hlen.symm ▸ hi), hi]

theorem plantName_toUTF8 (name : String) :
    Poll.plantName name.toUTF8.toList
      = if name.utf8ByteSize ≤ maxPlantNameSize
            ∨ (⟨maxPlantNameSize⟩ : String.Pos.Raw).IsValid name then
          String.ofList (fit maxPlantNameSize name.toList)
        else "" := by
  rw [Poll.plantName, fromUTF8?_take]
  split_ifs <;> rfl

/-- A reply round-trips exactly if no character of the name straddles its twentieth byte. -/
theorem roundTrips_iff (p : Esp32Platform) :
    RoundTrips p ↔ p.plantName.utf8ByteSize ≤ maxPlantNameSize
      ∨ (⟨maxPlantNameSize⟩ : String.Pos.Raw).IsValid p.plantName := by
  have hread : (ofPayload p.record).bind registration
      = some (p.eui, Poll.plantName p.plantName.toUTF8.toList) := by
    simp [ofPayload_record, registration, shorten_eq]
  have hfit : p.plantName ≠ "" → String.ofList (fit maxPlantNameSize p.plantName.toList) ≠ "" := by
    intro hne h
    refine fit_ne_nil (n := maxPlantNameSize) (by decide) ?_ (String.ofList_eq_empty_iff.mp h)
    exact fun hnil => hne (String.toList_eq_nil_iff.mp hnil)
  simp only [RoundTrips, hread, plantName_toUTF8, Option.some.injEq, Prod.mk.injEq, true_and,
    exists_eq_left']
  split_ifs with h
  · exact iff_of_true ⟨longestPrefix_iff.mpr rfl, hfit⟩ h
  · refine iff_of_false ?_ h
    rintro ⟨-, hne⟩
    refine hne (fun hempty => h (Or.inl ?_)) rfl
    simp [hempty]

def sansevieria : Esp32Platform :=
  ⟨Poll.ipOf 1, .of 0x60 0x55 0xf9 0xf6 0 1, "Sansevieria neben Tür", none, false⟩

/-- With a two-byte character across the cut, nothing of the name arrives. -/
theorem not_roundTrips : ¬ RoundTrips sansevieria := by
  rintro ⟨name, h, -, hne⟩
  have hread : (ofPayload sansevieria.record).bind registration = some (sansevieria.eui, "") := by
    decide +kernel
  rw [hread, Option.some.injEq, Prod.mk.injEq] at h
  exact hne (by decide) h.2.symm

end Reply

end Pmind
