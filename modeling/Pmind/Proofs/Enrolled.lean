import Pmind.Proofs.Deployment
import Pmind.Proofs.Reply

/-!
# From the nodes to the plants

An attempt registers what it reads of the first datagram that comes. Without a stranger on the
network that is a node's reply, read with the node's EUI and its name, or a report or a text: these
are no CoAP messages, and leave the zero EUI and no name. So whatever order the datagrams come in,
each registration that a client is sent is that of a node or of none, and so is each plant.
-/

namespace Pmind

open Transition HashMap

/-- What an attempt reads of the messages between the broker and the nodes: the payload, or as much
of it as it received, and nothing of what is no message. -/
structure Replies (coap : CoapLite) (json : SerdeJson) : Prop where
  tokens : Tokens coap
  payload : ∀ packet bytes read, packet.token.length ≤ 8 → coap.toBytes packet = some bytes →
    coap.fromBytes (bytes.take bufferSize) = some read → read.payload <+: packet.payload
  report : ∀ r bytes, json.toVec r = some bytes → coap.fromBytes (bytes.take bufferSize) = none
  text : coap.fromBytes ("beefface authenticate!".toUTF8.toList.take bufferSize) = none

/-- What is read of what a node sends is its record, or the beginning of it. -/
theorem Esp32Platform.Sends.payload_le {coap : CoapLite} {json : SerdeJson} {p : Esp32Platform}
    {e : LoopEvent} {d : Datagram} {packet : Packet} (h : Sends coap json p e d)
    (hr : Replies coap json) (hp : coap.fromBytes (d.bytes.take bufferSize) = some packet) :
    packet.payload <+: p.record := by
  cases h with
  | report _ hb =>
    rw [hr.report _ _ hb] at hp
    cases hp
  | @reply _ asked response hasked hresponse hb =>
    have hlen : response.token.length ≤ 8 :=
      hr.tokens.response asked response hresponse ▸ hr.tokens.length_le _ asked hasked
    exact hr.payload { response with payload := p.record } _ packet hlen hb hp
  | text hb =>
    rw [hb, hr.text] at hp
    cases hp

namespace Poll

theorem euiOf_eq {l l' : List UInt8} (h : l <+: l') (hl : 6 ≤ l.length) :
    euiOf l = euiOf l' := by
  obtain ⟨rest, rfl⟩ := h
  ext i hi
  simp [euiOf, List.getD, List.getElem?_append_left (show i < l.length by omega)]

/-- What is read of a node's record begins with its EUI, and goes on with its name. -/
theorem euiOf_record {p : Esp32Platform} {l : List UInt8} (h : l <+: p.record)
    (hl : 6 ≤ l.length) : euiOf l = p.eui ∧ l.drop 6 <+: p.plantName.toUTF8.toList := by
  have hrecord := Reply.ofPayload_record p
  rw [Reply.ofPayload_eq, if_pos (hl.trans h.length_le), Option.some.injEq, Prod.mk.injEq]
    at hrecord
  exact ⟨(euiOf_eq h hl).trans hrecord.1, hrecord.2 ▸ h.drop 6⟩

end Poll

namespace Deployment

section Defs

variable (nodes : List Esp32Platform)

/-- A node's EUI, and as much of its name as came, or nobody's. -/
def Enrolls (eui : Eui) (name : List UInt8) : Prop :=
  (eui = Vector.replicate 6 0 ∧ name = [])
    ∨ ∃ node ∈ nodes, eui = node.eui ∧ name <+: node.plantName.toUTF8.toList

def EnrollsPc : PollPc → Prop
  | .registerNode _ answer | .newHandler _ answer | .emit _ answer =>
    Enrolls nodes answer.eui answer.name
  | _ => True

/-- The same, with the name as it is sent on. -/
def Enrolled (eui : Eui) (name : String) : Prop :=
  ∃ sent, Enrolls nodes eui sent ∧ name = Poll.plantName sent

/-- What is read of what is on the network has no payload, or that of a node's reply. -/
structure Answered (coap : CoapLite) (s : Deployment) : Prop where
  kept : Kept nodes s
  sent : ∀ d ∈ s.sent, ∀ packet, coap.fromBytes (d.bytes.take bufferSize) = some packet →
    packet.payload = [] ∨ ∃ node ∈ nodes, packet.payload <+: node.record
  pc : EnrollsPc nodes s.system.poll.pc

end Defs

section Daemon

variable {coap : CoapLite} {json : SerdeJson} {nodes : List Esp32Platform} {s s' : Deployment}
  {e : DeploymentEvent}

theorem enrolls_next (omrAddr : Ipv6Addr) (i : ℕ) : ∀ left,
    EnrollsPc nodes (Poll.next omrAddr i left)
  | [] => trivial
  | _ :: _ => trivial

theorem enrolls_recv {call : Call} {received : List Received} {d : Received}
    (h : ∀ packet, coap.fromBytes (d.bytes.take bufferSize) = some packet →
      packet.payload = [] ∨ ∃ node ∈ nodes, packet.payload <+: node.record) :
    EnrollsPc nodes (Poll.recv coap call received d) := by
  unfold Poll.recv
  simp only []
  split_ifs
  · trivial
  · split
    · exact Or.inl ⟨rfl, rfl⟩
    · rename_i packet hp
      split_ifs with hlen
      · rcases h packet hp with hnil | ⟨node, hnode, hprefix⟩
        · rw [hnil] at hlen
          cases hlen
        · exact Or.inr ⟨node, hnode, Poll.euiOf_record hprefix hlen⟩
      · trivial

theorem enrolled_step (h : Answered nodes coap s) {reg : Registration}
    (hreg : reg ∈ ofSystem System.emitted s e) : Enrolled nodes reg.eui reg.name := by
  rcases e with e | _ | _
  · rcases e with e | _ | _ | _ | _ | _
    case poll =>
      obtain ⟨em, hem, rfl⟩ := List.mem_map.mp hreg
      obtain ⟨call, answer, hpc, rfl⟩ := Poll.mem_emitted hem
      have henrolls := h.pc
      rw [hpc] at henrolls
      exact ⟨answer.name, henrolls, rfl⟩
    all_goals cases hreg
  all_goals cases hreg

theorem enrolls_poll {poll poll' : Poll} {e : PollEvent} (h : EnrollsPc nodes poll.pc)
    (hs : poll.step coap e = some poll') (hrecv : ∀ d, e = .recv d → (∃ call pc received,
      poll.pc = .attempt call pc received) → ∀ packet,
        coap.fromBytes (d.bytes.take bufferSize) = some packet →
          packet.payload = [] ∨ ∃ node ∈ nodes, packet.payload <+: node.record) :
    EnrollsPc nodes poll'.pc := by
  cases Poll.Step.of_step hs with
  | omrIp | emit | returnPort => exact enrolls_next _ _ _
  | recv => exact enrolls_recv (hrecv _ rfl ⟨_, _, _, rfl⟩)
  | registerNode | newHandler => exact h
  | _ => trivial

variable [Chrono]

theorem answered_step (hr : Replies coap json) (h : Answered nodes coap s)
    (he : ∀ d, e ≠ .stray d) (hs : step coap json s e = some s') : Answered nodes coap s' := by
  cases Step.of_step hs with
  | @system e system hd hsystem =>
    refine ⟨kept_step h.kept hs, fun d hmem packet hp => ?_, ?_⟩
    · rcases List.mem_append.mp hmem with hmem | hmem
      · rcases e with e | _ | _ | _ | _ | _
        · obtain ⟨port, hb⟩ := Mesh.mem_requests hmem
          exact Or.inl (List.prefix_nil.mp
            (hr.payload _ _ packet (by simp [Poll.request]) hb hp))
        all_goals cases hmem
      · exact h.sent d hmem packet hp
    · rcases e with e | _ | _ | _ | _ | _
      · obtain ⟨poll, hpoll, hsystem⟩ := Option.bind_eq_some_iff.mp hsystem
        obtain ⟨sessions, -, rfl⟩ := Option.map_eq_some_iff.mp hsystem
        refine enrolls_poll h.pc hpoll ?_
        rintro d rfl ⟨call, pc, received, hpc⟩ packet hp
        exact h.sent ⟨d.sender, call.addr, d.bytes⟩
          (hd _ (by simp [delivered, Mesh.delivered, mesh, hpc])) packet hp
      all_goals
        have hpoll : s.system.poll = system.poll := Option.some.inj (System.poll_step hsystem)
        exact hpoll ▸ h.pc
  | @node i e node _ hn =>
    obtain ⟨node', hn', hsame⟩ := h.kept i node hn
    refine ⟨kept_step h.kept hs, fun d hmem packet hp => ?_, h.pc⟩
    rcases List.mem_append.mp hmem with hmem | hmem
    · refine Or.inr ⟨node', List.mem_of_getElem? hn', ?_⟩
      have hread := (Esp32Platform.mem_coapServerEventLoop hmem).payload_le hr hp
      rwa [Esp32Platform.record, hsame.eui, hsame.plantName]
    · exact h.sent d hmem packet hp
  | @stray d => exact absurd rfl (he d)

section Run

variable {c : OtClient} {ls : List DeploymentEvent}

theorem enrolled_run (hr : Replies coap json)
    (h : run (step coap json) (init c nodes) ls = some s) (hstray : ∀ d, .stray d ∉ ls) :
    ∀ reg ∈ outputs (step coap json) (ofSystem System.emitted) (init c nodes) ls,
      Enrolled nodes reg.eui reg.name := by
  refine (run_outputs_induct (ofSystem System.emitted) (C := fun e => ∀ d, e ≠ .stray d)
    (Q := fun regs t => Answered nodes coap t ∧ ∀ reg ∈ regs, Enrolled nodes reg.eui reg.name)
    ?_ ?_ ?_ h).2
  · exact ⟨⟨fun i n hn => ⟨n, hn, rfl, rfl, rfl⟩, fun d hd => absurd hd List.not_mem_nil, trivial⟩,
      fun reg hreg => absurd hreg List.not_mem_nil⟩
  · intro regs t e t' he ih hs
    refine ⟨answered_step hr ih.1 he hs, fun reg hreg => ?_⟩
    rcases List.mem_append.mp hreg with hreg | hreg
    · exact ih.2 reg hreg
    · exact enrolled_step ih.1 hreg
  · rintro e he d rfl
    exact hstray d he

end Run

end Daemon

theorem wire_token {packet : Packet} (hlen : packet.token.length ≤ 8)
    (h : 0x64 = 0x40 + packet.mtype.bits + UInt8.ofNat packet.token.length) :
    packet.token.length = 4 := by
  have hall : ∀ mtype : MessageType, ∀ n ≤ 8, 0x64 = 0x40 + mtype.bits + UInt8.ofNat n → n = 4 := by
    intro mtype
    cases mtype <;> decide
  exact hall packet.mtype packet.token.length hlen h

theorem wire_replies {packet read : Packet} {bytes : List UInt8} (hlen : packet.token.length ≤ 8)
    (h : CoapLite.wire.toBytes packet = some bytes)
    (hread : CoapLite.wire.fromBytes (bytes.take bufferSize) = some read) :
    read.payload <+: packet.payload := by
  have hprefix := List.take_prefix bufferSize bytes
  simp only [CoapLite.wire] at hread
  split at hread
  · split_ifs at hread
    cases hread
    exact List.nil_prefix
  · rename_i code hi lo t₀ t₁ t₂ t₃ b payload htake
    cases hread
    rw [htake] at hprefix
    obtain ⟨rest, hrest⟩ := hprefix
    simp only [CoapLite.wire, Option.some.injEq] at h
    simp only [← h, List.cons_append, List.cons.injEq] at hrest
    obtain ⟨hhead, -, -, -, hrest⟩ := hrest
    obtain ⟨a₀, a₁, a₂, a₃, htoken⟩ := List.length_eq_four.mp (wire_token hlen hhead)
    simp only [htoken, List.cons_append, List.nil_append, List.cons.injEq] at hrest
    obtain ⟨-, -, -, -, hrest⟩ := hrest
    split_ifs at hrest with hoptions hpayload
    · simp at hrest
    · simp at hrest
    · simp at hrest
    · simp only [List.nil_append, List.cons.injEq, true_and] at hrest
      exact ⟨rest, hrest⟩
  · cases hread

theorem replies_wire : Replies .wire Sessions.reportJson where
  tokens := tokens_wire
  payload _ _ _ := wire_replies
  report r bytes h := by
    cases h
    decide +kernel
  text := by decide +kernel

open Chrono

end Deployment

end Pmind
