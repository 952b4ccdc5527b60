import Pmind.Lib.Run
import Pmind.Platform

/-!
# Who a node reports to

A node takes any datagram that parses for a request, whatever its method, path and options are: if
a response is due to it the sender is observed from then on, on the port the message id names, and
if none is due, to an acknowledgement or a reset, the node halts. So a node is moved by more than
registrations, and halted by exactly the messages that have no response.
-/

namespace Pmind

open Transition

/-- The message a datagram is taken for. -/
def LoopEvent.packet (coap : CoapLite) : LoopEvent → Option Packet
  | .receive _ bytes _ => if bytes = [] then none else coap.fromBytes (bytes.take 512)
  | .sensor _ _ => none

namespace Esp32Platform

variable {coap : CoapLite} {json : SerdeJson} {p : Esp32Platform}

/-- What the node answers a message with. -/
def reply (coap : CoapLite) (p : Esp32Platform) (packet : Packet) : Option (List UInt8) :=
  (coap.response packet).bind fun response => coap.toBytes { response with payload := p.record }

/-- The reading is there, and is sent if it is serialised. -/
def ReportOk (json : SerdeJson) (reading : Option SensorReading) (sendOk : Bool) : Prop :=
  ∃ r, reading = some r ∧ (json.toVec r ≠ none → sendOk = true)

instance (json : SerdeJson) (reading : Option SensorReading) (sendOk : Bool) :
    Decidable (ReportOk json reading sendOk) :=
  inferInstanceAs (Decidable (∃ r ∈ reading, json.toVec r ≠ none → sendOk = true))

/-- Nobody observes the node, or the report succeeds. -/
def Reports (json : SerdeJson) (p : Esp32Platform) (reading : Option SensorReading)
    (sendOk : Bool) : Prop :=
  p.observerAddr = none ∨ ReportOk json reading sendOk

instance (json : SerdeJson) (p : Esp32Platform) (reading : Option SensorReading) (sendOk : Bool) :
    Decidable (p.Reports json reading sendOk) :=
  inferInstanceAs (Decidable (_ ∨ ReportOk json reading sendOk))

inductive Step (coap : CoapLite) (json : SerdeJson) (p : Esp32Platform) :
    LoopEvent → Esp32Platform → Prop
  | halted {e} (h : p.halted = true) : Step coap json p e p
  | reported {reading sendOk} (h : p.halted = false) (hr : p.Reports json reading sendOk) :
    Step coap json p (.sensor reading sendOk) p
  | reset {reading sendOk} (h : p.halted = false) (hr : ¬ p.Reports json reading sendOk) :
    Step coap json p (.sensor reading sendOk) p.reset
  | observed {src bytes sendOk packet bs} (h : p.halted = false)
    (hp : (LoopEvent.receive src bytes sendOk).packet coap = some packet)
    (hr : p.reply coap packet = some bs) :
    Step coap json p (.receive src bytes sendOk)
      { p with observerAddr := some (src.ip, packet.messageId) }
  | unanswered {src bytes sendOk packet} (h : p.halted = false)
    (hp : (LoopEvent.receive src bytes sendOk).packet coap = some packet)
    (hr : p.reply coap packet = none) : Step coap json p (.receive src bytes sendOk) p.halt
  | ignored {src bytes sendOk} (h : p.halted = false)
    (hp : (LoopEvent.receive src bytes sendOk).packet coap = none) :
    Step coap json p (.receive src bytes sendOk) p
  | notSent {src bytes} (h : p.halted = false)
    (hp : (LoopEvent.receive src bytes false).packet coap = none) :
    Step coap json p (.receive src bytes false) p.halt

theorem step_report (h : p.halted = false) (reading : Option SensorReading) (sendOk : Bool) :
    Step coap json p (.sensor reading sendOk) (p.report json reading sendOk).1 := by
  unfold report
  rcases ho : p.observerAddr with _ | ⟨observer, port⟩
  · exact .reported h (Or.inl ho)
  · rcases reading with _ | r
    · refine .reset h ?_
      rintro (hn | ⟨r, hr, -⟩)
      · simp [ho] at hn
      · cases hr
    · rcases hb : json.toVec r with _ | bytes <;> simp only [hb]
      · exact .reported h (Or.inr ⟨r, rfl, fun hne => absurd hb hne⟩)
      · cases sendOk with
        | true => exact .reported h (Or.inr ⟨r, rfl, fun _ => rfl⟩)
        | false =>
          refine .reset h ?_
          rintro (hn | ⟨r', hr, hok⟩)
          · simp [ho] at hn
          · cases hr
            exact Bool.false_ne_true (hok (by simp [hb]))

theorem step_receive (h : p.halted = false) (src : SocketAddrV6) (bytes : List UInt8)
    (sendOk : Bool) :
    Step coap json p (.receive src bytes sendOk)
      (p.receive coap src (bytes.take 512) sendOk).1 := by
  unfold receive
  by_cases hempty : bytes = []
  · subst hempty
    exact .ignored h (by simp [LoopEvent.packet])
  · have hpacket : ∀ ok, (LoopEvent.receive src bytes ok).packet coap
        = coap.fromBytes (bytes.take 512) := fun ok => by
      simp only [LoopEvent.packet, hempty, if_false]
    have htake : bytes.take 512 ≠ [] := by simp [hempty]
    simp only [htake, if_false]
    rcases hp : coap.fromBytes (bytes.take 512) with _ | packet
    · cases sendOk with
      | true => exact .ignored h ((hpacket _).trans hp)
      | false => exact .notSent h ((hpacket _).trans hp)
    · rcases hr : coap.response packet with _ | response <;> simp only [hr]
      · exact .unanswered h ((hpacket _).trans hp) (by simp [reply, hr])
      · have hreply : p.reply coap packet = coap.toBytes { response with payload := p.record } := by
          simp only [reply, hr, Option.bind_some]
        rcases hb : coap.toBytes { response with payload := p.record } with _ | bs
        · exact .unanswered h ((hpacket _).trans hp) (hreply.trans hb)
        · exact .observed h ((hpacket _).trans hp) (hreply.trans hb)

theorem step_loop (p : Esp32Platform) (e : LoopEvent) :
    Step coap json p e (p.coapServerEventLoop coap json e).1 := by
  unfold coapServerEventLoop
  by_cases h : p.halted
  · simp only [h, if_true]
    exact .halted h
  · simp only [h, Bool.false_eq_true, if_false]
    rw [Bool.not_eq_true] at h
    rcases e with ⟨reading, sendOk⟩ | ⟨src, bytes, sendOk⟩
    · exact step_report h reading sendOk
    · exact step_receive h src bytes sendOk

theorem step_some {p' : Esp32Platform} {e : LoopEvent} (h : step coap json p e = some p') :
    Step coap json p e p' := by
  cases h
  exact step_loop p e

/-! ## What halts a node -/

/-- A response is due to the message the datagram is, if it is one. -/
def Answerable (coap : CoapLite) (e : LoopEvent) : Prop :=
  ∀ packet ∈ e.packet coap, packet.mtype = .confirmable ∨ packet.mtype = .nonConfirmable

instance (e : LoopEvent) : Decidable (Answerable coap e) :=
  inferInstanceAs (Decidable (∀ packet ∈ e.packet coap, _ ∨ _))

/-- `coap_lite` makes a response for confirmable and non-confirmable messages, and for no other. -/
def Responds (coap : CoapLite) : Prop :=
  ∀ packet, coap.response packet ≠ none
    ↔ packet.mtype = .confirmable ∨ packet.mtype = .nonConfirmable

/-- `coap_lite` serialises every response. -/
def Serialises (coap : CoapLite) : Prop :=
  ∀ (request response : Packet) (payload : List UInt8), coap.response request = some response →
    coap.toBytes { response with payload } ≠ none

theorem reply_eq_none (hcoap : Serialises coap) {packet : Packet} :
    p.reply coap packet = none ↔ coap.response packet = none := by
  unfold reply
  rcases hr : coap.response packet with _ | response
  · simp
  · simpa using hcoap packet response p.record hr

theorem halted_step (json : SerdeJson) (hresponds : Responds coap) (hcoap : Serialises coap)
    {p' : Esp32Platform} {e : LoopEvent} (hok : e.sendOk = true) (h : p.halted = false)
    (hs : step coap json p e = some p') :
    p'.halted = false ↔ Answerable coap e := by
  cases step_some hs with
  | halted h' => simp [h] at h'
  | reported | reset => simp [Answerable, LoopEvent.packet, h, Esp32Platform.reset]
  | @observed src bytes sendOk packet bs _ hp hr =>
    simp only [h, Answerable, hp, Option.mem_some, forall_eq', true_iff]
    refine (hresponds packet).mp fun hnone => ?_
    rw [(reply_eq_none hcoap).mpr hnone] at hr
    cases hr
  | @unanswered src bytes sendOk packet _ hp hr =>
    simp only [halt, Bool.true_eq_false, Answerable, hp, Option.mem_some, forall_eq', false_iff]
    rw [← hresponds, not_not]
    exact (reply_eq_none hcoap).mp hr
  | ignored _ hp => simp [Answerable, hp, h]
  | notSent => cases hok

/-- With every send going through, no unwrapping of the message handling fails in a run exactly if
no datagram is an acknowledgement or a reset. -/
theorem notHalted_iff (coap : CoapLite) (hresponds : Responds coap) (hcoap : Serialises coap)
    (json : SerdeJson) (p : Esp32Platform) (hp : p.halted = false) (ls : List LoopEvent)
    (hok : ∀ e ∈ ls, e.sendOk = true) :
    EveryState (step coap json) (fun p => p.halted = false) p ls ↔ ∀ e ∈ ls, Answerable coap e := by
  induction ls generalizing p with
  | nil => simp [EveryState, hp]
  | cons e ls ih =>
    have hstep := halted_step json hresponds hcoap (hok e List.mem_cons_self) hp rfl
    have hls := fun k hk => hok k (List.mem_cons_of_mem _ hk)
    simp only [EveryState, hp, true_and, step, Option.mem_some, forall_eq', List.forall_mem_cons]
    refine ⟨?_, ?_⟩
    · intro h
      have hp' := h.head
      exact ⟨hstep.mp hp', (ih _ hp' hls).mp h⟩
    · rintro ⟨he, h⟩
      exact (ih _ (hstep.mpr he) hls).mpr h

def mint : Esp32Platform :=
  ⟨.new 0xfdc9 0xfdb2 0x9fe8 1 0 0 0 1, .of 0x60 0x55 0xf9 0xf6 0 1, "mint", none, false⟩

def broker : SocketAddrV6 := ⟨.new 0xfdc9 0xfdb2 0x9fe8 1 0xd4ef 0xb05e 0x7cf7 0x6edd, 1213⟩

/-- A confirmable message for `soilmoisture` with the Observe option, and message id 1213. -/
def requestBytes (code : UInt8) : List UInt8 :=
  [0x44, code, 0x04, 0xbd, 0xfa, 0xce, 0xbe, 0xef, 0x60, 0x5c] ++
    "soilmoisture".toList.map fun c => UInt8.ofNat c.toNat

theorem responds_wire : Responds .wire := by
  rintro ⟨mtype⟩
  cases mtype <;> simp [CoapLite.wire, Packet.response]

theorem serialises_wire : Serialises .wire := fun _ _ _ _ => Option.some_ne_none _

theorem notHalted_registered :
    EveryState (step .wire ⟨fun _ => none, fun _ => none⟩) (fun p => p.halted = false) mint
      [.receive broker (requestBytes Packet.codeGet) true, .receive broker [0xff] true] :=
  (notHalted_iff .wire responds_wire serialises_wire _ mint rfl _ (by decide)).mpr
    (by decide +kernel)

/-- An acknowledgement, as the node's own reply to a request is, halts the node. -/
theorem not_notHalted :
    ¬ EveryState (step .wire ⟨fun _ => none, fun _ => none⟩) (fun p => p.halted = false) mint
      [.receive broker [0x64, 0x45, 0x04, 0xbd, 0xfa, 0xce, 0xbe, 0xef, 0xff, 0x60] true] := by
  decide +kernel

end Esp32Platform

/-! ## What moves the stream -/

/-- A GET for the soil moisture, with the Observe option set to register. -/
def Packet.IsRegistration (packet : Packet) : Prop :=
  packet.code = Packet.codeGet ∧ packet.uriPath = ["soilmoisture"]
    ∧ packet.observe = some Packet.observeRegister

instance (packet : Packet) : Decidable packet.IsRegistration :=
  inferInstanceAs (Decidable (_ ∧ _))

/-- The observer a datagram registers, if it is a registration. -/
def LoopEvent.registration (coap : CoapLite) : LoopEvent → Option (Ipv6Addr × UInt16)
  | .receive src bytes sendOk =>
    ((LoopEvent.receive src bytes sendOk).packet coap).bind fun packet =>
      if packet.IsRegistration then some (src.ip, packet.messageId) else none
  | .sensor _ _ => none

structure Watched where
  node : Esp32Platform
  /-- What changed the node's observer last. -/
  last : Option LoopEvent

namespace Watched

variable {coap : CoapLite} {json : SerdeJson}

/-- A node that has just started. -/
def init (p : Esp32Platform) : Watched := ⟨{ p with observerAddr := none, halted := false }, none⟩

def step (coap : CoapLite) (json : SerdeJson) (s : Watched) (e : LoopEvent) : Option Watched :=
  (s.node.step coap json e).map fun node =>
    ⟨node, if node.observerAddr = s.node.observerAddr then s.last else some e⟩

def ByRegistration (coap : CoapLite) (s : Watched) : Prop :=
  ∀ a ∈ s.node.observerAddr, ∃ e ∈ s.last, e.registration coap = some a

/-- A datagram that is no registration leaves the observer. -/
def Unmoved (coap : CoapLite) (json : SerdeJson) (s : Watched) : LoopEvent → Prop
  | .receive src bytes sendOk =>
    (LoopEvent.receive src bytes sendOk).registration coap = none →
      ∀ s' ∈ step coap json s (.receive src bytes sendOk),
        s'.node.observerAddr = s.node.observerAddr
  | .sensor _ _ => True

/-- What is answered and is no registration comes from the observer, and names its port. -/
def OnlyRegistrations (coap : CoapLite) (s : Watched) : LoopEvent → Prop
  | .receive src bytes sendOk => s.node.halted = false →
    ∀ packet ∈ (LoopEvent.receive src bytes sendOk).packet coap, ¬ packet.IsRegistration →
      s.node.reply coap packet ≠ none → s.node.observerAddr = some (src.ip, packet.messageId)
  | .sensor _ _ => True

theorem step_node {s s' : Watched} {e : LoopEvent} (h : step coap json s e = some s') :
    Esp32Platform.Step coap json s.node e s'.node
      ∧ s'.last = if s'.node.observerAddr = s.node.observerAddr then s.last else some e := by
  obtain ⟨node, hn, rfl⟩ := Option.map_eq_some_iff.mp h
  exact ⟨Esp32Platform.step_some hn, rfl⟩

theorem unmoved_iff (s : Watched) (e : LoopEvent) :
    Unmoved coap json s e ↔ OnlyRegistrations coap s e := by
  rcases e with ⟨reading, sendOk⟩ | ⟨src, bytes, sendOk⟩
  · exact Iff.rfl
  obtain ⟨s', hs⟩ : ∃ s', step coap json s (.receive src bytes sendOk) = some s' := ⟨_, rfl⟩
  have hnode := (step_node hs).1
  simp only [Unmoved, OnlyRegistrations, hs, Option.mem_some, forall_eq']
  generalize s'.node = node at hnode
  cases hnode with
  | halted h => simp [h]
  | observed h hp hr =>
    simp only [LoopEvent.registration, hp, Option.bind_some, h, forall_const, Option.mem_some,
      forall_eq', hr, ne_eq, reduceCtorEq, not_false_eq_true]
    split_ifs with hreg
    · simp [hreg]
    · simp only [hreg, not_false_eq_true, forall_const]
      exact eq_comm
  | unanswered h hp hr => simp [LoopEvent.registration, hp, hr, Esp32Platform.halt]
  | ignored h hp => simp [LoopEvent.registration, hp]
  | notSent h hp => simp [LoopEvent.registration, hp, Esp32Platform.halt]

theorem byRegistration_step (s : Watched) (e : LoopEvent) (s' : Watched)
    (h : ByRegistration coap s) (hun : Unmoved coap json s e) (hs : step coap json s e = some s') :
    ByRegistration coap s' := by
  obtain ⟨hnode, hlast⟩ := step_node hs
  intro a ha
  by_cases hsame : s'.node.observerAddr = s.node.observerAddr
  · rw [hlast, if_pos hsame]
    exact h a (hsame ▸ ha)
  · rw [hlast, if_neg hsame]
    refine ⟨e, rfl, ?_⟩
    have hreg : ∀ src bytes sendOk, e = .receive src bytes sendOk → e.registration coap ≠ none := by
      rintro src bytes sendOk rfl hnone
      exact hsame (hun hnone s' hs)
    generalize s'.node = node at hnode ha hsame
    cases hnode with
    | reset => simp [Esp32Platform.reset] at ha
    | observed _ hp _ =>
      simp only [Option.mem_some] at ha
      subst ha
      have hreg := hreg _ _ _ rfl
      simp only [LoopEvent.registration, hp, Option.bind_some] at hreg ⊢
      split_ifs at hreg ⊢ with hpacket
      · rfl
      · exact absurd rfl hreg
    | _ => exact absurd rfl hsame

/-- In every run the observer is who registered last, and no other datagram moves it, exactly if
each datagram that is answered and is no registration comes from the observer and names its port. -/
theorem movedByRegistration_iff (coap : CoapLite) (json : SerdeJson) (p : Esp32Platform)
    (ls : List LoopEvent) :
    EveryState (step coap json) (ByRegistration coap) (init p) ls
        ∧ EveryStep (step coap json) (Unmoved coap json) (init p) ls
      ↔ EveryStep (step coap json) (OnlyRegistrations coap) (init p) ls := by
  refine ⟨?_, ?_⟩
  · rintro ⟨-, h⟩
    exact h.imp fun s e => (unmoved_iff s e).mp
  · intro h
    have hun : EveryStep (step coap json) (Unmoved coap json) (init p) ls :=
      h.imp fun s e => (unmoved_iff s e).mpr
    have hinit : ByRegistration coap (init p) := fun a ha => by simp [init] at ha
    exact ⟨everyStep_invariant byRegistration_step hinit hun, hun⟩

instance (s : Watched) : Decidable (ByRegistration coap s) :=
  inferInstanceAs (Decidable (∀ a ∈ s.node.observerAddr, ∃ e ∈ s.last, _ = some a))

instance (s : Watched) : (e : LoopEvent) → Decidable (Unmoved coap json s e)
  | .receive src bytes sendOk => inferInstanceAs (Decidable
      ((LoopEvent.receive src bytes sendOk).registration coap = none →
        ∀ s' ∈ step coap json s (.receive src bytes sendOk),
          s'.node.observerAddr = s.node.observerAddr))
  | .sensor _ _ => inferInstanceAs (Decidable True)

/-- The broker registers, and then someone else's POST takes the stream. -/
def takenRun : List LoopEvent :=
  [.receive Esp32Platform.broker (Esp32Platform.requestBytes Packet.codeGet) true,
    .receive ⟨.localhost, 5683⟩ (Esp32Platform.requestBytes 0x02) true]

theorem not_movedByRegistration :
    ¬ EveryState (step .wire ⟨fun _ => none, fun _ => none⟩) (ByRegistration .wire)
        (init Esp32Platform.mint) takenRun
      ∧ ¬ EveryStep (step .wire ⟨fun _ => none, fun _ => none⟩)
        (Unmoved .wire ⟨fun _ => none, fun _ => none⟩) (init Esp32Platform.mint) takenRun := by
  decide +kernel

end Watched

end Pmind
