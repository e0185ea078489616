import Switchboard.Proofs.Delivery.Hearing

/-!
# What a dispatch calls

A message is dispatched to the one route at its topic, if there is any, and at most one error is reported. Without a
route nothing happens, whatever the bytes are. Bytes that are no packet are reported and logged, and the route is not
called. A packet is handled by the route, the errors in it apart from the rest (`Bus.dispatches`).

What handlers are called with never holds an error (`Bus.sifts_hear`), also where their answers are dispatched in
turn.
-/

namespace Switchboard

/-! ### Calls of handlers -/

/-- A call of a request handler or a notification handler of a client. -/
structure HandlerCall where
  client : Nat
  handler : String
  header : PacketHeader
  payloads : List Payload

/-- There is no error among the payloads. -/
def HandlerCall.Sifted (call : HandlerCall) : Prop := ∀ p ∈ call.payloads, p.error? = none

def BusEvent.handlerCall? : BusEvent → Option HandlerCall
  | .handled client handler header payloads => some ⟨client, handler, header, payloads⟩
  | _ => none

/-- The handler calls for a packet that comes in on a route, those apart that the answer leads to. -/
def Route.callsFor (client : Nat) (packet : Packet) : Route → List HandlerCall
  | .reply _ => []
  | .request subject h =>
    match RequestHandler.accept subject packet with
    | .ok accepted => [⟨client, h.name, .rpc accepted, packet.others⟩]
    | .error _ => []
  | .notification _ h => [⟨client, h.name, packet.header, packet.others⟩]

theorem Route.sifted_of_mem_callsFor {client : Nat} {packet : Packet} {route : Route} {call : HandlerCall}
    (h : call ∈ route.callsFor client packet) : call.Sifted := by
  have hpayloads : call.payloads = packet.others := by
    cases route with
    | reply serial => cases h
    | request subject handler =>
      simp only [callsFor] at h
      cases haccept : RequestHandler.accept subject packet with
      | ok accepted =>
        rw [haccept] at h
        rw [List.mem_singleton.1 h]
      | error e =>
        rw [haccept] at h
        cases h
    | notification subject handler => rw [List.mem_singleton.1 h]
  intro p hp
  rw [hpayloads] at hp
  exact Packet.error?_of_mem_others hp

theorem BusEvent.filterMap_handlerCall?_logged (l : List LogEvent) :
    (l.map BusEvent.logged).filterMap handlerCall? = [] := by
  simp [List.filterMap_map, Function.comp_def, handlerCall?]

namespace Bus

variable {b b' b'' : Bus}

/-- The calls of handlers so far. -/
def handlerCalls (b : Bus) : List HandlerCall := b.events.filterMap BusEvent.handlerCall?

theorem handlerCalls_record (b : Bus) (e : BusEvent) :
    (b.record e).handlerCalls = b.handlerCalls ++ e.handlerCall?.toList := by
  cases h : e.handlerCall? <;> simp [handlerCalls, record, h]

theorem handlerCalls_log (b : Bus) (scope : Option Identity) (level : LogLevel) (message : String)
    (fields : List (String × String)) : (b.log scope level message fields).handlerCalls = b.handlerCalls :=
  (handlerCalls_record b _).trans (List.append_nil _)

/-! ### Nothing but logging -/

/-- Things were logged, and encoders were used, but nothing else happened. -/
structure OnlyLogs (b b' : Bus) : Prop where
  changed : Changed .none b b'
  events : ∃ l : List LogEvent, b'.events = b.events ++ l.map .logged

theorem OnlyLogs.refl (b : Bus) : OnlyLogs b b := ⟨.refl_none b, [], (List.append_nil _).symm⟩

theorem OnlyLogs.trans (h : OnlyLogs b b') (h' : OnlyLogs b' b'') : OnlyLogs b b'' := by
  obtain ⟨l, hl⟩ := h.events
  obtain ⟨l', hl'⟩ := h'.events
  refine ⟨h.changed.none_trans h'.changed, l ++ l', ?_⟩
  rw [hl', hl, List.append_assoc, List.map_append]

theorem OnlyLogs.handlerCalls_eq (h : OnlyLogs b b') : b'.handlerCalls = b.handlerCalls := by
  obtain ⟨l, hl⟩ := h.events
  rw [handlerCalls, hl, List.filterMap_append, BusEvent.filterMap_handlerCall?_logged, List.append_nil]
  rfl

theorem onlyLogs_log (b : Bus) (scope : Option Identity) (level : LogLevel) (message : String)
    (fields : List (String × String)) : OnlyLogs b (b.log scope level message fields) :=
  ⟨changed_record b _, [_], rfl⟩

/-- One entry in the log for each item of a list. -/
theorem onlyLogs_foldl {α : Type} (l : List α) (b : Bus) (scope : Option Identity) (message : String)
    (fields : α → List (String × String)) :
    OnlyLogs b (l.foldl (fun b a => b.log scope .warn message (fields a)) b) := by
  induction l generalizing b with
  | nil => exact .refl b
  | cons a l ih => exact (onlyLogs_log b _ _ _ _).trans (ih _)

theorem onlyLogs_decodeFor (scopes : Scopes) {client : Nat} {c : Client} (hc : b.clients[client]? = some c)
    (message : Outgoing) : OnlyLogs b (decodeFor scopes client c message b).2 := by
  have hencoders : OnlyLogs b (b.updateClient client fun c' =>
      { c' with encoders := (c.encoders.decodeDetected message.bytes).2 }) :=
    ⟨(still_updateEncoders hc (c.encoders.sameDesk_decodeDetected message.bytes)).changed, [],
      (List.append_nil _).symm⟩
  unfold decodeFor
  split
  rename_i result encoders hdecoded
  rw [hdecoded] at hencoders
  cases result with
  | ok p => exact hencoders
  | error e => exact hencoders.trans (onlyLogs_log _ _ _ _ _)

/-! ### Handler calls among other things -/

/-- Handlers may have been called, but all these calls have a property. -/
def CallsOnly (Q : HandlerCall → Prop) (b b' : Bus) : Prop :=
  ∃ l, b'.handlerCalls = b.handlerCalls ++ l ∧ ∀ call ∈ l, Q call

variable {Q : HandlerCall → Prop}

theorem CallsOnly.of_eq (h : b'.handlerCalls = b.handlerCalls) : CallsOnly Q b b' :=
  ⟨[], h.trans (List.append_nil _).symm, by simp⟩

theorem CallsOnly.refl (b : Bus) : CallsOnly Q b b := .of_eq rfl

theorem CallsOnly.trans (h : CallsOnly Q b b') (h' : CallsOnly Q b' b'') : CallsOnly Q b b'' := by
  obtain ⟨l, hl, hQ⟩ := h
  obtain ⟨l', hl', hQ'⟩ := h'
  refine ⟨l ++ l', by rw [hl', hl, List.append_assoc], fun call hcall => ?_⟩
  rcases List.mem_append.1 hcall with hcall | hcall
  · exact hQ call hcall
  · exact hQ' call hcall

/-- Whoever hears a message calls handlers only in ways with a property. -/
def Hearing.CallsOnly (Q : HandlerCall → Prop) (hear : Hearing) : Prop :=
  ∀ client message b, Bus.CallsOnly Q b (hear client message b)

namespace Hearing.CallsOnly

variable {hear : Hearing}

theorem deliver (h : hear.CallsOnly Q) (message : Outgoing) (listeners : List Listener) (b : Bus) :
    Bus.CallsOnly Q b (Bus.deliver hear message listeners b) := by
  induction listeners generalizing b with
  | nil => exact .refl b
  | cons listener rest ih =>
    cases listener with
    | tap =>
      have htapped : (b.record (.tapped message)).handlerCalls = b.handlerCalls := by
        rw [handlerCalls_record]
        exact List.append_nil _
      exact (Bus.CallsOnly.of_eq htapped).trans (ih _)
    | client j => exact (h j message b).trans (ih _)

theorem transmitFrom (h : hear.CallsOnly Q) (endpoint : Nat) (message : Outgoing) (b : Bus) :
    Bus.CallsOnly Q b (Bus.transmitFrom hear endpoint message b).2 := by
  unfold Bus.transmitFrom
  split
  · exact .refl b
  · exact h.deliver message _ b

theorem transmit (h : hear.CallsOnly Q) (client : Nat) (line : Line) (message : Outgoing) (b : Bus) :
    Bus.CallsOnly Q b (Bus.transmit hear client line message b).2 := by
  cases line with
  | endpoint id => exact h.transmitFrom id message b
  | tape refusing =>
    refine .of_eq ?_
    rw [Bus.transmit, handlerCalls_record]
    exact List.append_nil _

/-- The encoders that are used on the way to the line have no part in it. -/
theorem publishBy (h : hear.CallsOnly Q) (client : Nat) (topic : List String) (packet : Option Packet)
    (codec : Option Codec) (b : Bus) : Bus.CallsOnly Q b (Bus.publishBy hear client topic packet codec b).2 := by
  unfold Bus.publishBy
  cases hc : b.clients[client]? with
  | none =>
    unfold publishVia
    simp only [hc]
    exact .refl b
  | some c =>
    obtain ⟨hsent, hrefused⟩ := publishVia_eq (Bus.transmit hear client) hc topic packet codec
    cases hprepared : (c.encoders.prepare topic packet codec).1 with
    | error e =>
      rw [hrefused e hprepared]
      exact .of_eq rfl
    | ok message =>
      rw [hsent message hprepared]
      exact (Bus.CallsOnly.of_eq rfl).trans (h.transmit client c.line message _)

end Hearing.CallsOnly

/-! ### Routes -/

variable {hear : Hearing} {client : Nat} {packet : Packet}

/-- The errors of a packet are logged or told, but no handler is called with them. -/
theorem handlerCalls_handleErrors (hear : Hearing) (scopes : Scopes) (client : Nat) (owner : Identity) (route : Route)
    (packet : Packet) (errors : List ErrorPayload) (b : Bus) :
    ((executorBy hear scopes client owner route).handleErrors packet errors b).handlerCalls = b.handlerCalls := by
  cases route with
  | reply serial =>
    simp only [executorBy, replyExecutor]
    split
    · rw [handlerCalls_record]
      exact List.append_nil _
    · rfl
  | request subject h => exact (onlyLogs_foldl errors b _ _ _).handlerCalls_eq
  | notification subject h => exact (onlyLogs_foldl errors b _ _ _).handlerCalls_eq

/-- A route calls its handler with what is no error in a packet. All other calls that come of it are due to the
answer, which is published afterwards. -/
theorem handlerCalls_handlePayloads (hhear : hear.CallsOnly Q) (scopes : Scopes) (client : Nat) (owner : Identity)
    (route : Route) (packet : Packet) (b : Bus) :
    ∃ b₁, b₁.handlerCalls = b.handlerCalls ++ route.callsFor client packet ∧
      CallsOnly Q b₁ ((executorBy hear scopes client owner route).handlePayloads packet packet.others b).2 := by
  cases route with
  | reply serial =>
    refine ⟨b, (List.append_nil _).symm, .of_eq ?_⟩
    simp only [executorBy, replyExecutor]
    split <;> rfl
  | request subject h =>
    simp only [executorBy, Route.callsFor]
    cases haccept : RequestHandler.accept subject packet with
    | error e =>
      refine ⟨b, (List.append_nil _).symm, .of_eq ?_⟩
      simp only [requestExecutor, haccept]
    | ok request =>
      obtain ⟨b₁, -, ⟨l, hl⟩, hhandled⟩ :=
        handlePayloads_request hear scopes client owner subject h haccept packet.others b
      refine ⟨b₁, ?_, ?_⟩
      · have hcall : (BusEvent.handled client h.name (.rpc request) packet.others).handlerCall? =
            some ⟨client, h.name, .rpc request, packet.others⟩ := rfl
        rw [handlerCalls, hl, List.filterMap_append, List.filterMap_cons_some hcall,
          BusEvent.filterMap_handlerCall?_logged]
        rfl
      · rw [hhandled]
        exact hhear.publishBy client request.replyTopic _ none b₁
  | notification subject h => exact ⟨_, handlerCalls_record b _, .refl _⟩

/-! ### Dispatches -/

/-- The route of a message handles it, between some logging before and after. -/
theorem dispatchBy_of_route {c : Client} (hc : b.clients[client]? = some c) {message : Outgoing} {route : Route}
    (hroute : c.tree.get? (Topic.split message.topic) = some route) (hear : Scopes → Hearing) (others : Scopes) :
    let scopes := others.enter client c.identity
    ∃ b₁, OnlyLogs b b₁ ∧
      let executed := (executorBy (hear scopes) scopes client c.identity route).execute
        (c.encoders.decodeDetected message.bytes).1.toOption b₁
      (dispatchBy hear others client message b).1 = executed.1 ∧
        OnlyLogs executed.2 (dispatchBy hear others client message b).2 := by
  intro scopes
  refine ⟨_, onlyLogs_decodeFor scopes hc message, ?_⟩
  rw [← decodeFor_fst scopes client c message b]
  simp only [dispatchBy, hc, hroute]
  exact ⟨rfl, onlyLogs_foldl _ _ _ _ _⟩

/-- What a dispatch calls when a packet comes in on a route. -/
theorem handlerCalls_dispatchBy {c : Client} (hc : b.clients[client]? = some c) {message : Outgoing} {route : Route}
    (hroute : c.tree.get? (Topic.split message.topic) = some route)
    (hpacket : (c.encoders.decodeDetected message.bytes).1.toOption.bind Packet.ofPayload? = some packet)
    {hear : Scopes → Hearing} (hhear : ∀ scopes, (hear scopes).CallsOnly Q) (others : Scopes) :
    ∃ nested, (dispatchBy hear others client message b).2.handlerCalls =
        b.handlerCalls ++ route.callsFor client packet ++ nested ∧ ∀ call ∈ nested, Q call := by
  obtain ⟨b₁, hbefore, -, hafter⟩ := dispatchBy_of_route hc hroute hear others
  rw [Executor.execute_of_packet _ hpacket] at hafter
  obtain ⟨b₂, hb₂⟩ : ∃ b₂, b₂ = if packet.errors.isEmpty then b₁
      else (executorBy (hear (others.enter client c.identity)) (others.enter client c.identity) client c.identity
        route).handleErrors packet packet.errors b₁ := ⟨_, rfl⟩
  have hcalls : b₂.handlerCalls = b.handlerCalls := by
    rw [hb₂, ← hbefore.handlerCalls_eq]
    split
    · rfl
    · exact handlerCalls_handleErrors _ _ _ _ _ _ _ _
  simp only [← hb₂] at hafter
  obtain ⟨b₃, hown, l, hl, hQ⟩ := handlerCalls_handlePayloads (hhear _) (others.enter client c.identity) client
    c.identity route packet b₂
  exact ⟨l, by rw [hafter.handlerCalls_eq, hl, hown, hcalls], hQ⟩

theorem callsOnly_dispatchBy {hear : Scopes → Hearing} (hhear : ∀ scopes, (hear scopes).CallsOnly HandlerCall.Sifted)
    (others : Scopes) (client : Nat) (message : Outgoing) (b : Bus) :
    CallsOnly HandlerCall.Sifted b (dispatchBy hear others client message b).2 := by
  cases hc : b.clients[client]? with
  | none =>
    simp only [dispatchBy, hc]
    exact .refl b
  | some c =>
    cases hroute : c.tree.get? (Topic.split message.topic) with
    | none =>
      simp only [dispatchBy, hc, hroute]
      exact .refl b
    | some route =>
      cases hpacket : (c.encoders.decodeDetected message.bytes).1.toOption.bind Packet.ofPayload? with
      | none =>
        obtain ⟨b₁, hbefore, -, hafter⟩ := dispatchBy_of_route hc hroute hear others
        rw [Executor.execute_of_none _ hpacket] at hafter
        exact .of_eq (hbefore.trans hafter).handlerCalls_eq
      | some packet =>
        obtain ⟨nested, hcalls, hnested⟩ := handlerCalls_dispatchBy hc hroute hpacket hhear others
        refine ⟨route.callsFor client packet ++ nested, by rw [hcalls, List.append_assoc], fun call hcall => ?_⟩
        rcases List.mem_append.1 hcall with hcall | hcall
        · exact Route.sifted_of_mem_callsFor hcall
        · exact hnested call hcall

/-- However deep deliveries nest, no handler is called with an error. -/
theorem callsOnly_hear (room : Nat) (scopes : Scopes) : (Bus.hear room scopes).CallsOnly HandlerCall.Sifted := by
  induction room generalizing scopes with
  | zero => exact fun _ _ b => .refl b
  | succ room ih =>
    intro client message b
    rw [Bus.hear]
    split
    · exact callsOnly_dispatchBy ih scopes client message b
    · exact .refl b

/-- Where nobody is left to hear an answer, no further handler is called. -/
theorem callsOnly_hear_of_room (room : Nat) (scopes : Scopes) :
    (Bus.hear room scopes).CallsOnly fun call => call.Sifted ∧ room ≠ 0 := by
  cases room with
  | zero => exact fun _ _ b => .refl b
  | succ room =>
    intro client message b
    obtain ⟨l, hl, hsifted⟩ := callsOnly_hear (room + 1) scopes client message b
    exact ⟨l, hl, fun call hcall => ⟨hsifted call hcall, Nat.succ_ne_zero room⟩⟩

/-- A message that reaches a client is handled by the one route at its topic, and at most one error is reported.
Without a route there nothing happens. What is no packet is reported as such, and nothing is done but logging. A
packet is handled in two halves, first its errors, if there are any, and then all that is left of it, both in their
order; the second half always, and what is reported is its failure. So the handler of the route is called once, and
neither it nor any other handler to which the answer leads is called with an error. -/
theorem dispatches {c : Client} (hc : b.clients[client]? = some c) (room : Nat) (others : Scopes)
    (message : Outgoing) :
    let dispatched := dispatchBy (Bus.hear room) others client message b
    let found := c.tree.get? (Topic.split message.topic)
    let decoded := (c.encoders.decodeDetected message.bytes).1.toOption
    (c.encoders.Sound →
      decoded = ((Codec.detect message.bytes).decode c.encoders.types message.bytes).toOption) ∧
    dispatched.1.length ≤ 1 ∧
    (found = none → dispatched = ([], b)) ∧
    ∀ route, found = some route →
      (decoded.bind Packet.ofPayload? = none → dispatched.1 = [.noValidPacket] ∧ OnlyLogs b dispatched.2) ∧
      ∀ packet, decoded.bind Packet.ofPayload? = some packet →
        (packet.errors.map Payload.error = packet.payloads.filter (·.error?.isSome) ∧
          packet.others = packet.payloads.filter (·.error?.isNone) ∧
          (packet.errors.map Payload.error ++ packet.others).Perm packet.payloads) ∧
        (∃ b₁, OnlyLogs b b₁ ∧
          let scopes := others.enter client c.identity
          let x := executorBy (Bus.hear room scopes) scopes client c.identity route
          let handled := x.handlePayloads packet packet.others
            (if packet.errors.isEmpty then b₁ else x.handleErrors packet packet.errors b₁)
          dispatched.1 = (match handled.1 with
            | .ok () => []
            | .error e => [.processingFailed e.code e.message]) ∧
          OnlyLogs handled.2 dispatched.2) ∧
        ∃ nested, dispatched.2.handlerCalls = b.handlerCalls ++ route.callsFor client packet ++ nested ∧
          (∀ call ∈ route.callsFor client packet ++ nested, call.Sifted) ∧ (room = 0 → nested = []) := by
  intro dispatched found decoded
  refine ⟨fun hsound => ?_, ?_, fun hfound => ?_, fun route hroute => ⟨fun hnone => ?_, fun packet hpacket => ?_⟩⟩
  · simp only [decoded, hsound.decodeDetected_fst]
  · cases hroute : c.tree.get? (Topic.split message.topic) with
    | none => simp [dispatched, dispatchBy, hc, hroute]
    | some route =>
      obtain ⟨b₁, -, hreported, -⟩ := dispatchBy_of_route hc hroute (Bus.hear room) others
      simp only [dispatched, hreported]
      exact Executor.length_execute_le _ _ _
  · have hnone : c.tree.get? (Topic.split message.topic) = none := hfound
    simp only [dispatched, dispatchBy, hc, hnone]
  · obtain ⟨b₁, hbefore, hreported, hafter⟩ := dispatchBy_of_route hc hroute (Bus.hear room) others
    rw [Executor.execute_of_none _ hnone] at hreported hafter
    exact ⟨hreported, hbefore.trans hafter⟩
  · refine ⟨⟨packet.map_error_errors, rfl, packet.perm_errors_others⟩, ?_, ?_⟩
    · obtain ⟨b₁, hbefore, hreported, hafter⟩ := dispatchBy_of_route hc hroute (Bus.hear room) others
      rw [Executor.execute_of_packet _ hpacket] at hreported hafter
      exact ⟨b₁, hbefore, hreported, hafter⟩
    · obtain ⟨nested, hcalls, hnested⟩ :=
        handlerCalls_dispatchBy hc hroute hpacket (callsOnly_hear_of_room room) others
      refine ⟨nested, hcalls, fun call hcall => ?_, fun hroom => ?_⟩
      · rcases List.mem_append.1 hcall with hcall | hcall
        · exact Route.sifted_of_mem_callsFor hcall
        · exact (hnested call hcall).1
      · exact List.eq_nil_iff_forall_not_mem.2 fun call hcall => (hnested call hcall).2 hroom

private def penstock : Identity := ⟨["demo"], "plant", "pumps", "penstock"⟩

private def buzzer : NotificationHandler := ⟨"buzzer", fun _ _ => .error (.handler "BUSY" "try later")⟩

/-- A client with a handler for notifications about its level. -/
private def watched : Client :=
  let client := Client.of penstock (.empty .standard .messagePack 4) (.tape false)
  (client.listen ⟨["level"]⟩ buzzer).toOption.getD client

private def watching : Bus := { empty with clients := [watched] }

/-- A notification with an error and a number. -/
private def leak : Packet :=
  ⟨.plain (Header.of ⟨["level"]⟩ ⟨["demo"], "plant", "control", "console"⟩), [.error ⟨"LEAK", "seal"⟩, .integer 3]⟩

private def leaking : Bytes := MessagePack.encode leak.toPayload.toRecord

/-- The handler is called once, with one of the two payloads. A single byte on the same topic is no packet, and on
another topic it goes unnoticed. -/
theorem dispatches_leak :
    (∃ call, (dispatchBy (Bus.hear 0) [] 0 ⟨"demo.plant.pumps.penstock.level", leaking⟩ watching).2.handlerCalls =
        [call] ∧ call.handler = "buzzer" ∧ call.payloads.length = 1) ∧
      (dispatchBy (Bus.hear 0) [] 0 ⟨"demo.plant.pumps.penstock.level", [7]⟩ watching).1 = [.noValidPacket] ∧
      dispatchBy (Bus.hear 0) [] 0 ⟨"demo.plant.pumps.penstock.flow", [7]⟩ watching = ([], watching) := by
  have hc : watching.clients[0]? = some watched := rfl
  have hlevel : watched.tree.get? (Topic.split "demo.plant.pumps.penstock.level") =
      some (.notification ⟨["level"]⟩ buzzer) := rfl
  have hsound : watched.encoders.Sound := EncoderPool.sound_empty .standard .messagePack 4
  have hdecoded : (((Codec.detect leaking).decode watched.encoders.types leaking).toOption.bind Packet.ofPayload?).any
      (·.others.length == 1) = true := by decide +kernel
  refine ⟨?_, ?_, ?_⟩
  · obtain ⟨hdecode, -, -, hroute⟩ := dispatches hc 0 [] ⟨"demo.plant.pumps.penstock.level", leaking⟩
    rw [← hdecode hsound] at hdecoded
    obtain ⟨packet, hpacket, hlength⟩ := (Option.any_eq_true _ _).1 hdecoded
    obtain ⟨-, hcalled⟩ := hroute _ hlevel
    obtain ⟨-, -, nested, hcalls, -, hnested⟩ := hcalled packet hpacket
    rw [hnested rfl, List.append_nil] at hcalls
    exact ⟨_, hcalls, rfl, beq_iff_eq.1 hlength⟩
  · obtain ⟨-, -, -, hroute⟩ := dispatches hc 0 [] ⟨"demo.plant.pumps.penstock.level", [7]⟩
    exact ((hroute _ hlevel).1 (by decide +kernel)).1
  · obtain ⟨-, -, hlost, -⟩ := dispatches hc 0 [] ⟨"demo.plant.pumps.penstock.flow", [7]⟩
    exact hlost rfl

end Bus

end Switchboard
