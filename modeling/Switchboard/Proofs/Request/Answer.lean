import Switchboard.Proofs.Codec.Conveyance
import Switchboard.Proofs.Delivery.Publishing
import Switchboard.Proofs.Executor

/-!
# How requests are answered

A request handler answers with the payloads it makes, or with the error it fails with; either is one packet on the
path on which the sender of the request waits (`Bus.answers_once`). There is no second answer, nor a substitute for
payloads that cannot be published: then nothing is published, and what stood in the way is reported.
-/

namespace Switchboard

/-- A packet with a valid header passes the check if its payloads do. -/
theorem Packet.validate_rpc {h : RpcHeader} (hh : h.validate = .ok ()) (payloads : List Payload) :
    (⟨.rpc h, payloads⟩ : Packet).validate = Payload.validateAll payloads := by
  unfold Packet.validate Packet.toPayload Payload.validate PacketHeader.validate
  simp only [hh, bind, Except.bind]

/-- A single error may be sent if it has a code. -/
theorem ErrorPayload.validateAll_singleton (e : ErrorPayload) : Payload.validateAll [.error e] =
    if e.code = "" then .error (.invalidPayload ErrorPayload.tag "code is empty") else .ok () := by
  simp only [Payload.validateAll, Payload.validate, ErrorPayload.validate, String.isEmpty_iff]
  split <;> rfl

namespace Bus

variable {b b' b'' : Bus} {client : Nat} {c : Client}

/-! ### What is published -/

/-- Between two states of the bus a client hands these messages to its line, and nothing else is published. -/
def Hands (hear : Hearing) (client : Nat) (line : Line) : List Outgoing → Bus → Bus → Prop
  | [], b, b'' => Still b b''
  | message :: rest, b, b'' =>
    ∃ b', Still b b' ∧ Hands hear client line rest (transmit hear client line message b').2 b''

/-- The line takes what is handed to it. -/
def Takes (b : Bus) : Line → Prop
  | .endpoint id => b.broker.isConnected id = true
  | .tape refusing => refusing = false

/-- What is on the tapes. -/
def tapes (b : Bus) : List (Nat × Outgoing) :=
  b.events.filterMap fun | .taped client message => some (client, message) | _ => none

theorem Takes.of_still {line : Line} (h : b.Takes line) (hstill : Still b b') : b'.Takes line := by
  cases line with
  | tape refusing => exact h
  | endpoint id =>
    unfold Takes
    rw [hstill.changed.broker]
    exact h

theorem transmit_fst {line : Line} (h : b.Takes line) (hear : Hearing) (client : Nat) (message : Outgoing) :
    (transmit hear client line message b).1 = .ok () := by
  cases line with
  | tape refusing =>
    obtain rfl : refusing = false := h
    rfl
  | endpoint id =>
    have hconnected : b.broker.isConnected id = true := h
    simp [transmit, transmitFrom, Broker.publish, Broker.requireConnected, hconnected, bind, Except.bind, pure,
      Except.pure]

theorem Still.tapes_eq (h : Still b b') : b'.tapes = b.tapes := by
  obtain ⟨l, hl, hinner⟩ := h.events
  have hnone : l.filterMap (fun | .taped client message => some (client, message) | _ => none) = [] := by
    apply List.filterMap_eq_nil_iff.2
    intro e he
    cases e with
    | taped client message => exact (hinner _ he).elim
    | _ => rfl
  unfold tapes
  rw [hl, List.filterMap_append, hnone, List.append_nil]

/-- On a tape the messages that were handed over stand one after the other. -/
theorem Hands.tapes_eq {hear : Hearing} {refusing : Bool} {messages : List Outgoing}
    (h : Hands hear client (.tape refusing) messages b b'') :
    b''.tapes = b.tapes ++ messages.map fun message => (client, message) := by
  induction messages generalizing b with
  | nil => rw [Still.tapes_eq h, List.map_nil, List.append_nil]
  | cons message rest ih =>
    obtain ⟨b', hstill, hrest⟩ := h
    rw [ih hrest, List.map_cons]
    have htaped : (transmit hear client (.tape refusing) message b').2.tapes = b'.tapes ++ [(client, message)] := by
      simp [transmit, tapes, record]
    rw [htaped, hstill.tapes_eq, List.append_assoc]
    rfl

/-! ### One request -/

/-- What a request handler does with a request: it is called, and the bus is still up to the moment when it publishes
the answer. -/
theorem execute_request (hear : Hearing) (scopes : Scopes) (client : Nat) (responder : Identity) (bound : Subject)
    (h : RequestHandler) {request : RpcHeader} (hrequest : request.validate = .ok ()) (payloads : List Payload)
    (b : Bus) :
    let packet : Packet := ⟨.rpc request, payloads⟩
    let result := h.run request packet.others
    let reply := RequestHandler.replyPacket responder request (RequestHandler.answer result)
    ∃ b', Still b b' ∧ .handled client h.name (.rpc request) packet.others ∈ b'.events ∧
      let published := publishBy hear client request.replyTopic (some reply) none b'
      (requestExecutor hear scopes client responder bound h).execute (some packet.toPayload) b =
        (match published.1, result with
          | .error e, _ => [.ofBusError e]
          | .ok (), .error e => [.ofBusError e]
          | .ok (), .ok _ => [], published.2) := by
  intro packet result reply
  -- errors among the payloads are logged before the handler is called
  have herrors : ∃ b₁, Still b b₁ ∧ b₁ = if packet.errors.isEmpty then b
      else (requestExecutor hear scopes client responder bound h).handleErrors packet packet.errors b := by
    refine ⟨_, ?_, rfl⟩
    split
    · exact .refl b
    · exact still_logErrors b _ _ _ _
  obtain ⟨b₁, hstill₁, hb₁⟩ := herrors
  have haccept : RequestHandler.accept bound packet = .ok request := by
    unfold RequestHandler.accept
    simp only [packet, hrequest]
  have hpacket : (some packet.toPayload).bind Packet.ofPayload? = some packet := rfl
  have hexecute := (requestExecutor hear scopes client responder bound h).execute_of_packet hpacket b
  rw [← hb₁] at hexecute
  obtain ⟨b₂, hstill₂, ⟨l, hl⟩, hhandled⟩ :=
    handlePayloads_request hear scopes client responder bound h haccept packet.others b₁
  refine ⟨b₂, hstill₁.trans hstill₂, by simp [hl], ?_⟩
  rw [hexecute]
  simp only [hhandled, reply, result]
  generalize publishBy hear client request.replyTopic _ none b₂ = published
  obtain ⟨outcome, b₃⟩ := published
  cases outcome with
  | error e => rfl
  | ok _ => cases h.run request packet.others <;> rfl

/-- What is reported when an answer was published: the error of the handler, if it failed. -/
def reportOf : Except BusError (List Payload) → List ExecutionError
  | .ok _ => []
  | .error e => [.ofBusError e]

/-- The answer of a handler is one message that is handed to the line, if the line takes it. -/
theorem execute_request_of_publishable (hear : Hearing) (scopes : Scopes) (bound : Subject) (h : RequestHandler)
    (hc : b.clients[client]? = some c) (hsound : c.encoders.Sound) (htakes : b.Takes c.line) (responder : Identity)
    {request : RpcHeader} (hrequest : request.validate = .ok ())
    (htopic : request.replyTopic ≠ [] ∧ ∀ s ∈ request.replyTopic, Segment.Valid s) {payloads : List Payload}
    {reply : Packet} {bytes : Bytes}
    (hreply : reply = RequestHandler.replyPacket responder request
      (RequestHandler.answer (h.run request (Packet.mk (.rpc request) payloads).others)))
    (hvalid : reply.validate = .ok ()) (hbytes : c.encoders.standard.encode reply.toPayload = .ok bytes) :
    ∃ b', Still b b' ∧
      (requestExecutor hear scopes client responder bound h).execute
          (some (Packet.mk (.rpc request) payloads).toPayload) b =
        (reportOf (h.run request (Packet.mk (.rpc request) payloads).others),
          (transmit hear client c.line ⟨Topic.join request.replyTopic, bytes⟩ b').2) := by
  obtain ⟨b₁, hstill, -, hexecute⟩ := execute_request hear scopes client responder bound h hrequest payloads b
  obtain ⟨c₁, hc₁, hchanged⟩ := hstill.changed.clients hc
  have hprepared : (c₁.encoders.prepare request.replyTopic (some reply) none).1 =
      .ok ⟨Topic.join request.replyTopic, bytes⟩ := by
    apply (hchanged.encoders.sound hsound).prepare_eq_ok htopic hvalid
    rw [hchanged.encoders.standard]
    exact hbytes
  obtain ⟨b₂, hstill', hpublish⟩ := publishVia_eq_send (transmit hear client) hc₁ hprepared
  refine ⟨b₂, hstill.trans hstill', ?_⟩
  rw [hchanged.line] at hpublish
  have hsent := transmit_fst (htakes.of_still (hstill.trans hstill')) hear client
    ⟨Topic.join request.replyTopic, bytes⟩
  rw [hexecute]
  simp only [publishBy, ← hreply, hpublish, hsent, Except.mapError]
  cases h.run request (Packet.mk (.rpc request) payloads).others <;> rfl

/-- The handler is called, but an answer that is refused is not published, and the fault is reported. -/
theorem execute_request_of_refused (hear : Hearing) (scopes : Scopes) (bound : Subject) (h : RequestHandler)
    (hc : b.clients[client]? = some c) (responder : Identity) {request : RpcHeader}
    (hrequest : request.validate = .ok ()) {payloads : List Payload} {reply : Packet}
    (hreply : reply = RequestHandler.replyPacket responder request
      (RequestHandler.answer (h.run request (Packet.mk (.rpc request) payloads).others))) {e : BusError}
    (he : ∀ pool, c.encoders.SameDesk pool → (pool.prepare request.replyTopic (some reply) none).1 = .error e) :
    ∃ b', Still b b' ∧ .handled client h.name (.rpc request) (Packet.mk (.rpc request) payloads).others ∈ b'.events ∧
      (requestExecutor hear scopes client responder bound h).execute
          (some (Packet.mk (.rpc request) payloads).toPayload) b = ([.ofBusError e], b') := by
  obtain ⟨b₁, hstill, hcalled, hexecute⟩ :=
    execute_request hear scopes client responder bound h hrequest payloads b
  obtain ⟨c₁, hc₁, hchanged⟩ := hstill.changed.clients hc
  obtain ⟨b₂, hstill', hpublish⟩ := publishVia_eq_error (transmit hear client) hc₁ (he _ hchanged.encoders)
  obtain ⟨l, hl, -⟩ := hstill'.events
  refine ⟨b₂, hstill.trans hstill', by rw [hl]; exact List.mem_append_left l hcalled, ?_⟩
  rw [hexecute]
  simp only [publishBy, ← hreply, hpublish]

/-- An answer that may not be sent, or not be encoded, is refused. -/
theorem execute_request_of_unpublishable (hear : Hearing) (scopes : Scopes) (bound : Subject) (h : RequestHandler)
    (hc : b.clients[client]? = some c) (hsound : c.encoders.Sound) (responder : Identity) {request : RpcHeader}
    (hrequest : request.validate = .ok ())
    (htopic : request.replyTopic ≠ [] ∧ ∀ s ∈ request.replyTopic, Segment.Valid s) {payloads : List Payload}
    {reply : Packet}
    (hreply : reply = RequestHandler.replyPacket responder request
      (RequestHandler.answer (h.run request (Packet.mk (.rpc request) payloads).others))) {e : BusError}
    (he : (∃ cause, reply.validate = .error cause ∧ e = .validation cause) ∨
      ∃ cause, reply.validate = .ok () ∧ c.encoders.standard.encode reply.toPayload = .error cause ∧
        e = .codec cause) :
    ∃ b', Still b b' ∧
      (requestExecutor hear scopes client responder bound h).execute
          (some (Packet.mk (.rpc request) payloads).toPayload) b = ([.ofBusError e], b') := by
  have hrefused : ∀ pool, c.encoders.SameDesk pool →
      (pool.prepare request.replyTopic (some reply) none).1 = .error e := by
    intro pool hdesk
    obtain ⟨hvalidation, hcodec⟩ := (hdesk.sound hsound).prepare_eq_error htopic reply
    rcases he with ⟨cause, hcause, rfl⟩ | ⟨cause, hvalid, hcause, rfl⟩
    · exact hvalidation cause hcause
    · rw [hdesk.standard] at hcodec
      exact hcodec cause hvalid hcause
  obtain ⟨b', hstill, -, hexecuted⟩ :=
    execute_request_of_refused hear scopes bound h hc responder hrequest hreply hrefused
  exact ⟨b', hstill, hexecuted⟩

/-! ### Every outcome of a handler -/

/-- A request with a header made from valid parts is answered by one packet on the path on which its sender waits:
with the payloads of the handler, if they may be sent and can be encoded, or with its error, if that has a code.
Nothing takes the place of payloads that may not be sent, or cannot be encoded; that is reported. -/
theorem answers_once {subject : Subject} (hsubject : subject.Valid) {source responder : Identity}
    (hsource : source.Valid) (hresponder : responder.Valid) {d : Destination} (hd : ∀ s ∈ d.names, Segment.Valid s)
    {id : CorrelationId} (hid : CorrelationId.isHyphenated id.text.toList = true)
    (hc : b.clients[client]? = some c) (hsound : c.encoders.Sound) (htakes : b.Takes c.line) (hear : Hearing)
    (scopes : Scopes) (bound : Subject) (h : RequestHandler) (payloads : List Payload) :
    let request := RpcHeader.of subject source d id
    let packet : Packet := ⟨.rpc request, payloads⟩
    let result := h.run request packet.others
    let reply := fun answer : List Payload => (⟨.rpc (request.replyTo responder), answer⟩ : Packet)
    let topic := Topic.join (source.address ++ [Segment.reply, id.text])
    let executed := (requestExecutor hear scopes client responder bound h).execute (some packet.toPayload) b
    (∀ answer bytes, result = .ok answer → Payload.validateAll answer = .ok () →
      c.encoders.standard.encode (reply answer).toPayload = .ok bytes →
        Hands hear client c.line [⟨topic, bytes⟩] b executed.2 ∧ executed.1 = []) ∧
    (∀ e, result = .error e → e.code ≠ "" →
      ∃ bytes, c.encoders.standard.encode (reply [.error e.toPayload]).toPayload = .ok bytes ∧
        Hands hear client c.line [⟨topic, bytes⟩] b executed.2 ∧ executed.1 = [.ofBusError e]) ∧
    (∀ answer cause, result = .ok answer → Payload.validateAll answer = .error cause →
      Hands hear client c.line [] b executed.2 ∧ executed.1 = [.ofBusError (.validation cause)]) ∧
    ∀ answer cause, result = .ok answer → Payload.validateAll answer = .ok () →
      c.encoders.standard.encode (reply answer).toPayload = .error cause →
        Hands hear client c.line [] b executed.2 ∧ executed.1 = [.ofBusError (.codec cause)] := by
  intro request packet result reply topic executed
  have hsegment := CorrelationId.valid_of_isHyphenated hid
  have hrequest : request.validate = .ok () := RpcHeader.validate_of hsubject hsource hd hsegment.1
  have hheader : (request.replyTo responder).validate = .ok () :=
    RpcHeader.validate_replyTo_of hsubject hsource hresponder hsegment.1
  have htopic : request.replyTopic ≠ [] ∧ ∀ s ∈ request.replyTopic, Segment.Valid s :=
    RpcHeader.valid_replyTopic_of hsource hid
  have hreply : ∀ {answer}, RequestHandler.answer result = answer → reply answer =
      RequestHandler.replyPacket responder request (RequestHandler.answer (h.run request packet.others)) := by
    intro answer hanswer
    rw [← hanswer]
    rfl
  have hpublished : ∀ answer bytes, RequestHandler.answer result = answer → Payload.validateAll answer = .ok () →
      c.encoders.standard.encode (reply answer).toPayload = .ok bytes →
        Hands hear client c.line [⟨topic, bytes⟩] b executed.2 ∧ executed.1 = reportOf result := by
    intro answer bytes hanswer hvalid hbytes
    obtain ⟨b', hstill, hexecuted⟩ := execute_request_of_publishable hear scopes bound h hc hsound htakes responder
      hrequest htopic (hreply hanswer)
      ((Packet.validate_rpc hheader answer).trans hvalid) hbytes
    have hexecuted' : executed = _ := hexecuted
    rw [hexecuted']
    exact ⟨⟨b', hstill, .refl _⟩, rfl⟩
  have hunpublished : ∀ answer e, RequestHandler.answer result = answer →
      ((∃ cause, Payload.validateAll answer = .error cause ∧ e = .validation cause) ∨
        ∃ cause, Payload.validateAll answer = .ok () ∧
          c.encoders.standard.encode (reply answer).toPayload = .error cause ∧ e = .codec cause) →
      Hands hear client c.line [] b executed.2 ∧ executed.1 = [.ofBusError e] := by
    intro answer e hanswer he
    rw [← Packet.validate_rpc hheader answer] at he
    obtain ⟨b', hstill, hexecuted⟩ := execute_request_of_unpublishable hear scopes bound h hc hsound responder
      hrequest htopic (hreply hanswer) he
    have hexecuted' : executed = _ := hexecuted
    rw [hexecuted']
    exact ⟨hstill, rfl⟩
  refine ⟨?_, ?_, ?_, ?_⟩
  · intro answer bytes hresult hvalid hbytes
    have hboth := hpublished answer bytes (by rw [hresult]; rfl) hvalid hbytes
    rwa [hresult] at hboth
  · intro e hresult hcode
    obtain ⟨bytes, hbytes⟩ := Codec.exists_encode_error c.encoders.standard (request.replyTo responder) e.toPayload
    have hboth := hpublished [.error e.toPayload] bytes (by rw [hresult]; rfl)
      ((ErrorPayload.validateAll_singleton _).trans (if_neg hcode)) hbytes
    rw [hresult] at hboth
    exact ⟨bytes, hbytes, hboth⟩
  · intro answer cause hresult hcause
    exact hunpublished answer _ (by rw [hresult]; rfl) (.inl ⟨cause, hcause, rfl⟩)
  · intro answer cause hresult hvalid hcause
    exact hunpublished answer _ (by rw [hresult]; rfl) (.inr ⟨cause, hvalid, hcause, rfl⟩)

private def console : Identity := ⟨["demo"], "plant", "control", "console"⟩

private def gauge : Identity := ⟨["demo"], "plant", "pumps", "gauge"⟩

private def ticket : CorrelationId := ⟨"0190b5a4-7c1e-7000-8000-00000000000a"⟩

/-- A bus with a client on a tape. -/
private def gaugeOnTape : Bus := { empty with clients := [.of gauge (.empty .standard .messagePack 4) (.tape false)] }

/-- What the client does with a request to everyone, if its handler behaves as it is told. -/
private def answered (run : RpcHeader → List Payload → Except BusError (List Payload)) : List ExecutionError × Bus :=
  (requestExecutor (hear usualRoom []) [] 0 gauge ⟨["level"]⟩ ⟨"level", run⟩).execute
    (some (Packet.mk (.rpc (.of ⟨["level"]⟩ console .all ticket)) [.integer 3]).toPayload) gaugeOnTape

/-- One handler answers with a number, and another one fails. -/
theorem answers_once_number_error :
    (∃ bytes, (answered fun _ _ => .ok [.integer 7]).2.tapes =
        [(0, ⟨"demo.plant.control.console.rpc-reply.0190b5a4-7c1e-7000-8000-00000000000a", bytes⟩)]) ∧
      ∃ bytes, (answered fun _ _ => .error (.handler "DRY" "no water")).2.tapes =
        [(0, ⟨"demo.plant.control.console.rpc-reply.0190b5a4-7c1e-7000-8000-00000000000a", bytes⟩)] := by
  have hsubject : Subject.Valid ⟨["level"]⟩ := by
    refine ⟨by simp, fun s hs => ?_⟩
    exact (Segment.validateAll_eq_ok_iff ["level"]).1 rfl s hs
  have hsource : console.Valid := (Segment.validateAll_eq_ok_iff _).1 rfl
  have hresponder : gauge.Valid := (Segment.validateAll_eq_ok_iff _).1 rfl
  have hid : CorrelationId.isHyphenated ticket.text.toList = true := by decide
  have hclient : gaugeOnTape.clients[0]? = some (.of gauge (.empty .standard .messagePack 4) (.tape false)) := rfl
  have hall := fun h => answers_once hsubject hsource hresponder (d := .all) (by simp [Destination.names]) hid hclient
    (EncoderPool.sound_empty _ _ _) rfl (hear usualRoom []) [] ⟨["level"]⟩ h [.integer 3]
  constructor
  · obtain ⟨hok, -⟩ := hall ⟨"level", fun _ _ => .ok [.integer 7]⟩
    obtain ⟨hhands, -⟩ := hok _ _ rfl rfl rfl
    exact ⟨_, Hands.tapes_eq hhands⟩
  · obtain ⟨-, herror, -⟩ := hall ⟨"level", fun _ _ => .error (.handler "DRY" "no water")⟩
    obtain ⟨bytes, -, hhands, -⟩ := herror _ rfl (by decide)
    exact ⟨bytes, Hands.tapes_eq hhands⟩

/-- A handler that answers with an empty batch of log records leaves the request unanswered: there is no message on
the tape, with an error or otherwise. -/
theorem empty_batch_unanswered :
    RpcHeader.validate (.of ⟨["level"]⟩ console .all ticket) = .ok () ∧
      ¬∃ message, (answered fun _ _ => .ok [.logBatch []]).2.tapes = [(0, message)] := by
  have hnothing : (answered fun _ _ => .ok [.logBatch []]).2.tapes = [] := by decide +kernel
  refine ⟨rfl, ?_⟩
  rintro ⟨message, hmessage⟩
  rw [hnothing] at hmessage
  cases hmessage

end Bus

end Switchboard
