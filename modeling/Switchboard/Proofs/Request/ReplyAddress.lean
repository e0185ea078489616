import Switchboard.Proofs.Codec.Conveyance
import Switchboard.Proofs.Delivery.Awaiting
import Switchboard.Proofs.Request.Publication

/-!
# Where replies come in

The asker of a request computes from its identity where the replies will come in, and a responder computes from the
header of the request where to send its reply, on another machine. Both come to the same topic, to which the asker
listens, and which leads it to the request (`Bus.reply_finds_request`).
-/

namespace Switchboard

/-- A client hears what is sent to its reply paths. -/
theorem Client.any_filters_replyPath {c : Client} (hc : c.identity.Valid) {id : CorrelationId}
    (hid : CorrelationId.isHyphenated id.text.toList = true) :
    c.identity.filters.any (Filter.covering · (Topic.join (c.replyPath id))) = true := by
  rw [Identity.any_filters_iff hc (c.valid_replyPath hc hid) (by simp [Client.replyPath])]
  exact .inl (List.prefix_append _ _)

namespace Bus

variable {b : Bus} {s : Nat} {asker : Client} {id : CorrelationId} {d : Destination} {subject : Subject}
  {payloads : List Payload}

/-- On a tape the message with a request is recorded, and the request waits on its reply path alone. -/
theorem request_on_tape (hb : b.Sound) (hs : b.clients[s]? = some asker) (htape : asker.line = .tape false)
    (hsource : asker.identity.Valid) (hnames : ∀ name ∈ d.names, Segment.Valid name) (hsubject : subject.Valid)
    (hid : CorrelationId.isHyphenated id.text.toList = true) (hfresh : asker.tree.get? id.route = none)
    (hsendable : Payload.validateAll payloads = .ok ()) {bytes : Bytes}
    (hencode : asker.encoders.standard.encode
      (Packet.mk (.rpc (.of subject asker.identity d id)) payloads).toPayload = .ok bytes)
    (expected : ExpectedReplies) (timeoutMs : Nat) :
    let asked := b.request s id d subject payloads expected timeoutMs
    asked.1 = .ok asker.requests.length ∧
      asked.2.tapes = b.tapes ++ [(s, ⟨Topic.join (d.topicFor asker.identity subject), bytes⟩)] ∧
      ∃ c r, asked.2.clients[s]? = some c ∧ asker.encoders.SameDesk c.encoders ∧
        c.requests[asker.requests.length]? = some r ∧ r.collector.id = id ∧
          ∀ path, c.tree.get? path = some (.reply asker.requests.length) ↔
            asker.identity.relative path = id.route := by
  intro asked
  obtain ⟨prepared, hp⟩ := (hb.clients hs).exists_prepareRequest hfresh (.of subject asker.identity d id) expected
  have htakes : b.Takes asker.line := by
    rw [htape]
    rfl
  obtain ⟨b', hstill, hrequest⟩ := request_eq_of_takes hb hs htakes hp hsource hnames hsubject hid hsendable hencode
    timeoutMs
  obtain ⟨-, -, -, hencoders, -, hrequests, hget⟩ := (hb.clients hs).prepareRequest hp
  obtain ⟨c, hc, hchanged⟩ := hstill.changed.clients (clients_updateClient_self hs fun _ => prepared)
  have hr : c.requests[asker.requests.length]? = some ⟨.of (.of subject asker.identity d id) id expected, none⟩ := by
    obtain ⟨r, hr, hsame⟩ := hchanged.requests (k := asker.requests.length)
      (r := ⟨.of (.of subject asker.identity d id) id expected, none⟩) (by
        rw [hrequests]
        exact List.getElem?_concat_length)
    rw [hr, show r = _ from hsame]
  have hasked : asked = _ := hrequest
  rw [htape] at hasked
  rw [hasked]
  refine ⟨rfl, ?_, c.confirmRequest asker.requests.length,
    ⟨(ReplyCollector.of (.of subject asker.identity d id) id expected).markSent, none⟩, ?_, ?_, ?_, rfl, ?_⟩
  · have htapes : (b'.record (.taped s ⟨Topic.join (d.topicFor asker.identity subject), bytes⟩)).tapes =
        b'.tapes ++ [(s, ⟨Topic.join (d.topicFor asker.identity subject), bytes⟩)] := by simp [tapes, record]
    exact htapes.trans (congrArg (· ++ _) hstill.tapes_eq)
  · exact clients_updateClient_self hc (·.confirmRequest asker.requests.length)
  · exact hencoders ▸ hchanged.encoders
  · simp [Client.confirmRequest, Client.updateCollector, hr]
  · intro path
    change c.tree.get? path = _ ↔ _
    rw [hchanged.tree, hget]
    constructor
    · intro hroute
      split at hroute
      · rename_i hpath
        exact hpath.symm
      · -- no route of an earlier request leads to the new one
        obtain ⟨r, hr, -⟩ := (hb.clients hs).routes hroute
        exact absurd (List.getElem?_eq_some_iff.1 hr).1 (Nat.lt_irrefl _)
    · intro hpath
      rw [if_pos hpath.symm]

/-- A request goes out on one tape, and a responder answers it on another: the reply goes to the topic on which the
asker waits, leads there to the request and to nothing else, and comes back as a reply to this request. Either message
is encoded by either codec. -/
theorem reply_finds_request (room room' : Nat) (before before' : List Operation) {s r : Nat}
    {asker responder : Client}
    (hs : ((empty room).performAll before).clients[s]? = some asker) (htape : asker.line = .tape false)
    (hr : ((empty room').performAll before').clients[r]? = some responder) (htape' : responder.line = .tape false)
    (hasker : asker.identity.Valid) (hresponder : responder.identity.Valid) {d : Destination}
    (hnames : ∀ name ∈ d.names, Segment.Valid name) {subject : Subject} (hsubject : subject.Valid)
    {id : CorrelationId} (hid : CorrelationId.isHyphenated id.text.toList = true)
    (hfresh : asker.tree.get? id.route = none) {payloads : List Payload}
    (hsendable : Payload.validateAll payloads = .ok ())
    (hadmits : asker.encoders.standard.Admits responder.encoders.types
      (Packet.mk (.rpc (.of subject asker.identity d id)) payloads).toPayload)
    (expected : ExpectedReplies) (timeoutMs : Nat) (hear : Hearing) (scopes : Scopes) (bound : Subject)
    (h : RequestHandler) {answer : List Payload}
    (hanswer : RequestHandler.answer (h.run (.of subject asker.identity d id)
      (Packet.mk (.rpc (.of subject asker.identity d id)) payloads).others) = answer)
    (hsendable' : Payload.validateAll answer = .ok ())
    (hadmits' : responder.encoders.standard.Admits asker.encoders.types
      (Packet.mk (.rpc ((RpcHeader.of subject asker.identity d id).replyTo responder.identity)) answer).toPayload) :
    let b := (empty room).performAll before
    let asked := b.request s id d subject payloads expected timeoutMs
    let b' := (empty room').performAll before'
    let answered := fun message : Outgoing =>
      (requestExecutor hear scopes r responder.identity bound h).execute
        (responder.encoders.decodeDetected message.bytes).1.toOption b'
    ∃ message reply header c q,
      (asked.1 = .ok asker.requests.length ∧ asked.2.tapes = b.tapes ++ [(s, message)]) ∧
      (responder.encoders.decodeDetected message.bytes).1 =
        .ok (Packet.mk (.rpc (.of subject asker.identity d id)) payloads).toPayload ∧
      ((answered message).2.tapes = b'.tapes ++ [(r, reply)] ∧ reply.topic = Topic.join (asker.replyPath id)) ∧
      asker.identity.filters.any (Filter.covering · reply.topic) = true ∧
      (asked.2.clients[s]? = some c ∧ c.requests[asker.requests.length]? = some q ∧ q.collector.id = id) ∧
      c.tree.get? (Topic.split reply.topic) = some (.reply asker.requests.length) ∧
      (∀ path, c.tree.get? path = some (.reply asker.requests.length) ↔ asker.identity.relative path = id.route) ∧
      (c.encoders.decodeDetected reply.bytes).1 = .ok (Packet.mk (.rpc header) answer).toPayload ∧
      header.Replies subject id asker.identity responder.identity ∧
      q.collector.check ⟨.rpc header, answer⟩ = .ok () := by
  intro b asked b' answered
  have hb : b.Sound := sound_performAll room before
  have hb' : b'.Sound := sound_performAll room' before'
  have hid' := (CorrelationId.valid_of_isHyphenated hid).1
  obtain ⟨bytes, hencode, hdecode⟩ := hadmits.conveys
  obtain ⟨bytes', hencode', hdecode'⟩ := hadmits'.conveys
  obtain ⟨hok, htapes, c, q, hc, hdesk, hq, hqid, hroute⟩ := request_on_tape hb hs htape hasker hnames hsubject hid
    hfresh hsendable hencode expected timeoutMs
  have hheader : ((RpcHeader.of subject asker.identity d id).replyTo responder.identity).Replies subject id
      asker.identity responder.identity := RpcHeader.replies_replyTo_of hsubject hasker hresponder hid'
  -- what the responder makes of the message
  have hdecoded := EncoderPool.decodeDetected_of_decode (hb'.clients hr).encoders hdecode
  have htakes : b'.Takes responder.line := by
    rw [htape']
    rfl
  have hvalid : (Packet.mk (.rpc ((RpcHeader.of subject asker.identity d id).replyTo responder.identity))
      answer).validate = .ok () := by
    rw [Packet.validate_rpc hheader.valid]
    exact hsendable'
  have hreply : Packet.mk (.rpc ((RpcHeader.of subject asker.identity d id).replyTo responder.identity)) answer =
      RequestHandler.replyPacket responder.identity (.of subject asker.identity d id)
        (RequestHandler.answer (h.run (.of subject asker.identity d id)
          (Packet.mk (.rpc (.of subject asker.identity d id)) payloads).others)) := by
    rw [hanswer]
    rfl
  obtain ⟨b₁, hstill, hexecuted⟩ := execute_request_of_publishable hear scopes bound h hr (hb'.clients hr).encoders
    htakes responder.identity (RpcHeader.validate_of hsubject hasker hnames hid')
    (RpcHeader.valid_replyTopic_of hasker hid) hreply hvalid hencode'
  refine ⟨⟨Topic.join (d.topicFor asker.identity subject), bytes⟩, ⟨Topic.join (asker.replyPath id), bytes'⟩, _, c, q,
    ⟨hok, htapes⟩, hdecoded, ⟨?_, rfl⟩, asker.any_filters_replyPath hasker hid, ⟨hc, hq, hqid⟩, ?_, hroute, ?_,
    hheader, ?_⟩
  · have hanswered : answered ⟨Topic.join (d.topicFor asker.identity subject), bytes⟩ =
        (requestExecutor hear scopes r responder.identity bound h).execute
          (some (Packet.mk (.rpc (.of subject asker.identity d id)) payloads).toPayload) b' := by
      simp only [answered, hdecoded]
      rfl
    have hhands : Hands hear r (.tape false) [⟨Topic.join (asker.replyPath id), bytes'⟩] b'
        (answered ⟨Topic.join (d.topicFor asker.identity subject), bytes⟩).2 := by
      rw [hanswered, hexecuted, htape']
      exact ⟨b₁, hstill, .refl _⟩
    exact hhands.tapes_eq
  · rw [hroute, Topic.split_join (asker.valid_replyPath hasker hid)]
    exact asker.relative_replyPath id
  · exact hdesk.decodeDetected_of_decode (hb.clients hs).encoders hdecode'
  · unfold ReplyCollector.check
    rw [hqid]
    exact if_pos hheader.packetId

private def bridge : Identity := ⟨["north", "sea"], "fleet", "helm", "bridge"⟩

private def engine : Identity := ⟨["demo"], "yard", "hall", "engine"⟩

private def speed : Subject := ⟨["speed", "now"]⟩

private def order : CorrelationId := ⟨"0190b5a4-7c1e-7000-8000-00000000000c"⟩

private def knots : RequestHandler := ⟨"knots", fun _ _ => .ok [.integer 9]⟩

/-- A bus that one client has joined, on a tape. -/
private def joining (i : Identity) (codec : Codec) : List Operation := [.join i .standard codec 4 (.tape false)]

/-- A request to everyone goes out as JSON, and the reply of a client of another application comes back as
MessagePack. -/
theorem reply_finds_request_everyone : ∃ message reply,
    ((empty.performAll (joining bridge .json)).request 0 order .all speed [.integer 12] .unlimited 500).2.tapes =
        [(0, message)] ∧
      ((requestExecutor (hear usualRoom []) [] 0 engine speed knots).execute
        ((EncoderPool.empty .standard .messagePack 4).decodeDetected message.bytes).1.toOption
          (empty.performAll (joining engine .messagePack))).2.tapes = [(0, reply)] ∧
      reply.topic = "north.sea.fleet.helm.bridge.rpc-reply.0190b5a4-7c1e-7000-8000-00000000000c" := by
  have hknows : ∀ (h : PacketHeader) (n : Int64), TypeRegistry.standard.Knows (.packet h [.integer n]) := by
    intro h n t ht
    obtain rfl | rfl : t = .packet ∨ t = .integer := by
      simpa [Payload.typesWithin, Payload.typesWithinAll, Payload.type?] using ht
    · rfl
    · rfl
  have hsubject : speed.Valid := ⟨by simp [speed], (Segment.validateAll_eq_ok_iff speed.segments).1 rfl⟩
  have hfits : Codec.messagePack.Fits
      (Packet.mk (.rpc ((RpcHeader.of speed bridge .all order).replyTo engine)) [.integer 9]).toPayload.toRecord := by
    change ∀ q ∈ Record.within _, ∀ e ∈ q.fields, MessagePack.FitsField e.2
    decide +kernel
  have hasker : (empty.performAll (joining bridge .json)).clients[0]? =
      some (.of bridge (.empty .standard .json 4) (.tape false)) := rfl
  have hresponder : (empty.performAll (joining engine .messagePack)).clients[0]? =
      some (.of engine (.empty .standard .messagePack 4) (.tape false)) := rfl
  have hid : CorrelationId.isHyphenated order.text.toList = true := by decide
  have hpayloads : Payload.validateAll [.integer 12] = .ok () := rfl
  have hanswer : RequestHandler.answer (knots.run (.of speed bridge .all order)
      (Packet.mk (.rpc (.of speed bridge .all order)) [.integer 12]).others) = [.integer 9] := rfl
  have hadmits : Codec.json.Admits .standard
      (Packet.mk (.rpc (.of speed bridge .all order)) [.integer 12]).toPayload :=
    ⟨hknows _ _, ⟨trivial, trivial⟩, (fun x hx => by cases hx), by decide⟩
  obtain ⟨message, reply, header, c, q, ⟨-, htapes⟩, -, ⟨hanswered, htopic⟩, -⟩ :=
    reply_finds_request usualRoom usualRoom (joining bridge .json) (joining engine .messagePack) hasker rfl hresponder
      rfl
      ((Segment.validateAll_eq_ok_iff bridge.address).1 rfl) ((Segment.validateAll_eq_ok_iff engine.address).1 rfl)
      (d := .all) (fun name hname => by cases hname) hsubject hid rfl hpayloads hadmits .unlimited 500
      (hear usualRoom []) [] speed knots hanswer rfl ⟨hknows _ _, ⟨trivial, trivial⟩, hfits, by decide⟩
  exact ⟨message, reply, htapes, hanswered, htopic.trans (by decide +kernel)⟩

end Bus

end Switchboard
