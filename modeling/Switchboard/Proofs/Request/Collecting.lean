import Switchboard.Proofs.Delivery.Awaiting
import Switchboard.Proofs.Request.Exchange

/-!
# The replies to a request

A client asks the connections of its application. Each of those that it addresses, and that has a request handler for
the subject, answers once; whatever else is done until the time of the request is over, nothing is added to these
answers, and the request ends with them (`Bus.collects_replies`).
-/

namespace Switchboard

namespace Bus

/-- A client may ask the connections that a destination addresses about a subject: the id of the request is fresh, the
subject is nobody's address, the request does not go to its own reply path, its payloads may be sent and can be read
by those that are addressed, and the handlers of these make payloads that may be sent and can be read by the client,
or fail with a code. The client knows packets and errors, and the texts of an error are not too long for
MessagePack. -/
structure MayAsk (b : Bus) (asker : Client) (id : CorrelationId) (d : Destination) (subject : Subject)
    (payloads : List Payload) : Prop where
  names : ∀ name ∈ d.names, Segment.Valid name ∧ name ≠ Segment.broadcast
  valid : subject.Valid
  unowned : ∀ {j c}, b.Connected j c → ∀ front, c.identity.Owns front → ¬front <+: subject.segments
  hyphenated : CorrelationId.isHyphenated id.text.toList = true
  fresh : ∀ {j c}, b.Connected j c → c.tree.get? id.route = none
  apart : asker.identity.relative (d.topicFor asker.identity subject) ≠ id.route
  sendable : Payload.validateAll payloads = .ok ()
  readable : ∃ bytes,
    asker.encoders.standard.encode (Packet.mk (.rpc (.of subject asker.identity d id)) payloads).toPayload =
      .ok bytes ∧ ∀ {j c}, b.Connected j c → d.Addresses asker.identity c.identity →
        asker.encoders.standard.decode c.encoders.types bytes =
          .ok (Packet.mk (.rpc (.of subject asker.identity d id)) payloads).toPayload
  errors : asker.encoders.types.find Payload.packetTag = .ok .packet ∧
    asker.encoders.types.find ErrorPayload.tag = .ok .error
  answerable : ∀ {j c bound h}, b.Connected j c → d.Addresses asker.identity c.identity →
    c.tree.get? subject.segments = some (.request bound h) →
      let request := RpcHeader.of subject asker.identity d id
      let reply := fun answer : List Payload => (Packet.mk (.rpc (request.replyTo c.identity)) answer).toPayload
      match h.run request (Packet.mk (.rpc request) payloads).others with
      | .ok answer => Payload.validateAll answer = .ok () ∧
        c.encoders.standard.Conveys asker.encoders.types (reply answer)
      | .error e => e.code ≠ "" ∧
        (c.encoders.standard = .messagePack → c.encoders.standard.Fits (reply [.error e.toPayload]).toRecord)

/-- With a request entered, the connections are those from before, the asker as it is now. -/
theorem connected_prepared {b : Bus} {s : Nat} {asker prepared : Client} {header : RpcHeader} {id : CorrelationId}
    {expected : ExpectedReplies} (hb : b.Sound) (hs : b.clients[s]? = some asker)
    (hp : asker.prepareRequest header id expected = .ok prepared) {j : Nat} {c' : Client} :
    (b.updateClient s fun _ => prepared).Connected j c' ↔
      ∃ c, b.Connected j c ∧ c' = if j = s then prepared else c := by
  obtain ⟨-, hidentity, hline, -, hpresent, -, -⟩ := (hb.clients hs).prepareRequest hp
  exact connected_updateClient hs hidentity hline hpresent

namespace MayAsk

variable {b : Bus} {asker prepared : Client} {id : CorrelationId} {d : Destination} {subject : Subject}
  {payloads : List Payload} {expected : ExpectedReplies} {s j : Nat} {c : Client} {reply : Packet}

/-! ### The answers -/

/-- What a connection answers may be sent, and can be read by the asker. -/
theorem answers (h : b.MayAsk asker id d subject payloads) (hassembly : b.Assembly) (hs : b.Connected s asker)
    (hc : b.Connected j c) (haddressed : d.Addresses asker.identity c.identity)
    (hreply : c.answerAt subject.segments (.of subject asker.identity d id) payloads = some reply) :
    reply.validate = .ok () ∧ c.encoders.standard.Conveys asker.encoders.types reply.toPayload := by
  obtain ⟨bound, handler, hroute, hanswer⟩ := Client.isAnswer_of_answerAt hreply
  have hid := CorrelationId.valid_of_isHyphenated h.hyphenated
  have hheader := RpcHeader.validate_replyTo_of (d := d) h.valid (hassembly.valid hs) (hassembly.valid hc) hid.1
  have hanswerable := h.answerable hc haddressed hroute
  have hpacket : reply = Packet.mk (.rpc ((RpcHeader.of subject asker.identity d id).replyTo c.identity))
      reply.payloads := by
    rw [← hanswer.header]
  have hpayloads := hanswer.payloads
  rw [hpacket, Packet.validate_rpc hheader, hpayloads]
  simp only at hanswerable
  cases hrun : handler.run (.of subject asker.identity d id)
      (Packet.mk (.rpc (.of subject asker.identity d id)) payloads).others with
  | ok answer =>
    rw [hrun] at hanswerable
    exact hanswerable
  | error e =>
    rw [hrun] at hanswerable
    exact ⟨(ErrorPayload.validateAll_singleton _).trans (if_neg hanswerable.1),
      Codec.conveys_error h.errors.1 h.errors.2 hanswerable.2⟩

/-! ### While the request is passed on -/

/-- With the request entered, the connections are as before: in what others see of them, and in what they have bound
to the subject. -/
theorem alike (h : b.MayAsk asker id d subject payloads) (hb : b.Sound) (hs : b.Connected s asker)
    (hp : asker.prepareRequest (.of subject asker.identity d id) id expected = .ok prepared) (hc : b.Connected j c) :
    (if j = s then prepared else c).identity = c.identity ∧ (if j = s then prepared else c).encoders = c.encoders ∧
      (d.Addresses asker.identity c.identity →
        (if j = s then prepared else c).tree.get? subject.segments = c.tree.get? subject.segments) := by
  obtain ⟨-, hidentity, -, hencoders, -, -, hget⟩ := (hb.clients hs.client).prepareRequest hp
  by_cases hj : j = s
  · subst hj
    obtain rfl : asker = c := hs.unique hc
    simp only [if_true]
    refine ⟨hidentity, hencoders, fun haddressed => ?_⟩
    rw [hget, if_neg]
    intro hpath
    apply h.apart
    rw [Destination.relative_topicFor ⟨rfl, rfl⟩ haddressed, hpath, Identity.relative_of_not_owned (h.unowned hc)]
  · simp only [if_neg hj]
    exact ⟨trivial, trivial, fun _ => trivial⟩

theorem asking (h : b.MayAsk asker id d subject payloads) (hb : b.Sound) (hassembly : b.Assembly)
    (hs : b.Connected s asker)
    (hp : asker.prepareRequest (.of subject asker.identity d id) id expected = .ok prepared) :
    (b.updateClient s fun _ => prepared).Asking s asker.requests.length prepared id := by
  obtain ⟨-, hidentity, hline, -, hpresent, -, hget⟩ := (hb.clients hs.client).prepareRequest hp
  have hentered : Evolved (fun _ _ => False) b (b.updateClient s fun _ => prepared) := .prepare hb hs.client hp
  refine ⟨hentered.sound, hassembly.updateClient hs.client hidentity hline hpresent, ?_, h.hyphenated, ?_, ?_⟩
  · exact (connected_prepared hb hs.client hp).2 ⟨asker, hs, (if_pos rfl).symm⟩
  · intro path hpath
    rw [hget, if_pos]
    rw [← hpath, hidentity]
  · intro j c' hj hc'
    obtain ⟨c, hc, rfl⟩ := (connected_prepared hb hs.client hp).1 hc'
    rw [if_neg hj]
    exact h.fresh hc

theorem poses (h : b.MayAsk asker id d subject payloads) (hb : b.Sound) (hassembly : b.Assembly)
    (hs : b.Connected s asker)
    (hp : asker.prepareRequest (.of subject asker.identity d id) id expected = .ok prepared) {bytes : Bytes}
    (hreadable : ∀ {j c}, b.Connected j c → d.Addresses asker.identity c.identity →
      asker.encoders.standard.decode c.encoders.types bytes =
        .ok (Packet.mk (.rpc (.of subject asker.identity d id)) payloads).toPayload) :
    (b.updateClient s fun _ => prepared).Poses prepared id d subject payloads
      ⟨Topic.join (d.topicFor asker.identity subject), bytes⟩ := by
  obtain ⟨-, hidentity, -, hencoders, -, -, -⟩ := (hb.clients hs.client).prepareRequest hp
  refine ⟨h.names, h.valid, ?_, ?_, ?_, ?_, ?_⟩
  · intro j c' hc' front howns
    obtain ⟨c, hc, rfl⟩ := (connected_prepared hb hs.client hp).1 hc'
    rw [(h.alike hb hs hp hc).1] at howns
    exact h.unowned hc front howns
  · rw [hidentity]
    exact h.apart
  · rw [hidentity]
  · intro j c' hc' haddressed
    obtain ⟨c, hc, rfl⟩ := (connected_prepared hb hs.client hp).1 hc'
    obtain ⟨hsame, hdesk, -⟩ := h.alike hb hs hp hc
    rw [hsame, hidentity] at haddressed
    rw [hdesk, hidentity]
    exact ⟨asker.encoders.standard, hreadable hc haddressed⟩
  · intro j c' reply hc' haddressed hreply
    obtain ⟨c, hc, rfl⟩ := (connected_prepared hb hs.client hp).1 hc'
    obtain ⟨hsame, hdesk, hget⟩ := h.alike hb hs hp hc
    rw [hsame, hidentity] at haddressed
    rw [hdesk, hencoders]
    apply h.answers hassembly hs hc haddressed
    rw [← hreply, hidentity]
    unfold Client.answerAt
    rw [hget haddressed, hsame]

/-- The request is published, and has gathered all answers when its timer is set. -/
theorem request_eq (h : b.MayAsk asker id d subject payloads) (hb : b.Sound) (hassembly : b.Assembly)
    (hs : b.Connected s asker) (hroom : 2 ≤ b.room) (expected : ExpectedReplies) (timeoutMs : Nat) :
    ∃ prepared message b',
      asker.prepareRequest (.of subject asker.identity d id) id expected = .ok prepared ∧
      (b.updateClient s fun _ => prepared).Poses prepared id d subject payloads message ∧
      Changed (.gathers s asker.requests.length
        (((b.updateClient s fun _ => prepared).reachedClients message.topic).filterMap
          ((b.updateClient s fun _ => prepared).answerAt subject.segments (.of subject asker.identity d id)
            payloads)))
        (b.updateClient s fun _ => prepared) b' ∧
      b.request s id d subject payloads expected timeoutMs = (.ok asker.requests.length,
        { b'.updateClient s (·.confirmRequest asker.requests.length) with
          timers := b.timers ++ [⟨b.clock + timeoutMs, s, asker.requests.length⟩] }) := by
  obtain ⟨prepared, hp⟩ := (hb.clients hs.client).exists_prepareRequest (h.fresh hs)
    (.of subject asker.identity d id) expected
  obtain ⟨bytes, hencode, hreadable⟩ := h.readable
  obtain ⟨-, hidentity, hline, hencoders, hpresent, -, -⟩ := (hb.clients hs.client).prepareRequest hp
  have hasking := h.asking hb hassembly hs hp
  have hposes := h.poses hb hassembly hs hp hreadable
  -- the line takes the message, and passes it on
  obtain ⟨e, hat⟩ := hs
  have htakes : b.Takes asker.line := by
    rw [hat.line]
    exact hat.takes hb.broker rfl
  obtain ⟨b₁, hstill, hrequest⟩ := request_eq_of_takes hb hat.client htakes hp (hassembly.valid ⟨e, hat⟩)
    (fun name hname => (h.names name hname).1) h.valid h.hyphenated h.sendable hencode timeoutMs
  obtain ⟨room, hroom⟩ := Nat.exists_eq_add_of_le' hroom
  have hgathered := hasking.transmit_request hposes room [] (l := []) (b := b₁) (by
    rw [RequestChange.gathers_nil]
    exact hstill.changed)
  rw [List.nil_append, hidentity, hline] at hgathered
  refine ⟨prepared, _, _, hp, hposes, hgathered, ?_⟩
  rw [hrequest, hroom, hgathered.timers, hgathered.clock]
  rfl

/-- Whoever answers is a connection, and answers as it did before the request was entered. -/
theorem exists_of_answerAt (h : b.MayAsk asker id d subject payloads) (hb : b.Sound) (hassembly : b.Assembly)
    (hs : b.Connected s asker)
    (hp : asker.prepareRequest (.of subject asker.identity d id) id expected = .ok prepared) {message : Outgoing}
    (hposes : (b.updateClient s fun _ => prepared).Poses prepared id d subject payloads message)
    (hreached : j ∈ (b.updateClient s fun _ => prepared).reachedClients message.topic)
    (hreply : (b.updateClient s fun _ => prepared).answerAt subject.segments (.of subject asker.identity d id)
      payloads j = some reply) :
    ∃ c bound handler, b.Connected j c ∧ c.tree.get? subject.segments = some (.request bound handler) ∧
      reply.IsAnswer (.of subject asker.identity d id) payloads c.identity handler := by
  obtain ⟨-, hidentity, -⟩ := (hb.clients hs.client).prepareRequest hp
  rw [← hidentity] at hreply
  obtain ⟨c', bound, handler, hc', haddressed, hroute, -, hanswer⟩ :=
    (h.asking hb hassembly hs hp).exists_of_answerAt hposes hreached hreply
  obtain ⟨c, hc, rfl⟩ := (connected_prepared hb hs.client hp).1 hc'
  obtain ⟨hsame, -, hget⟩ := h.alike hb hs hp hc
  rw [hidentity, hsame] at haddressed
  rw [hget haddressed] at hroute
  rw [hidentity, hsame] at hanswer
  exact ⟨c, bound, handler, hc, hroute, hanswer⟩

/-- Those answer that the request addresses and that have had a request handler for it. -/
theorem mem_answering_iff (h : b.MayAsk asker id d subject payloads) (hb : b.Sound) (hassembly : b.Assembly)
    (hs : b.Connected s asker)
    (hp : asker.prepareRequest (.of subject asker.identity d id) id expected = .ok prepared) {message : Outgoing}
    (hposes : (b.updateClient s fun _ => prepared).Poses prepared id d subject payloads message) :
    j ∈ ((b.updateClient s fun _ => prepared).reachedClients message.topic).filter (fun j =>
        ((b.updateClient s fun _ => prepared).answerAt subject.segments (.of subject asker.identity d id) payloads
          j).isSome) ↔
      ∃ c bound handler, b.Connected j c ∧ d.Addresses asker.identity c.identity ∧
        c.tree.get? subject.segments = some (.request bound handler) := by
  obtain ⟨-, hidentity, -⟩ := (hb.clients hs.client).prepareRequest hp
  have hiff := (h.asking hb hassembly hs hp).mem_answering_iff (j := j) hposes
  rw [hidentity] at hiff
  rw [hiff]
  constructor
  · rintro ⟨c', bound, handler, hc', haddressed, hroute⟩
    obtain ⟨c, hc, rfl⟩ := (connected_prepared hb hs.client hp).1 hc'
    obtain ⟨hsame, -, hget⟩ := h.alike hb hs hp hc
    rw [hsame] at haddressed
    exact ⟨c, bound, handler, hc, haddressed, hget haddressed ▸ hroute⟩
  · rintro ⟨c, bound, handler, hc, haddressed, hroute⟩
    obtain ⟨hsame, -, hget⟩ := h.alike hb hs hp hc
    refine ⟨_, bound, handler, (connected_prepared hb hs.client hp).2 ⟨c, hc, rfl⟩, ?_, ?_⟩
    · rw [hsame]
      exact haddressed
    · rw [hget haddressed]
      exact hroute

end MayAsk

/-- A request that was entered holds the replies that it has gathered since. -/
theorem exists_gathered {b b' : Bus} {asker prepared : Client} {id : CorrelationId} {expected : ExpectedReplies}
    {s : Nat} (hb : b.Sound) (hs : b.clients[s]? = some asker) {header : RpcHeader}
    (hp : asker.prepareRequest header id expected = .ok prepared) {replies : List Packet}
    (hreplies : ∀ reply ∈ replies, ∃ h : RpcHeader, reply.header = .rpc h ∧ h.packetId = id.text)
    (hgathered : Changed (.gathers s asker.requests.length replies) (b.updateClient s fun _ => prepared) b') :
    ∃ c r, b'.clients[s]? = some c ∧ c.identity = asker.identity ∧ c.requests[asker.requests.length]? = some r ∧
      r.collector.replies = replies ∧ r.collector.isClosed = false ∧ r.collector.id = id := by
  obtain ⟨-, hidentity, -, -, -, hrequests, -⟩ := (hb.clients hs).prepareRequest hp
  obtain ⟨c, hc, hchanged⟩ := hgathered.clients (clients_updateClient_self hs fun _ => prepared)
  obtain ⟨r, hr, hcounted⟩ := hchanged.requests (k := asker.requests.length) (r := ⟨.of header id expected, none⟩) (by
    rw [hrequests]
    exact List.getElem?_concat_length)
  have hfold : r = replies.foldl Request.count ⟨.of header id expected, none⟩ := by
    rw [show r = _ from hcounted, if_pos ⟨rfl, rfl⟩]
  obtain ⟨hheld, hopen, hid⟩ := Request.replies_foldl_count (r := ⟨.of header id expected, none⟩) (l := replies) rfl
    fun reply hreply => by
      obtain ⟨h, hheader, hpacket⟩ := hreplies reply hreply
      unfold ReplyCollector.check
      rw [hheader]
      exact if_pos hpacket
  rw [← hfold] at hheld hopen hid
  exact ⟨c, r, hc, hchanged.identity.trans hidentity, hr, hheld, hopen, hid⟩

/-- A request that has gathered replies to it waits with these replies when its timer is set. -/
theorem awaits_request {b b' : Bus} {asker prepared : Client} {id : CorrelationId} {expected : ExpectedReplies}
    {s : Nat} (hb : b.Sound) (hs : b.clients[s]? = some asker) {header : RpcHeader}
    (hp : asker.prepareRequest header id expected = .ok prepared) {replies : List Packet}
    (hreplies : ∀ reply ∈ replies, ∃ h : RpcHeader, reply.header = .rpc h ∧ h.packetId = id.text)
    (hgathered : Changed (.gathers s asker.requests.length replies) (b.updateClient s fun _ => prepared) b')
    {due : Nat} {after : Bus} (hafter : after = { b'.updateClient s (·.confirmRequest asker.requests.length) with
      timers := b.timers ++ [⟨due, s, asker.requests.length⟩] }) (hsound : after.Sound) :
    ∃ r, after.Awaits s asker.requests.length asker.identity r due ∧ r.collector.replies = replies ∧
      r.collector.id = id := by
  obtain ⟨c, r, hc, hidentity, hr, hheld, hopen, hid⟩ := exists_gathered hb hs hp hreplies hgathered
  obtain ⟨hid', hheld'⟩ := r.collector.id_replies_markSent
  refine ⟨{ r with collector := r.collector.markSent },
    ⟨hsound, ?_, ReplyCollector.isClosed_markSent hopen, ?_, ?_⟩, hheld'.trans hheld, hid'.trans hid⟩
  · refine ⟨c.confirmRequest asker.requests.length, ?_, hidentity, ?_⟩
    · rw [hafter]
      exact clients_updateClient_self hc _
    · simp [Client.confirmRequest, Client.updateCollector, hr]
  · rw [hafter]
    exact List.mem_append_right _ (List.mem_singleton.2 rfl)
  · intro t ht hj hk
    rw [hafter] at ht
    rcases List.mem_append.1 ht with hold | hnew
    · -- the timers that were set before are those of other requests
      obtain ⟨c₀, hc₀, hlt⟩ := hb.timers t hold
      rw [hj] at hc₀
      obtain rfl : asker = c₀ := Option.some.inj (hs.symm.trans hc₀)
      omega
    · rw [List.mem_singleton.1 hnew]

/-- When a request has been made it waits with exactly one reply of each connection that it addresses and that has a
request handler for the subject. -/
theorem MayAsk.exists_awaiting {b : Bus} {asker : Client} {id : CorrelationId} {d : Destination} {subject : Subject}
    {payloads : List Payload} {s : Nat} (hask : b.MayAsk asker id d subject payloads) (hb : b.Sound)
    (hassembly : b.Assembly) (hs : b.Connected s asker) (hroom : 2 ≤ b.room) (expected : ExpectedReplies)
    (timeoutMs : Nat) :
    let request := RpcHeader.of subject asker.identity d id
    let asked := b.request s id d subject payloads expected timeoutMs
    ∃ members r,
      asked.1 = .ok asker.requests.length ∧
      (members.Nodup ∧ ∀ j, j ∈ members ↔ ∃ c bound h, b.Connected j c ∧ d.Addresses asker.identity c.identity ∧
        c.tree.get? subject.segments = some (.request bound h)) ∧
      List.Forall₂ (fun j reply => ∃ c bound h, b.Connected j c ∧
        c.tree.get? subject.segments = some (.request bound h) ∧
          reply.IsAnswer request payloads c.identity h) members r.collector.replies ∧
      asked.2.Awaits s asker.requests.length asker.identity r (b.clock + timeoutMs) ∧ r.collector.id = id := by
  intro request asked
  obtain ⟨prepared, message, b', hp, hposes, hgathered, hrequest⟩ :=
    hask.request_eq hb hassembly hs hroom expected timeoutMs
  have hasking := hask.asking hb hassembly hs hp
  have hcarry : ∀ reply ∈ ((b.updateClient s fun _ => prepared).reachedClients message.topic).filterMap
      ((b.updateClient s fun _ => prepared).answerAt subject.segments request payloads),
      ∃ h : RpcHeader, reply.header = .rpc h ∧ h.packetId = id.text := by
    intro reply hreply
    obtain ⟨j, hreached, hanswered⟩ := List.mem_filterMap.1 hreply
    obtain ⟨c, bound, h, -, -, hanswer⟩ := hask.exists_of_answerAt hb hassembly hs hp hposes hreached hanswered
    exact ⟨_, hanswer.header, rfl⟩
  have hafter : asked.2 = _ := congrArg Prod.snd hrequest
  obtain ⟨r, hawaits, hreplies, hid⟩ := awaits_request hb hs.client hp hcarry hgathered hafter
    (hb.perform (.request s id d subject payloads expected timeoutMs))
  refine ⟨_, r, congrArg Prod.fst hrequest, ⟨hasking.nodup_answering message.topic subject.segments request payloads,
    fun j => hask.mem_answering_iff hb hassembly hs hp hposes⟩, ?_, hawaits, hid⟩
  rw [hreplies]
  refine (forall₂_filter_filterMap _ _).imp fun j reply hfound => ?_
  exact hask.exists_of_answerAt hb hassembly hs hp hposes hfound.1 hfound.2

/-- A client asks the connections of its application. When the timer of the request fires, exactly one reply has been
collected from each connection that the request addresses and that has a request handler for the subject. That takes
room for two deliveries within one another: that of the request, and that of a reply while a connection handles it. -/
theorem collects_replies {room : Nat} (hroom : 2 ≤ room) (before : List Operation) {s : Nat} {asker : Client}
    {id : CorrelationId} {d : Destination} {subject : Subject} {payloads : List Payload}
    (hassembly : ((empty room).performAll before).Assembly) (hs : ((empty room).performAll before).Connected s asker)
    (hask : ((empty room).performAll before).MayAsk asker id d subject payloads) (expected : ExpectedReplies)
    (timeoutMs : Nat) :
    let b := (empty room).performAll before
    let request := RpcHeader.of subject asker.identity d id
    let asked := b.perform (.request s id d subject payloads expected timeoutMs)
    ∃ members replies,
      (b.request s id d subject payloads expected timeoutMs).1 = .ok asker.requests.length ∧
      (members.Nodup ∧ ∀ j, j ∈ members ↔ ∃ c bound h, b.Connected j c ∧ d.Addresses asker.identity c.identity ∧
        c.tree.get? subject.segments = some (.request bound h)) ∧
      List.Forall₂ (fun j reply => ∃ c bound h, b.Connected j c ∧
        c.tree.get? subject.segments = some (.request bound h) ∧
          reply.IsAnswer request payloads c.identity h) members replies ∧
      ∀ between ms, Operation.SpareAll asker.identity id asked between →
        Operation.reaches (b.clock + timeoutMs) b.clock between = false →
        timeoutMs ≤ Operation.elapsedAll between + ms →
          ∃ o, (((asked.performAll between).advance ms).request? s asker.requests.length).bind (·.outcome) = some o ∧
            o.id = id ∧ o.replies = replies := by
  intro b request asked
  have hb : b.Sound := sound_performAll room before
  have hbroom : 2 ≤ b.room := hroom.trans_eq ((sound_empty room).room_performAll before).symm
  obtain ⟨members, r, hok, hmembers, hreplies, hawaits, hid⟩ :=
    hask.exists_awaiting hb hassembly hs hbroom expected timeoutMs
  refine ⟨members, r.collector.replies, hok, hmembers, hreplies, ?_⟩
  intro between ms hspares hearly hlate
  have hclock : asked.clock = b.clock := hb.clock_perform (.request s id d subject payloads expected timeoutMs)
  have hawaits' : asked.Awaits s asker.requests.length asker.identity r (b.clock + timeoutMs) := hawaits
  have hended : ((asked.performAll between).advance ms).request? s asker.requests.length = some r.ended :=
    hawaits'.ended (by rw [hid]; exact hspares) (by rw [hclock]; exact hearly) (by omega)
  refine ⟨r.collector.outcome, ?_, hid, rfl⟩
  rw [hended]
  rfl

private def office : Identity := ⟨["demo"], "works", "rooms", "office"⟩

private def boiler : Identity := ⟨["demo"], "works", "house", "boiler"⟩

private def chimney : Identity := ⟨["demo"], "works", "house", "chimney"⟩

private def heat : Subject := ⟨["heat"]⟩

private def warm : RequestHandler := ⟨"warm", fun _ _ => .ok [.integer 70]⟩

private def cold : RequestHandler := ⟨"cold", fun _ _ => .error (.handler "COLD" "no fire")⟩

private def errand : CorrelationId := ⟨"0190b5a4-7c1e-7000-8000-00000000000b"⟩

/-- Three connections are opened, two of which answer requests. -/
private def opening : List Operation :=
  [.create, .create, .create, .openOn office 0 .standard .json 4, .openOn boiler 1 .standard .json 4,
    .openOn chimney 2 .standard .json 4, .register 1 heat warm, .register 2 heat cold]

/-- A connection that has been opened, and what it has bound. -/
private def opened (i : Identity) (e : Nat) (bound : List (String × DispatchNode Route)) : Client :=
  { Client.of i (.empty .standard .json 4) (.endpoint e) with tree := ⟨i, .mk none bound⟩ }

private def staff : List Client :=
  [opened office 0 [], opened boiler 1 [("heat", .mk (some (.request heat warm)) [])],
    opened chimney 2 [("heat", .mk (some (.request heat cold)) [])]]

private def online (j : Nat) (i : Identity) : Endpoint Listener Watcher :=
  ⟨true, i.filters, some (.client j), [.journal i.text]⟩

private theorem staff_cases {j : Nat} {c : Client} (h : staff[j]? = some c) :
    (j = 0 ∧ c = opened office 0 []) ∨ (j = 1 ∧ c = opened boiler 1 [("heat", .mk (some (.request heat warm)) [])]) ∨
      (j = 2 ∧ c = opened chimney 2 [("heat", .mk (some (.request heat cold)) [])]) := by
  rcases j with _ | _ | _ | j
  · exact .inl ⟨rfl, (Option.some.inj h).symm⟩
  · exact .inr (.inl ⟨rfl, (Option.some.inj h).symm⟩)
  · exact .inr (.inr ⟨rfl, (Option.some.inj h).symm⟩)
  · cases h

private theorem clients_opening : (empty.performAll opening).clients = staff := rfl

private theorem broker_opening : (empty.performAll opening).broker =
    ⟨[online 0 office, online 1 boiler, online 2 chimney], [0, 1, 2]⟩ := rfl

/-- Each of the three is a connection. -/
private theorem connectedAt_opening {j : Nat} {c : Client} (hc : staff[j]? = some c) :
    (empty.performAll opening).ConnectedAt j c j := by
  have hclient : (empty.performAll opening).clients[j]? = some c := clients_opening ▸ hc
  refine ⟨hclient, ?_, ?_, ?_, ?_, ?_⟩ <;> obtain ⟨rfl, rfl⟩ | ⟨rfl, rfl⟩ | ⟨rfl, rfl⟩ := staff_cases hc <;>
    simp [broker_opening, Broker.endpoint, online, opened, Client.of]

private theorem client_opening {j : Nat} {c : Client} (h : (empty.performAll opening).Connected j c) :
    staff[j]? = some c := clients_opening ▸ h.client

private theorem assembly_opening : (empty.performAll opening).Assembly := by
  have hnames : ∀ {j : Nat} {c : Client}, staff[j]? = some c → c.identity.namespaces = ["demo"] ∧
      c.identity.app = "works" ∧ c.identity.Valid ∧ c.identity.group ≠ Segment.broadcast ∧
        c.identity.client ≠ Segment.broadcast := by
    intro j c hc
    obtain ⟨rfl, rfl⟩ | ⟨rfl, rfl⟩ | ⟨rfl, rfl⟩ := staff_cases hc
    · exact ⟨rfl, rfl, (Segment.validateAll_eq_ok_iff office.address).1 rfl, by decide, by decide⟩
    · exact ⟨rfl, rfl, (Segment.validateAll_eq_ok_iff boiler.address).1 rfl, by decide, by decide⟩
    · exact ⟨rfl, rfl, (Segment.validateAll_eq_ok_iff chimney.address).1 rfl, by decide, by decide⟩
  refine ⟨fun {e j} he hlistener => ?_, fun h => (hnames (client_opening h)).2.2.1,
    fun h => (hnames (client_opening h)).2.2.2, fun h h' => ?_⟩
  · have hsame : e = j ∧ j < staff.length := by
      rw [broker_opening] at he hlistener
      simp only [List.mem_cons, List.not_mem_nil, or_false] at he
      rcases he with rfl | rfl | rfl <;> cases hlistener <;> decide
    obtain ⟨rfl, hlt⟩ := hsame
    have hget : staff[e]? = some staff[e] := List.getElem?_eq_getElem hlt
    rw [clients_opening]
    exact ⟨staff[e], hget, fun _ => connectedAt_opening hget⟩
  · obtain ⟨hnamespaces, happ, -⟩ := hnames (client_opening h)
    obtain ⟨hnamespaces', happ', -⟩ := hnames (client_opening h')
    exact ⟨hnamespaces.trans hnamespaces'.symm, happ.trans happ'.symm⟩

private theorem mayAsk_opening :
    (empty.performAll opening).MayAsk (opened office 0 []) errand (.group "house") heat [] := by
  have hrequest : Codec.json.Conveys .standard
      (Packet.mk (.rpc (.of heat office (.group "house") errand)) []).toPayload := by
    refine Codec.Admits.conveys ⟨?_, trivial, (fun x hx => by cases hx), by decide⟩
    intro t ht
    obtain rfl : t = .packet := List.mem_singleton.1 ht
    rfl
  have hanswer : Codec.json.Conveys .standard
      (Packet.mk (.rpc ((RpcHeader.of heat office (.group "house") errand).replyTo boiler))
        [.integer 70]).toPayload := by
    refine Codec.Admits.conveys ⟨?_, ⟨trivial, trivial⟩, (fun x hx => by cases hx), by decide⟩
    intro t ht
    obtain rfl | rfl : t = .packet ∨ t = .integer := by
      simpa [Packet.toPayload, Payload.typesWithin, Payload.typesWithinAll, Payload.type?] using ht
    · rfl
    · rfl
  obtain ⟨bytes, hencode, hdecode⟩ := hrequest
  refine ⟨?_, ?_, ?_, by decide, ?_, by decide +kernel, rfl, ⟨bytes, hencode, ?_⟩, ⟨rfl, rfl⟩, ?_⟩
  · intro name hname
    obtain rfl : name = "house" := by simpa [Destination.names] using hname
    exact ⟨(Segment.validate_eq_ok_iff _ 0).1 rfl, by decide⟩
  · exact ⟨by simp [heat], (Segment.validateAll_eq_ok_iff heat.segments).1 rfl⟩
  · rintro j c hc front ⟨group, client, -, -, rfl⟩ hprefix
    have hlength := hprefix.length_le
    simp [Identity.addressed, heat] at hlength
  · intro j c hc
    obtain ⟨rfl, rfl⟩ | ⟨rfl, rfl⟩ | ⟨rfl, rfl⟩ := staff_cases (client_opening hc) <;> rfl
  · intro j c hc _
    obtain ⟨rfl, rfl⟩ | ⟨rfl, rfl⟩ | ⟨rfl, rfl⟩ := staff_cases (client_opening hc) <;> exact hdecode
  · intro j c bound h hc _ hroute
    obtain ⟨rfl, rfl⟩ | ⟨rfl, rfl⟩ | ⟨rfl, rfl⟩ := staff_cases (client_opening hc) <;> cases hroute
    · exact ⟨rfl, hanswer⟩
    · exact ⟨by decide, fun hcodec => by cases hcodec⟩

/-- Of the three the two answer that are in the house. -/
theorem collects_replies_two : ∃ o,
    ((((empty.performAll opening).perform (.request 0 errand (.group "house") heat [] .unlimited 500)).advance
      500).request? 0 0).bind (·.outcome) = some o ∧ o.id = errand ∧ o.replies.length = 2 := by
  obtain ⟨members, replies, -, ⟨hnodup, hmembers⟩, hreplies, hended⟩ :=
    collects_replies (show 2 ≤ usualRoom by decide) opening assembly_opening ⟨0, connectedAt_opening rfl⟩
      mayAsk_opening .unlimited 500
  obtain ⟨o, ho, hid, hheld⟩ := hended [] 500 trivial rfl (Nat.le_refl _)
  have hmember : ∀ j, j ∈ members ↔ j ∈ [1, 2] := by
    intro j
    rw [hmembers]
    constructor
    · rintro ⟨c, bound, h, hc, -, hroute⟩
      obtain ⟨rfl, rfl⟩ | ⟨rfl, rfl⟩ | ⟨rfl, rfl⟩ := staff_cases (client_opening hc)
      · cases hroute
      · decide
      · decide
    · intro hj
      simp only [List.mem_cons, List.not_mem_nil, or_false] at hj
      rcases hj with rfl | rfl
      · exact ⟨_, heat, warm, ⟨1, connectedAt_opening rfl⟩, rfl, rfl⟩
      · exact ⟨_, heat, cold, ⟨2, connectedAt_opening rfl⟩, rfl, rfl⟩
  have hperm : members.Perm [1, 2] := (List.perm_ext_iff_of_nodup hnodup (by decide)).2 hmember
  refine ⟨o, ho, hid, ?_⟩
  rw [hheld, ← hreplies.length_eq, hperm.length_eq]
  rfl

end Bus

end Switchboard
