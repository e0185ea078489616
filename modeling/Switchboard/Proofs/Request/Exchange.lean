import Switchboard.Proofs.Codec.Conveyance
import Switchboard.Proofs.Delivery.Assembly
import Switchboard.Proofs.Delivery.Hearing
import Switchboard.Proofs.Request.Publication

/-!
# A request among connections

While a request is passed to the connections that it reaches, those that have a request handler for it answer, and
each answer comes back to the request before the next connection is reached (`Bus.Asking.hear_request`). All others
leave the request alone (`Bus.Asking.hear_other`). So the request gathers one answer of each connection that has a
handler, in the order in which they are reached (`Bus.Asking.transmit_request`).
-/

namespace Switchboard

/-- What a client answers to a request that comes in on a path, if it has a handler there. -/
def Client.answerAt (c : Client) (path : List String) (request : RpcHeader) (payloads : List Payload) :
    Option Packet :=
  match c.tree.get? path with
  | some (.request _ h) => some (RequestHandler.replyPacket c.identity request
      (RequestHandler.answer (h.run request (Packet.mk (.rpc request) payloads).others)))
  | _ => none

/-- A packet with which a handler of a client answers a request: it names the client as its source, and carries the
payloads that the handler makes of those of the request, or the error with which it fails. -/
structure Packet.IsAnswer (reply : Packet) (request : RpcHeader) (payloads : List Payload) (responder : Identity)
    (h : RequestHandler) : Prop where
  header : reply.header = .rpc (request.replyTo responder)
  source : reply.header.source = responder.address
  payloads : reply.payloads = match h.run request (Packet.mk (.rpc request) payloads).others with
    | .ok answer => answer
    | .error e => [.error ⟨e.code, e.message⟩]

theorem Client.answerAt_of_route {c : Client} {path : List String} {bound : Subject} {h : RequestHandler}
    (hroute : c.tree.get? path = some (.request bound h)) (request : RpcHeader) (payloads : List Payload) :
    c.answerAt path request payloads = some (RequestHandler.replyPacket c.identity request
      (RequestHandler.answer (h.run request (Packet.mk (.rpc request) payloads).others))) := by
  unfold answerAt
  rw [hroute]

theorem Client.isAnswer_of_answerAt {c : Client} {path : List String} {request : RpcHeader} {payloads : List Payload}
    {reply : Packet} (h : c.answerAt path request payloads = some reply) :
    ∃ bound handler, c.tree.get? path = some (.request bound handler) ∧
      reply.IsAnswer request payloads c.identity handler := by
  unfold answerAt at h
  split at h
  · rename_i bound handler hroute
    cases h
    refine ⟨bound, handler, hroute, rfl, rfl, ?_⟩
    unfold RequestHandler.replyPacket RequestHandler.answer
    cases handler.run request (Packet.mk (.rpc request) payloads).others <;> rfl
  · cases h

namespace Bus

/-! ### What a connection sends -/

namespace ConnectedAt

variable {b₀ b : Bus} {j e : Nat} {c : Client}

/-- As long as the broker stays as it is, a connection's line takes messages. -/
theorem takes (hat : b₀.ConnectedAt j c e) (hsound : b₀.broker.Sound) (hbroker : b.broker = b₀.broker) :
    b.Takes (.endpoint e) := by
  unfold Takes
  rw [hbroker]
  exact (hsound.online e).1 hat.online

/-- And it hands them to all those who are reached. -/
theorem transmit_snd (hat : b₀.ConnectedAt j c e) (hsound : b₀.broker.Sound) (hbroker : b.broker = b₀.broker)
    (hear : Hearing) (message : Outgoing) : (transmit hear j (.endpoint e) message b).2 =
      deliver hear message (b₀.broker.reached message.topic) b := by
  have hpublish : b.broker.publish e message.topic = .ok (b₀.broker.reached message.topic) := by
    rw [hbroker]
    exact hsound.publish_eq_ok hat.online message.topic
  simp only [transmit, transmitFrom, hpublish]

end ConnectedAt

/-- Among connections of one application a client waits for the replies to a request. -/
structure Asking (b : Bus) (s serial : Nat) (asker : Client) (id : CorrelationId) : Prop where
  sound : b.Sound
  assembly : b.Assembly
  connected : b.Connected s asker
  hyphenated : CorrelationId.isHyphenated id.text.toList = true
  waiting : ∀ {path}, asker.identity.relative path = id.route → asker.tree.get? path = some (.reply serial)
  fresh : ∀ {j c}, j ≠ s → b.Connected j c → c.tree.get? id.route = none

namespace Asking

variable {b₀ b : Bus} {s serial : Nat} {asker : Client} {id : CorrelationId} {message : Outgoing} {l : List Packet}

/-! ### The way back -/

theorem split_replyPath (h : Asking b₀ s serial asker id) :
    Topic.split (Topic.join (asker.replyPath id)) = asker.replyPath id :=
  Topic.split_join (asker.valid_replyPath (h.assembly.valid h.connected) h.hyphenated)

/-- The asker counts a reply that comes back to it. -/
theorem hear_reply (h : Asking b₀ s serial asker id) {reply : Packet}
    (htopic : message.topic = Topic.join (asker.replyPath id))
    (hdecode : ∃ codec : Codec, codec.decode asker.encoders.types message.bytes = .ok reply.toPayload) (room : Nat)
    (others : Scopes) (hb : Changed (.gathers s serial l) b₀ b) :
    Changed (.gathers s serial (l ++ [reply])) b₀ (hear (room + 1) others s message b) := by
  obtain ⟨e, hat⟩ := h.connected
  obtain ⟨c, hc, hchanged⟩ := hb.clients hat.client
  have hroute : c.tree.get? (Topic.split message.topic) = some (.reply serial) := by
    rw [hchanged.tree, htopic, h.split_replyPath]
    exact h.waiting (asker.relative_replyPath id)
  obtain ⟨scopes, b₁, hstill, hstill'⟩ := hear_of_route hc (hchanged.present.trans hat.present) hroute room others
  obtain ⟨codec, hcodec⟩ := hdecode
  rw [hchanged.encoders.decodeDetected_of_decode (h.sound.clients hat.client).encoders hcodec] at hstill'
  have hcounted := changed_replyExecutor s serial (some reply.toPayload) b₁
  have hpacket : ((some reply.toPayload).bind Packet.ofPayload?).toList = [reply] := rfl
  rw [hpacket] at hcounted
  exact ((hb.trans_none hstill.changed).gather hcounted).trans_none hstill'.changed

/-- Nobody else takes a reply: it reaches no one but the asker and clients of the same name, which have no route for
it. -/
theorem hear_reply_of_ne (h : Asking b₀ s serial asker id) (htopic : message.topic = Topic.join (asker.replyPath id))
    {j : Nat} (hj : j ≠ s) (hreached : j ∈ b₀.reachedClients message.topic) (room : Nat) (others : Scopes)
    (hb : Changed (.gathers s serial l) b₀ b) : hear room others j message b = b := by
  apply hear_eq_self
  intro c hc hpresent
  obtain ⟨c₀, hc₀, hchanged⟩ := hb.exists_before hc
  rw [h.assembly.mem_reachedClients_iff hc₀ (hchanged.present ▸ hpresent)] at hreached
  obtain ⟨hconnected, hcovering⟩ := hreached
  have hshared := h.assembly.shared hconnected h.connected
  have hvalid := h.assembly.valid h.connected
  have hreserved := h.assembly.unreserved h.connected
  rw [htopic] at hcovering
  have hnamed := (Identity.any_filters_addressed_iff (h.assembly.valid hconnected) hvalid hshared hvalid.group
    hvalid.client (CorrelationId.valid_replySegments h.hyphenated)).1 hcovering
  have hidentity : c₀.identity = asker.identity := by
    rcases hnamed with ⟨hgroup, hclient⟩ | ⟨-, hclient⟩ | ⟨hgroup, -⟩
    · exact hshared.eq_of_names hgroup hclient
    · exact absurd hclient.symm hreserved.2
    · exact absurd hgroup.symm hreserved.1
  have hrelative : c₀.identity.relative (asker.replyPath id) = c₀.identity.relative id.route := by
    rw [hidentity, asker.relative_replyPath, id.relative_route]
  rw [hchanged.tree, htopic, h.split_replyPath, (h.sound.clients hc₀).get?_congr hrelative]
  exact h.fresh hj hconnected

/-- A reply that a connection publishes is counted once. -/
theorem transmit_reply (h : Asking b₀ s serial asker id) {reply : Packet}
    (htopic : message.topic = Topic.join (asker.replyPath id))
    (hdecode : ∃ codec : Codec, codec.decode asker.encoders.types message.bytes = .ok reply.toPayload) {j e : Nat}
    {c : Client} (hat : b₀.ConnectedAt j c e) (room : Nat) (others : Scopes)
    (hb : Changed (.gathers s serial l) b₀ b) :
    Changed (.gathers s serial (l ++ [reply])) b₀
      (transmit (hear (room + 1) others) j (.endpoint e) message b).2 := by
  have hdelivered : Changed (.gathers s serial (l ++ (b₀.reachedClients message.topic).filterMap
      fun i => if i = s then some reply else none)) b₀
      (deliver (hear (room + 1) others) message (b₀.broker.reached message.topic) b) := by
    refine Changed.deliver_gathers (fun i hi l b hb => ?_) hb
    by_cases hs : i = s
    · subst hs
      rw [if_pos rfl]
      exact h.hear_reply htopic hdecode room others hb
    · rw [if_neg hs, Option.toList_none, List.append_nil, h.hear_reply_of_ne htopic hs hi (room + 1) others hb]
      exact hb
  have hmem : s ∈ b₀.reachedClients message.topic := by
    obtain ⟨e, hsender⟩ := h.connected
    rw [h.assembly.mem_reachedClients_iff hsender.client hsender.present]
    refine ⟨h.connected, ?_⟩
    have hvalid := h.assembly.valid h.connected
    rw [htopic]
    exact (Identity.any_filters_addressed_iff hvalid hvalid ⟨rfl, rfl⟩ hvalid.group hvalid.client
      (CorrelationId.valid_replySegments h.hyphenated)).2 (.inl ⟨rfl, rfl⟩)
  have honce : ((b₀.reachedClients message.topic).filter (· == s)).Nodup := by
    apply h.assembly.nodup_filter_reachedClients h.sound.broker
    intro i c hi hc
    obtain ⟨e, hsender⟩ := h.connected
    obtain rfl : i = s := by simpa using hi
    obtain rfl : c = asker := Option.some.inj (hc.symm.trans hsender.client)
    exact hsender.present
  rw [filterMap_of_once hmem honce reply] at hdelivered
  rw [hat.transmit_snd h.sound.broker hb.broker]
  exact hdelivered

end Asking

/-! ### The way out -/

/-- The message is a request that those whom it addresses can read, and whose answers the asker can read. -/
structure Poses (b : Bus) (asker : Client) (id : CorrelationId) (d : Destination) (subject : Subject)
    (payloads : List Payload) (message : Outgoing) : Prop where
  names : ∀ name ∈ d.names, Segment.Valid name ∧ name ≠ Segment.broadcast
  valid : subject.Valid
  unowned : ∀ {j c}, b.Connected j c → ∀ front, c.identity.Owns front → ¬front <+: subject.segments
  apart : asker.identity.relative (d.topicFor asker.identity subject) ≠ id.route
  topic : message.topic = Topic.join (d.topicFor asker.identity subject)
  readable : ∀ {j c}, b.Connected j c → d.Addresses asker.identity c.identity → ∃ codec : Codec,
    codec.decode c.encoders.types message.bytes =
      .ok (Packet.mk (.rpc (.of subject asker.identity d id)) payloads).toPayload
  answers : ∀ {j c reply}, b.Connected j c → d.Addresses asker.identity c.identity →
    c.answerAt subject.segments (.of subject asker.identity d id) payloads = some reply →
      reply.validate = .ok () ∧ c.encoders.standard.Conveys asker.encoders.types reply.toPayload

namespace Poses

variable {b : Bus} {asker : Client} {id : CorrelationId} {d : Destination} {subject : Subject}
  {payloads : List Payload} {message : Outgoing} {s serial j : Nat} {c : Client}

theorem split_topic (hp : b.Poses asker id d subject payloads message) (h : b.Asking s serial asker id) :
    Topic.split message.topic = d.topicFor asker.identity subject := by
  rw [hp.topic]
  apply Topic.split_join
  exact Destination.valid_topicFor (h.assembly.valid h.connected) (fun name hname => (hp.names name hname).1) hp.valid

/-- The request reaches those whom it addresses. -/
theorem mem_reachedClients_iff (hp : b.Poses asker id d subject payloads message) (h : b.Asking s serial asker id)
    (hc : b.clients[j]? = some c) (hpresent : c.present = true) :
    j ∈ b.reachedClients message.topic ↔ b.Connected j c ∧ d.Addresses asker.identity c.identity := by
  rw [h.assembly.mem_reachedClients_iff hc hpresent, hp.topic]
  refine and_congr_right fun hconnected => ?_
  exact Destination.any_filters_topicFor_iff (h.assembly.valid h.connected) (h.assembly.valid hconnected)
    (h.assembly.shared hconnected h.connected) (h.assembly.unreserved h.connected) hp.names hp.valid

/-- It leads them to what they have bound to the subject. -/
theorem get?_split_topic (hp : b.Poses asker id d subject payloads message) (h : b.Asking s serial asker id)
    (hconnected : b.Connected j c) (haddressed : d.Addresses asker.identity c.identity) :
    c.tree.get? (Topic.split message.topic) = c.tree.get? subject.segments := by
  apply (h.sound.clients hconnected.client).get?_congr
  rw [hp.split_topic h, Destination.relative_topicFor (h.assembly.shared hconnected h.connected) haddressed,
    Identity.relative_of_not_owned (hp.unowned hconnected)]

/-- They can read it, whatever their encoders have done in the meantime. -/
theorem decodeDetected_eq (hp : b.Poses asker id d subject payloads message) (h : b.Asking s serial asker id)
    (hconnected : b.Connected j c) (haddressed : d.Addresses asker.identity c.identity) {pool : EncoderPool}
    (hdesk : c.encoders.SameDesk pool) : (pool.decodeDetected message.bytes).1 =
      .ok (Packet.mk (.rpc (.of subject asker.identity d id)) payloads).toPayload := by
  obtain ⟨codec, hdecode⟩ := hp.readable hconnected haddressed
  exact hdesk.decodeDetected_of_decode (h.sound.clients hconnected.client).encoders hdecode

/-- If it leads to a request that waits for replies, that is another one. -/
theorem exists_of_reply (hp : b.Poses asker id d subject payloads message) (h : b.Asking s serial asker id)
    (hconnected : b.Connected j c) (haddressed : d.Addresses asker.identity c.identity) {k : Nat}
    (hroute : c.tree.get? subject.segments = some (.reply k)) :
    ∃ r, c.requests[k]? = some r ∧ r.collector.id ≠ id := by
  obtain ⟨r, hr, hpath⟩ := (h.sound.clients hconnected.client).routes hroute
  rw [Identity.relative_of_not_owned (hp.unowned hconnected)] at hpath
  refine ⟨r, hr, ?_⟩
  rintro rfl
  by_cases hj : j = s
  · subst hj
    obtain rfl : c = asker := hconnected.unique h.connected
    apply hp.apart
    rw [Destination.relative_topicFor ⟨rfl, rfl⟩ haddressed, hpath]
  · have hfresh := h.fresh hj hconnected
    rw [← hpath, hroute] at hfresh
    cases hfresh

end Poses

/-- A packet is lost on a request with another id, whatever some request has gathered before. -/
theorem Changed.replyExecutor_of_foreign {b₀ b : Bus} {s serial j k : Nat} {l : List Packet}
    (hb : Changed (.gathers s serial l) b₀ b) {c : Client} (hc : b₀.clients[j]? = some c) {r : Request}
    (hr : c.requests[k]? = some r) {header : RpcHeader} (hid : header.packetId ≠ r.collector.id.text)
    (payloads : List Payload) :
    Changed .none b ((replyExecutor j k).execute (some (Packet.mk (.rpc header) payloads).toPayload) b).2 := by
  have hcounted := changed_replyExecutor j k (some (Packet.mk (.rpc header) payloads).toPayload) b
  refine hcounted.mono_of_request? fun j' k' q q' hq hgathers => ?_
  rw [show q' = _ from hgathers]
  split
  · rename_i hjk
    obtain ⟨rfl, rfl⟩ := hjk
    -- the request that is found there has kept its id
    obtain ⟨c', hc', hq⟩ := Option.bind_eq_some_iff.1 hq
    obtain ⟨c₁, hc₁, hchanged⟩ := hb.clients hc
    obtain rfl : c₁ = c' := Option.some.inj (hc₁.symm.trans hc')
    obtain ⟨r₁, hr₁, hgathers₁⟩ := hchanged.requests hr
    obtain rfl : r₁ = q := Option.some.inj (hr₁.symm.trans hq)
    apply Request.count_of_foreign rfl
    rw [RequestChange.id_of_gathers hgathers₁]
    exact hid
  · rfl

/-- What a client that is present answers to a request. -/
def answerAt (b : Bus) (path : List String) (request : RpcHeader) (payloads : List Payload) (j : Nat) :
    Option Packet :=
  (b.clients[j]?).bind fun c => if c.present then c.answerAt path request payloads else none

namespace Asking

variable {b₀ b : Bus} {s serial : Nat} {asker : Client} {id : CorrelationId} {message : Outgoing} {l : List Packet}
  {d : Destination} {subject : Subject} {payloads : List Payload} {j : Nat} {c : Client}

/-- Whoever answers is a connection that the request addresses and that has a request handler for it. -/
theorem exists_of_answerAt (h : Asking b₀ s serial asker id) (hp : b₀.Poses asker id d subject payloads message)
    (hreached : j ∈ b₀.reachedClients message.topic) {reply : Packet}
    (hanswer : b₀.answerAt subject.segments (.of subject asker.identity d id) payloads j = some reply) :
    ∃ c bound handler, b₀.Connected j c ∧ d.Addresses asker.identity c.identity ∧
      c.tree.get? subject.segments = some (.request bound handler) ∧
        c.answerAt subject.segments (.of subject asker.identity d id) payloads = some reply ∧
          reply.IsAnswer (.of subject asker.identity d id) payloads c.identity handler := by
  obtain ⟨c, hc, hreply⟩ := Option.bind_eq_some_iff.1 hanswer
  split at hreply
  · rename_i hpresent
    obtain ⟨hconnected, haddressed⟩ := (hp.mem_reachedClients_iff h hc hpresent).1 hreached
    obtain ⟨bound, handler, hroute, hisAnswer⟩ := Client.isAnswer_of_answerAt hreply
    exact ⟨c, bound, handler, hconnected, haddressed, hroute, hreply, hisAnswer⟩
  · cases hreply

/-- A connection that has a request handler answers, and its answer is counted. -/
theorem hear_request (h : Asking b₀ s serial asker id) (hp : b₀.Poses asker id d subject payloads message)
    (hconnected : b₀.Connected j c) (haddressed : d.Addresses asker.identity c.identity) {bound : Subject}
    {handler : RequestHandler} (hroute : c.tree.get? subject.segments = some (.request bound handler))
    {reply : Packet} (hreply : c.answerAt subject.segments (.of subject asker.identity d id) payloads = some reply)
    (room : Nat) (others : Scopes) (hb : Changed (.gathers s serial l) b₀ b) :
    Changed (.gathers s serial (l ++ [reply])) b₀ (hear (room + 2) others j message b) := by
  obtain ⟨e, hat⟩ := hconnected
  obtain ⟨c₁, hc₁, hchanged⟩ := hb.clients hat.client
  have hleads : c₁.tree.get? (Topic.split message.topic) = some (.request bound handler) := by
    rw [hchanged.tree, hp.get?_split_topic h ⟨e, hat⟩ haddressed]
    exact hroute
  obtain ⟨scopes, b₁, hstill, hstill'⟩ := hear_of_route hc₁ (hchanged.present.trans hat.present) hleads (room + 1)
    others
  rw [hp.decodeDetected_eq h ⟨e, hat⟩ haddressed hchanged.encoders] at hstill'
  -- the answer may be sent, and the line takes it
  obtain ⟨hvalid, bytes, hencode, hdecodes⟩ := hp.answers ⟨e, hat⟩ haddressed hreply
  obtain ⟨c₂, hc₂, hchanged'⟩ := hstill.changed.clients hc₁
  have hdesk := hchanged.encoders.trans hchanged'.encoders
  have hline : c₂.line = .endpoint e := (hchanged'.line.trans hchanged.line).trans hat.line
  have htakes : b₁.Takes c₂.line := by
    rw [hline]
    exact hat.takes h.sound.broker (hstill.changed.broker.trans hb.broker)
  have hsource := h.assembly.valid h.connected
  have hrequest : (RpcHeader.of subject asker.identity d id).validate = .ok () :=
    RpcHeader.validate_of hp.valid hsource (fun name hname => (hp.names name hname).1)
      (CorrelationId.valid_of_isHyphenated h.hyphenated).1
  rw [Client.answerAt_of_route hroute, ← hchanged.identity] at hreply
  rw [← hdesk.standard] at hencode
  obtain ⟨b₂, hstill₂, hexecuted⟩ := execute_request_of_publishable (hear (room + 1) scopes) scopes bound handler hc₂
    (hdesk.sound (h.sound.clients hat.client).encoders) htakes c₁.identity hrequest
    (RpcHeader.valid_replyTopic_of hsource h.hyphenated) (Option.some.inj hreply).symm hvalid hencode
  have hexecuted' : (executorBy (hear (room + 1) scopes) scopes j c₁.identity (.request bound handler)).execute
      (some (Packet.mk (.rpc (.of subject asker.identity d id)) payloads).toPayload) b₁ = _ := hexecuted
  have htoOption : (Except.ok (Packet.mk (.rpc (.of subject asker.identity d id)) payloads).toPayload :
      Except CodecError Payload).toOption =
        some (Packet.mk (.rpc (.of subject asker.identity d id)) payloads).toPayload := rfl
  rw [htoOption, hexecuted', hline] at hstill'
  have htopic : (Outgoing.mk (Topic.join (asker.replyPath id)) bytes).topic = Topic.join (asker.replyPath id) := rfl
  have hcounted := h.transmit_reply htopic ⟨_, hdecodes⟩ hat room scopes
    ((hb.trans_none hstill.changed).trans_none hstill₂.changed)
  exact hcounted.trans_none hstill'.changed

/-- A client without a request handler leaves the request alone. -/
theorem hear_other (h : Asking b₀ s serial asker id) (hp : b₀.Poses asker id d subject payloads message)
    (hc : b₀.clients[j]? = some c) (hreached : j ∈ b₀.reachedClients message.topic)
    (hnot : b₀.answerAt subject.segments (.of subject asker.identity d id) payloads j = none) (room : Nat)
    (others : Scopes) (hb : Changed (.gathers s serial l) b₀ b) :
    Changed (.gathers s serial l) b₀ (hear (room + 1) others j message b) := by
  obtain ⟨c₁, hc₁, hchanged⟩ := hb.clients hc
  cases hpresent : c.present with
  | false =>
    rw [hear_eq_self fun c' hc' hpresent' => ?_]
    · exact hb
    · obtain rfl : c₁ = c' := Option.some.inj (hc₁.symm.trans hc')
      rw [hchanged.present, hpresent] at hpresent'
      cases hpresent'
  | true =>
    obtain ⟨hconnected, haddressed⟩ := (hp.mem_reachedClients_iff h hc hpresent).1 hreached
    have hleads := hp.get?_split_topic h hconnected haddressed
    cases hroute : c.tree.get? subject.segments with
    | none =>
      rw [hear_eq_self fun c' hc' _ => ?_]
      · exact hb
      · obtain rfl : c₁ = c' := Option.some.inj (hc₁.symm.trans hc')
        rw [hchanged.tree, hleads, hroute]
    | some route =>
      rw [hroute, ← hchanged.tree] at hleads
      obtain ⟨scopes, b₁, hstill, hstill'⟩ := hear_of_route hc₁ (hchanged.present.trans hpresent) hleads room others
      have hb₁ := hb.trans_none hstill.changed
      cases route with
      | request bound handler => simp [answerAt, Client.answerAt, hc, hpresent, hroute] at hnot
      | notification bound handler =>
        exact (hb₁.notificationExecutor scopes j bound handler _).trans_none hstill'.changed
      | reply k =>
        -- another request waits there, with another id
        obtain ⟨r, hr, hid⟩ := hp.exists_of_reply h hconnected haddressed hroute
        have htext : (RpcHeader.of subject asker.identity d id).packetId ≠ r.collector.id.text := by
          intro hsame
          exact hid (congrArg CorrelationId.mk hsame.symm)
        rw [hp.decodeDetected_eq h hconnected haddressed hchanged.encoders] at hstill'
        exact (hb₁.trans_none (hb₁.replyExecutor_of_foreign hc hr htext payloads)).trans_none hstill'.changed

/-- The request gathers what those answer that it reaches, in the order in which it reaches them. -/
theorem transmit_request (h : Asking b₀ s serial asker id) (hp : b₀.Poses asker id d subject payloads message)
    (room : Nat) (others : Scopes) (hb : Changed (.gathers s serial l) b₀ b) :
    Changed (.gathers s serial (l ++ (b₀.reachedClients message.topic).filterMap
        (b₀.answerAt subject.segments (.of subject asker.identity d id) payloads))) b₀
      (transmit (hear (room + 2) others) s asker.line message b).2 := by
  obtain ⟨e, hat⟩ := h.connected
  rw [hat.line, hat.transmit_snd h.sound.broker hb.broker]
  refine Changed.deliver_gathers (fun j hj l b hb => ?_) hb
  cases hanswer : b₀.answerAt subject.segments (.of subject asker.identity d id) payloads j with
  | none =>
    rw [Option.toList_none, List.append_nil]
    obtain ⟨e', he', -, hlistener⟩ := mem_reachedClients.1 hj
    obtain ⟨c, hc, -⟩ := h.assembly.listeners he' hlistener
    exact h.hear_other hp hc hj hanswer (room + 1) others hb
  | some reply =>
    obtain ⟨c, bound, handler, hconnected, haddressed, hroute, hreply, -⟩ := h.exists_of_answerAt hp hj hanswer
    exact h.hear_request hp hconnected haddressed hroute hreply room others hb

/-- Those that answer are the connections that the request addresses and that have a request handler for it. -/
theorem mem_answering_iff (h : Asking b₀ s serial asker id) (hp : b₀.Poses asker id d subject payloads message) :
    j ∈ (b₀.reachedClients message.topic).filter (fun j =>
        (b₀.answerAt subject.segments (.of subject asker.identity d id) payloads j).isSome) ↔
      ∃ c bound handler, b₀.Connected j c ∧ d.Addresses asker.identity c.identity ∧
        c.tree.get? subject.segments = some (.request bound handler) := by
  rw [List.mem_filter]
  constructor
  · rintro ⟨hreached, hanswers⟩
    obtain ⟨reply, hanswer⟩ := Option.isSome_iff_exists.1 hanswers
    obtain ⟨c, bound, handler, hconnected, haddressed, hroute, -⟩ := h.exists_of_answerAt hp hreached hanswer
    exact ⟨c, bound, handler, hconnected, haddressed, hroute⟩
  · rintro ⟨c, bound, handler, hconnected, haddressed, hroute⟩
    obtain ⟨e, hat⟩ := hconnected
    refine ⟨(hp.mem_reachedClients_iff h hat.client hat.present).2 ⟨⟨e, hat⟩, haddressed⟩, ?_⟩
    simp [answerAt, Client.answerAt, hat.client, hat.present, hroute]

theorem nodup_answering (h : Asking b₀ s serial asker id) (topic : String) (path : List String) (request : RpcHeader)
    (payloads : List Payload) :
    ((b₀.reachedClients topic).filter fun j => (b₀.answerAt path request payloads j).isSome).Nodup := by
  apply h.assembly.nodup_filter_reachedClients h.sound.broker
  intro j c hanswers hc
  cases hpresent : c.present with
  | true => rfl
  | false => simp [answerAt, hc, hpresent] at hanswers

end Asking

end Bus

end Switchboard
