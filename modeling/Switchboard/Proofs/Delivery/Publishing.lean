import Switchboard.Proofs.Delivery.Change
import Switchboard.Proofs.Packet.Header

/-!
# What is handed to a line

A packet is published if its topic is made of segments, if it passes the check, and if it can be encoded: then one
message is handed to the line of the client, and until then the bus is still (`Bus.publishVia_eq_send`). Otherwise no
message is, and the fault is reported (`Bus.publishVia_eq_error`).
-/

namespace Switchboard

namespace EncoderPool

variable {pool : EncoderPool} {topic : List String} {packet : Packet}

/-- The segments of a topic are checked before the packet. -/
theorem approve_eq_bind (hne : topic ≠ []) (packet : Packet) : approve topic (some packet) =
    (Segment.validateAll topic).bind fun _ => packet.validate.map fun _ => packet := by
  have hempty : topic.isEmpty = false := by simpa using hne
  rw [approve, hempty, if_neg Bool.false_ne_true]
  cases Segment.validateAll topic with
  | error e => rfl
  | ok _ => cases packet.validate <;> rfl

theorem approve_eq (htopic : topic ≠ [] ∧ ∀ s ∈ topic, Segment.Valid s) (packet : Packet) :
    approve topic (some packet) = packet.validate.map fun _ => packet := by
  rw [approve_eq_bind htopic.1, (Segment.validateAll_eq_ok_iff topic).2 htopic.2]
  rfl

theorem approve_eq_ok_iff {packet approved : Packet} : approve topic (some packet) = .ok approved ↔
    (topic ≠ [] ∧ ∀ s ∈ topic, Segment.Valid s) ∧ packet.validate = .ok () ∧ packet = approved := by
  constructor
  · intro h
    by_cases hempty : topic = []
    · simp [approve, hempty] at h
    · have hvalid : Segment.validateAll topic = .ok () := by
        rw [approve_eq_bind hempty] at h
        cases hsegments : Segment.validateAll topic with
        | ok _ => rfl
        | error e =>
          rw [hsegments] at h
          cases h
      have htopic : topic ≠ [] ∧ ∀ s ∈ topic, Segment.Valid s :=
        ⟨hempty, (Segment.validateAll_eq_ok_iff topic).1 hvalid⟩
      rw [approve_eq htopic] at h
      cases hpacket : packet.validate with
      | ok _ =>
        rw [hpacket] at h
        exact ⟨htopic, rfl, Except.ok.inj h⟩
      | error e =>
        rw [hpacket] at h
        cases h
  · rintro ⟨htopic, hvalid, rfl⟩
    rw [approve_eq htopic, hvalid]
    rfl

theorem sameDesk_prepare (pool : EncoderPool) (topic : List String) (packet : Option Packet) (codec : Option Codec) :
    SameDesk pool (pool.prepare topic packet codec).2 := by
  unfold prepare
  split
  · exact .refl pool
  · rename_i approved _
    have hencode := sameDesk_encode pool (codec.getD pool.standard) approved.toPayload
    split <;> rename_i hencoded <;> rwa [hencoded] at hencode

/-- A packet that may be published is encoded by a borrowed encoder. -/
theorem prepare_eq_of_approve {packet : Option Packet} {content : Packet} (h : approve topic packet = .ok content)
    (pool : EncoderPool) (codec : Option Codec) :
    pool.prepare topic packet codec =
      (((pool.encode (codec.getD pool.standard) content.toPayload).1.mapError .codec).map (⟨Topic.join topic, ·⟩),
        (pool.encode (codec.getD pool.standard) content.toPayload).2) := by
  unfold prepare
  rw [h]
  simp only
  generalize pool.encode (codec.getD pool.standard) content.toPayload = encoded
  obtain ⟨result, pool'⟩ := encoded
  cases result <;> rfl

/-- A packet that may be sent is prepared as the codec encodes it. -/
theorem Sound.prepare_eq_ok (hpool : pool.Sound) (htopic : topic ≠ [] ∧ ∀ s ∈ topic, Segment.Valid s)
    (hvalid : packet.validate = .ok ()) {bytes : Bytes} (hbytes : pool.standard.encode packet.toPayload = .ok bytes) :
    (pool.prepare topic (some packet) none).1 = .ok ⟨Topic.join topic, bytes⟩ := by
  rw [prepare_eq_of_approve (approve_eq_ok_iff.2 ⟨htopic, hvalid, rfl⟩), hpool.encode_fst, Option.getD_none, hbytes]
  rfl

/-- What may not be published is refused, whatever the codec. -/
theorem prepare_eq_error_of_approve {packet : Option Packet} {e : ValidationError}
    (he : approve topic packet = .error e) (pool : EncoderPool) (codec : Option Codec) :
    (pool.prepare topic packet codec).1 = .error (.validation e) := by
  unfold prepare
  rw [he]

/-- A packet that may not be sent, or not be encoded, is refused for this reason. -/
theorem Sound.prepare_eq_error (hpool : pool.Sound) (htopic : topic ≠ [] ∧ ∀ s ∈ topic, Segment.Valid s)
    (packet : Packet) :
    (∀ e, packet.validate = .error e → (pool.prepare topic (some packet) none).1 = .error (.validation e)) ∧
      ∀ e, packet.validate = .ok () → pool.standard.encode packet.toPayload = .error e →
        (pool.prepare topic (some packet) none).1 = .error (.codec e) := by
  constructor
  · intro e he
    apply prepare_eq_error_of_approve
    rw [approve_eq htopic, he]
    rfl
  · intro e hvalid he
    rw [prepare_eq_of_approve (approve_eq_ok_iff.2 ⟨htopic, hvalid, rfl⟩), hpool.encode_fst, Option.getD_none, he]
    rfl

end EncoderPool

namespace Bus

variable {b : Bus} {client : Nat} {c : Client} {topic : List String} {packet : Option Packet} {codec : Option Codec}

/-- A message that was prepared is handed to the line, and what comes of it is reported; otherwise the line is not
called. The encoders are back by then. -/
theorem publishVia_eq (send : Sending) (hc : b.clients[client]? = some c) (topic : List String)
    (packet : Option Packet) (codec : Option Codec) :
    let prepared := c.encoders.prepare topic packet codec
    let handed := b.updateClient client fun c => { c with encoders := prepared.2 }
    (∀ message, prepared.1 = .ok message → publishVia send client topic packet codec b =
      ((send c.line message handed).1.mapError .transport, (send c.line message handed).2)) ∧
    ∀ e, prepared.1 = .error e → publishVia send client topic packet codec b = (.error e, handed) := by
  intro prepared handed
  constructor
  · intro message hm
    have hm' : (c.encoders.prepare topic packet codec).1 = .ok message := hm
    unfold publishVia
    simp only [hc, hm', handed, prepared]
    generalize send c.line message _ = sent
    obtain ⟨verdict, b'⟩ := sent
    cases verdict <;> rfl
  · intro e hm
    have hm' : (c.encoders.prepare topic packet codec).1 = .error e := hm
    unfold publishVia
    simp only [hc, hm', handed, prepared]

/-- Until a message that was prepared is handed to the line, the bus is still. -/
theorem publishVia_eq_send (send : Sending) (hc : b.clients[client]? = some c) {message : Outgoing}
    (hm : (c.encoders.prepare topic packet codec).1 = .ok message) :
    ∃ b', Still b b' ∧ publishVia send client topic packet codec b =
      ((send c.line message b').1.mapError .transport, (send c.line message b').2) :=
  ⟨_, still_updateEncoders hc (c.encoders.sameDesk_prepare topic packet codec),
    (publishVia_eq send hc topic packet codec).1 message hm⟩

/-- If none could be prepared, the bus is still. -/
theorem publishVia_eq_error (send : Sending) (hc : b.clients[client]? = some c) {e : BusError}
    (hm : (c.encoders.prepare topic packet codec).1 = .error e) :
    ∃ b', Still b b' ∧ publishVia send client topic packet codec b = (.error e, b') :=
  ⟨_, still_updateEncoders hc (c.encoders.sameDesk_prepare topic packet codec),
    (publishVia_eq send hc topic packet codec).2 e hm⟩

/-- A request that is accepted is answered with what its handler makes of it. Up to the moment when the answer is
published the bus is still, but for the call of the handler, after which its failure may be logged. -/
theorem handlePayloads_request (hear : Hearing) (scopes : Scopes) (client : Nat) (responder : Identity)
    (bound : Subject) (h : RequestHandler) {packet : Packet} {request : RpcHeader}
    (haccept : RequestHandler.accept bound packet = .ok request) (payloads : List Payload) (b : Bus) :
    let reply := RequestHandler.replyPacket responder request (RequestHandler.answer (h.run request payloads))
    ∃ b', Still b b' ∧
      (∃ l : List LogEvent, b'.events = b.events ++ .handled client h.name (.rpc request) payloads :: l.map .logged) ∧
      let published := publishBy hear client request.replyTopic (some reply) none b'
      (requestExecutor hear scopes client responder bound h).handlePayloads packet payloads b =
        (published.1.bind fun _ => (h.run request payloads).map fun _ => (), published.2) := by
  intro reply
  have hcalled : Still b (b.record (.handled client h.name (.rpc request) payloads)) := still_record b trivial
  cases hresult : h.run request payloads with
  | ok answer =>
    refine ⟨_, hcalled, ⟨[], rfl⟩, ?_⟩
    simp only [requestExecutor, haccept, hresult, reply]
    generalize publishBy hear client request.replyTopic _ none _ = published
    obtain ⟨outcome, b'⟩ := published
    cases outcome <;> rfl
  | error e =>
    refine ⟨_, hcalled.trans (still_log _ scopes.innermost .warn "request handler failed"
      [("subject", bound.text), ("packet_id", request.packetId), ("error", e.message)]),
      ⟨[⟨.warn, "request handler failed",
        [("subject", bound.text), ("packet_id", request.packetId), ("error", e.message)],
        scopes.innermost.map (·.text)⟩], ?_⟩, ?_⟩
    · simp only [log, record, List.append_assoc]
      rfl
    simp only [requestExecutor, haccept, hresult, reply]
    generalize publishBy hear client request.replyTopic _ none _ = published
    obtain ⟨outcome, b'⟩ := published
    cases outcome <;> rfl

end Bus

end Switchboard
