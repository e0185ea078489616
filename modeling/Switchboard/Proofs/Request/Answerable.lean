import Switchboard.Proofs.Request.Answer

/-!
# Which requests can be answered

The check of a request looks at the segments of its source, but not at their number, and at its id only to see that
there is one. The reply needs more: a group and a client to go to, which are the last two segments of the source, and
an id that may stand in its topic. A request that passes the check can be answered just if it has both
(`Bus.answerable_iff`). Of any other the handler is called as well, but its answer is refused.
-/

namespace Switchboard

/-- The source names a group and a client, and the id may stand in a topic. -/
def RpcHeader.Answerable (request : RpcHeader) : Prop :=
  2 ≤ request.base.source.length ∧ Segment.Valid request.packetId

/-- The check of a packet begins with its header. -/
theorem Packet.validate_rpc_eq_ok_iff {h : RpcHeader} {payloads : List Payload} :
    (⟨.rpc h, payloads⟩ : Packet).validate = .ok () ↔
      h.validate = .ok () ∧ Payload.validateAll payloads = .ok () := by
  cases hh : h.validate with
  | ok _ =>
    rw [Packet.validate_rpc hh]
    exact (and_iff_right rfl).symm
  | error e =>
    simp [Packet.validate, Packet.toPayload, Payload.validate, PacketHeader.validate, hh, bind, Except.bind]

namespace Bus

variable {request : RpcHeader} {responder : Identity}

/-- The reply to a request may be published if the request can be answered and the payloads may be sent. -/
theorem approve_replyPacket_iff (hrequest : request.validate = .ok ()) (hresponder : responder.Valid)
    (answer : List Payload) :
    let reply := RequestHandler.replyPacket responder request answer
    EncoderPool.approve request.replyTopic (some reply) = .ok reply ↔
      request.Answerable ∧ Payload.validateAll answer = .ok () := by
  intro reply
  have htopic : request.replyTopic ≠ [] := by simp [RpcHeader.replyTopic]
  have hreply : reply.validate = .ok () ↔
      (responder.Valid ∧ 2 ≤ request.base.source.length) ∧ Payload.validateAll answer = .ok () := by
    rw [← RpcHeader.validate_replyTo_iff hrequest]
    exact Packet.validate_rpc_eq_ok_iff
  rw [EncoderPool.approve_eq_ok_iff, RpcHeader.valid_replyTopic_iff hrequest, hreply]
  constructor
  · rintro ⟨⟨-, hid⟩, ⟨⟨-, hlength⟩, hanswer⟩, -⟩
    exact ⟨⟨hlength, hid⟩, hanswer⟩
  · rintro ⟨⟨hlength, hid⟩, hanswer⟩
    exact ⟨⟨htopic, hid⟩, ⟨⟨hresponder, hlength⟩, hanswer⟩, rfl⟩

/-- The handler of a request that cannot be answered is called, but nothing is published, whatever it answers, and a
fault of the reply is reported. -/
theorem execute_request_of_not_answerable (hrequest : request.validate = .ok ()) (hresponder : responder.Valid)
    (hno : ¬request.Answerable) {b : Bus} {client : Nat} {c : Client} (hc : b.clients[client]? = some c)
    (hear : Hearing) (scopes : Scopes) (bound : Subject) (h : RequestHandler) (payloads : List Payload) :
    let packet : Packet := ⟨.rpc request, payloads⟩
    let executed := (requestExecutor hear scopes client responder bound h).execute (some packet.toPayload) b
    Still b executed.2 ∧ .handled client h.name (.rpc request) packet.others ∈ executed.2.events ∧
      ∃ cause, executed.1 = [.ofBusError (.validation cause)] := by
  intro packet executed
  generalize hreply : RequestHandler.replyPacket responder request
    (RequestHandler.answer (h.run request packet.others)) = reply
  have hrefused : ∃ cause, EncoderPool.approve request.replyTopic (some reply) = .error cause := by
    cases happrove : EncoderPool.approve request.replyTopic (some reply) with
    | error cause => exact ⟨cause, rfl⟩
    | ok approved =>
      obtain ⟨-, -, rfl⟩ := EncoderPool.approve_eq_ok_iff.1 happrove
      rw [← hreply] at happrove
      exact absurd ((approve_replyPacket_iff hrequest hresponder _).1 happrove).1 hno
  obtain ⟨cause, hcause⟩ := hrefused
  obtain ⟨b', hstill, hcalled, hexecute⟩ := execute_request_of_refused hear scopes bound h hc responder hrequest
    hreply.symm fun pool _ => EncoderPool.prepare_eq_error_of_approve hcause pool none
  have hexecuted : executed = ([.ofBusError (.validation cause)], b') := hexecute
  rw [hexecuted]
  exact ⟨hstill, hcalled, cause, rfl⟩

/-- Of a request that passes the check, the header of the reply passes it if the source names a group and a client,
and the topic of the reply may be published on if the id may stand in it. If both hold, the reply may be published
with any payloads that may be sent. If not, the handler is called for an answer that is refused. -/
theorem answerable_iff (hrequest : request.validate = .ok ()) (hresponder : responder.Valid) :
    ((request.replyTo responder).validate = .ok () ↔ 2 ≤ request.base.source.length) ∧
    (Segment.validateAll request.replyTopic = .ok () ↔ Segment.Valid request.packetId) ∧
    (∀ answer, EncoderPool.approve request.replyTopic (some (RequestHandler.replyPacket responder request answer)) =
        .ok (RequestHandler.replyPacket responder request answer) ↔
      request.Answerable ∧ Payload.validateAll answer = .ok ()) ∧
    (¬request.Answerable → ∀ (b : Bus) (client : Nat) (c : Client), b.clients[client]? = some c →
      ∀ (hear : Hearing) (scopes : Scopes) (bound : Subject) (h : RequestHandler) (payloads : List Payload),
        let packet : Packet := ⟨.rpc request, payloads⟩
        let executed := (requestExecutor hear scopes client responder bound h).execute (some packet.toPayload) b
        Still b executed.2 ∧ .handled client h.name (.rpc request) packet.others ∈ executed.2.events ∧
          ∃ cause, executed.1 = [.ofBusError (.validation cause)]) := by
  refine ⟨?_, ?_, approve_replyPacket_iff hrequest hresponder, ?_⟩
  · rw [RpcHeader.validate_replyTo_iff hrequest]
    exact and_iff_right hresponder
  · rw [Segment.validateAll_eq_ok_iff]
    exact RpcHeader.valid_replyTopic_iff hrequest
  · intro hno b client c hc hear scopes bound h payloads
    exact execute_request_of_not_answerable hrequest hresponder hno hc hear scopes bound h payloads

private def winch : Identity := ⟨["demo"], "yard", "deck", "winch"⟩

/-- A request for the rope that is out, from a source and with an id that a sender may choose as it likes. -/
private def ropeOut (source : List String) (id : String) : RpcHeader :=
  ⟨⟨["rope", "out"], source, some id⟩, "deck", "winch"⟩

private def measured : RequestHandler := ⟨"measured", fun _ _ => .ok [.integer 40]⟩

/-- A bus with a client on a tape. -/
private def winchOnTape : Bus := { empty with clients := [.of winch (.empty .standard .json 4) (.tape false)] }

/-- Two segments are enough of a source, and the id need not be one that a client makes. With one segment the handler
is called, but nothing goes on the tape. -/
theorem answerable_iff_ropeOut :
    EncoderPool.approve ["bridge", "mate", "rpc-reply", "today"]
        (some (RequestHandler.replyPacket winch (ropeOut ["bridge", "mate"] "today") [.integer 40])) =
      .ok (RequestHandler.replyPacket winch (ropeOut ["bridge", "mate"] "today") [.integer 40]) ∧
    let executed := (requestExecutor (hear usualRoom []) [] 0 winch ⟨["rope", "out"]⟩ measured).execute
      (some (Packet.mk (.rpc (ropeOut ["mate"] "today")) []).toPayload) winchOnTape
    .handled 0 "measured" (.rpc (ropeOut ["mate"] "today")) [] ∈ executed.2.events ∧ executed.2.tapes = [] := by
  have hresponder : winch.Valid := (Segment.validateAll_eq_ok_iff winch.address).1 rfl
  constructor
  · have hrequest : (ropeOut ["bridge", "mate"] "today").validate = .ok () := rfl
    obtain ⟨-, htopic, hreply, -⟩ := answerable_iff hrequest hresponder
    exact (hreply [.integer 40]).2 ⟨⟨le_rfl, htopic.1 rfl⟩, rfl⟩
  · have hrequest : (ropeOut ["mate"] "today").validate = .ok () := rfl
    obtain ⟨-, -, -, hrefused⟩ := answerable_iff hrequest hresponder
    have hno : ¬(ropeOut ["mate"] "today").Answerable := fun hyes => absurd hyes.1 (by decide)
    obtain ⟨hstill, hcalled, -⟩ :=
      hrefused hno winchOnTape 0 _ rfl (hear usualRoom []) [] ⟨["rope", "out"]⟩ measured []
    exact ⟨hcalled, hstill.tapes_eq⟩

/-- Of two requests that pass the check and come over the line, one has a source of a single segment and the other an
id with a blank in it. Neither can be answered. -/
theorem unanswerable_ropeOut :
    (winch.Valid ∧ (ropeOut ["mate"] "today").validate = .ok () ∧
      (ropeOut ["bridge", "mate"] "right now").validate = .ok ()) ∧
    (∀ h ∈ [ropeOut ["mate"] "today", ropeOut ["bridge", "mate"] "right now"],
      Codec.json.Conveys .standard (.packet (.rpc h) [])) ∧
    ((ropeOut ["mate"] "today").replyTo winch).validate = .error (.missingField "destination_group_id") ∧
    Segment.validateAll (ropeOut ["bridge", "mate"] "right now").replyTopic =
      .error (.invalidSegment "right now" (.forbidden ' ')) := by
  refine ⟨⟨(Segment.validateAll_eq_ok_iff winch.address).1 rfl, rfl, rfl⟩, ?_, rfl, rfl⟩
  intro h hh
  have hadmits : Codec.json.Admits .standard (.packet (.rpc h) []) := by
    obtain rfl | rfl : h = ropeOut ["mate"] "today" ∨ h = ropeOut ["bridge", "mate"] "right now" := by simpa using hh
    all_goals
      refine ⟨fun t ht => ?_, trivial, (fun x hx => by cases hx), by decide⟩
      obtain rfl : t = .packet := by simpa [Payload.typesWithin, Payload.typesWithinAll, Payload.type?] using ht
      rfl
  exact hadmits.conveys

end Bus

end Switchboard
