import Switchboard.Proofs.Delivery.Soundness
import Switchboard.Proofs.Request.Answer

/-!
# How requests go out

A request with an id for which nothing is bound is entered, and if its packet may be sent and can be encoded, one
message is handed to the line; if the line takes it, the timer of the request is set (`Bus.request_eq_of_takes`).
-/

namespace Switchboard

/-- A path on which replies come in addresses nobody. -/
theorem CorrelationId.relative_route (id : CorrelationId) (i : Identity) : i.relative id.route = id.route := by
  apply Identity.relative_of_not_owned
  rintro front ⟨group, client, -, -, rfl⟩ hprefix
  have hlength := hprefix.length_le
  simp [Identity.addressed, route] at hlength

namespace Client

variable {c : Client} {id : CorrelationId}

/-- A client can make a request with an id for which nothing is bound. -/
theorem Sound.exists_prepareRequest (h : c.Sound) (hfree : c.tree.get? id.route = none) (header : RpcHeader)
    (expected : ExpectedReplies) : ∃ prepared, c.prepareRequest header id expected = .ok prepared := by
  have hrelative : c.tree.owner.relative (c.replyPath id) = id.route := by rw [h.owner, c.relative_replyPath]
  have hsame : c.identity.relative (c.replyPath id) = c.identity.relative id.route := by
    rw [c.relative_replyPath, id.relative_route]
  rcases h.wellFormed.add_cases (c.replyPath id) (.reply c.requests.length) with
    ⟨hroot, -⟩ | ⟨-, htaken, -⟩ | ⟨-, -, root, -, hadd⟩
  · rw [hrelative] at hroot
    cases hroot
  · rw [h.get?_congr hsame, hfree] at htaken
    cases htaken
  · exact ⟨_, by unfold Client.prepareRequest; rw [hadd]; rfl⟩

theorem valid_replyPath (hc : c.identity.Valid) (hid : CorrelationId.isHyphenated id.text.toList = true) :
    ∀ segment ∈ c.replyPath id, Segment.Valid segment := by
  intro segment hsegment
  rcases List.mem_append.1 hsegment with hsegment | hsegment
  · exact hc segment hsegment
  · exact CorrelationId.valid_replySegments hid segment hsegment

end Client

namespace Bus

variable {b : Bus} {s : Nat} {asker prepared : Client} {id : CorrelationId} {d : Destination} {subject : Subject}
  {payloads : List Payload} {expected : ExpectedReplies}

/-- A request that may be sent is handed to the line, which takes it. -/
theorem request_eq_of_takes (hb : b.Sound) (hs : b.clients[s]? = some asker) (htakes : b.Takes asker.line)
    (hp : asker.prepareRequest (.of subject asker.identity d id) id expected = .ok prepared)
    (hsource : asker.identity.Valid) (hnames : ∀ name ∈ d.names, Segment.Valid name) (hsubject : subject.Valid)
    (hid : CorrelationId.isHyphenated id.text.toList = true) (hsendable : Payload.validateAll payloads = .ok ())
    {bytes : Bytes}
    (hencode : asker.encoders.standard.encode
      (Packet.mk (.rpc (.of subject asker.identity d id)) payloads).toPayload = .ok bytes) (timeoutMs : Nat) :
    ∃ b', Still (b.updateClient s fun _ => prepared) b' ∧
      let sent := (transmit (hear b.room []) s asker.line
        ⟨Topic.join (d.topicFor asker.identity subject), bytes⟩ b').2
      b.request s id d subject payloads expected timeoutMs = (.ok asker.requests.length,
        { sent.updateClient s (·.confirmRequest asker.requests.length) with
          timers := sent.timers ++ [⟨sent.clock + timeoutMs, s, asker.requests.length⟩] }) := by
  obtain ⟨hsound, -, hline, hencoders, -, -, -⟩ := (hb.clients hs).prepareRequest hp
  have hvalid : (Packet.mk (.rpc (.of subject asker.identity d id)) payloads).validate = .ok () := by
    rw [Packet.validate_rpc (RpcHeader.validate_of hsubject hsource hnames
      (CorrelationId.valid_of_isHyphenated hid).1)]
    exact hsendable
  have htopic : d.topicFor asker.identity subject ≠ [] ∧ ∀ x ∈ d.topicFor asker.identity subject, Segment.Valid x :=
    ⟨by simp [Destination.topicFor, Identity.addressed], Destination.valid_topicFor hsource hnames hsubject⟩
  rw [← hencoders] at hencode
  have hmessage := hsound.encoders.prepare_eq_ok htopic hvalid hencode
  obtain ⟨b', hstill, hpublish⟩ := publishVia_eq_send (transmit (hear b.room []) s)
    (clients_updateClient_self hs fun _ => prepared) hmessage
  have htakes' : b'.Takes asker.line := by
    have hentered : (b.updateClient s fun _ => prepared).Takes asker.line := by
      cases hasker : asker.line <;> rw [hasker] at htakes <;> exact htakes
    exact hentered.of_still hstill
  refine ⟨b', hstill, ?_⟩
  rw [hline] at hpublish
  unfold Bus.request requestVia
  simp only [hs, hp, hpublish, transmit_fst htakes', Except.mapError]
  rfl

end Bus

end Switchboard
