import Switchboard.Packet.Header
import Switchboard.Proofs.Topic.Subscription

/-!
# Headers of requests and replies

A header of a request that is made from valid parts passes the check, and names the path on which its sender waits for
replies (`RpcHeader.replyTopic_of`). The header of a reply is again such a header, from the responder to the sender
alone (`RpcHeader.replyTo_of`), so it passes the check as well. Any other request that passes the check needs more for
that: a source of at least two segments (`RpcHeader.validate_replyTo_iff`), and an id that is a segment
(`RpcHeader.valid_replyTopic_iff`).
-/

namespace Switchboard

theorem requireSegments_eq_ok_iff (l : List String) (field : String) :
    requireSegments l field = .ok () ↔ l ≠ [] ∧ ∀ s ∈ l, Segment.Valid s := by
  unfold requireSegments
  cases l with
  | nil => simp
  | cons s l => simp [Segment.validateAll_eq_ok_iff]

theorem requireText_eq_ok_iff (text field : String) : requireText text field = .ok () ↔ text ≠ "" := by
  unfold requireText
  by_cases h : text = "" <;> simp [h]

private theorem seq_eq_ok_iff {ε : Type} {first rest : Except ε Unit} :
    (first >>= fun _ => rest) = .ok () ↔ first = .ok () ∧ rest = .ok () := by
  cases first with
  | error e =>
    constructor
    · intro h
      cases h
    · rintro ⟨h, -⟩
      cases h
  | ok u => exact ⟨fun h => ⟨rfl, h⟩, fun h => h.2⟩

/-- What a header needs to pass the check. -/
theorem Header.validate_eq_ok_iff {h : Header} : h.validate = .ok () ↔
    (h.subject ≠ [] ∧ ∀ s ∈ h.subject, Segment.Valid s) ∧ (h.source ≠ [] ∧ ∀ s ∈ h.source, Segment.Valid s) ∧
      h.packetId ≠ some "" := by
  unfold validate
  rw [seq_eq_ok_iff, seq_eq_ok_iff, requireSegments_eq_ok_iff, requireSegments_eq_ok_iff]
  refine and_congr_right fun _ => and_congr_right fun _ => ?_
  cases h.packetId with
  | none => exact iff_of_true rfl nofun
  | some id =>
    rw [ne_eq, Option.some.injEq]
    exact requireText_eq_ok_iff id _

namespace RpcHeader

variable {subject : Subject} {source : Identity} {d : Destination} {id : CorrelationId}

@[simp] theorem packetId_of : (RpcHeader.of subject source d id).packetId = id.text := rfl

@[simp] theorem source_of : (RpcHeader.of subject source d id).base.source = source.address := rfl

@[simp] theorem subject_of : (RpcHeader.of subject source d id).base.subject = subject.segments := rfl

/-- What the header of a request or reply needs besides: a destination and an id. -/
theorem validate_eq_ok_iff {h : RpcHeader} : h.validate = .ok () ↔
    h.base.validate = .ok () ∧ h.destinationGroup ≠ "" ∧ h.destinationClient ≠ "" ∧ h.packetId ≠ "" := by
  unfold validate
  rw [seq_eq_ok_iff, seq_eq_ok_iff, seq_eq_ok_iff, requireText_eq_ok_iff, requireText_eq_ok_iff,
    requireText_eq_ok_iff]

/-- A header made from valid parts passes the check. -/
theorem validate_of (hsubject : subject.Valid) (hsource : source.Valid) (hd : ∀ s ∈ d.names, Segment.Valid s)
    (hid : id.text ≠ "") : (RpcHeader.of subject source d id).validate = .ok () := by
  have hbase : (RpcHeader.of subject source d id).base.validate = .ok () := by
    refine Header.validate_eq_ok_iff.2 ⟨hsubject, ⟨by simp [Identity.address, Identity.addressed], hsource⟩, ?_⟩
    intro hempty
    exact hid (Option.some.inj hempty)
  exact validate_eq_ok_iff.2 ⟨hbase, (Destination.valid_groupFor hsource hd).1,
    (Destination.valid_clientFor hsource hd).1, hid⟩

/-- The last two segments of an address are the group and the client. -/
theorem sourceGroupAndClient_of :
    (RpcHeader.of subject source d id).sourceGroupAndClient = (source.group, source.client) := by
  simp [sourceGroupAndClient, Identity.address, Identity.addressed]

/-- A request is answered on the path on which its sender waits. -/
theorem replyTopic_of :
    (RpcHeader.of subject source d id).replyTopic = source.address ++ [Segment.reply, id.text] := rfl

/-- This path may stand in a topic. -/
theorem valid_replyTopic_of (hsource : source.Valid)
    (hid : CorrelationId.isHyphenated id.text.toList = true) :
    (RpcHeader.of subject source d id).replyTopic ≠ [] ∧
      ∀ s ∈ (RpcHeader.of subject source d id).replyTopic, Segment.Valid s := by
  rw [replyTopic_of]
  refine ⟨by simp, fun s hs => ?_⟩
  rcases List.mem_append.1 hs with hs | hs
  · exact hsource s hs
  · exact CorrelationId.valid_replySegments hid s hs

/-- The header of a reply is that of a packet from the responder to the sender alone. -/
theorem replyTo_of (responder : Identity) : (RpcHeader.of subject source d id).replyTo responder =
    RpcHeader.of subject responder (.client source.group source.client) id := by
  unfold replyTo
  rw [sourceGroupAndClient_of]
  rfl

theorem validate_replyTo_of {responder : Identity} (hsubject : subject.Valid) (hsource : source.Valid)
    (hresponder : responder.Valid) (hid : id.text ≠ "") :
    ((RpcHeader.of subject source d id).replyTo responder).validate = .ok () := by
  rw [replyTo_of]
  apply validate_of hsubject hresponder _ hid
  intro s hs
  simp only [Destination.names, List.mem_cons, List.not_mem_nil, or_false] at hs
  rcases hs with rfl | rfl
  · exact hsource.group
  · exact hsource.client

/-! ### Replies to any request -/

/-- The last two segments of a source of segments are no empty texts, if there are two. -/
theorem sourceGroupAndClient_ne_iff {h : RpcHeader} (hsource : ∀ s ∈ h.base.source, Segment.Valid s) :
    h.sourceGroupAndClient.1 ≠ "" ∧ h.sourceGroupAndClient.2 ≠ "" ↔ 2 ≤ h.base.source.length := by
  have hreverse : ∀ s ∈ h.base.source.reverse, s ≠ "" := fun s hs => (hsource s (List.mem_reverse.1 hs)).1
  rw [← List.length_reverse]
  unfold sourceGroupAndClient
  generalize h.base.source.reverse = names at hreverse
  match names with
  | [] | [_] => simp
  | client :: group :: rest =>
    have hclient : client ≠ "" := hreverse client (by simp)
    have hgroup : group ≠ "" := hreverse group (by simp)
    simp [hclient, hgroup]

/-- The header of the reply to a request that passes the check passes it as well, if the responder has a valid
identity and the source of the request names a group and a client. -/
theorem validate_replyTo_iff {request : RpcHeader} (hrequest : request.validate = .ok ()) (responder : Identity) :
    (request.replyTo responder).validate = .ok () ↔ responder.Valid ∧ 2 ≤ request.base.source.length := by
  obtain ⟨hbase, -, -, hid⟩ := validate_eq_ok_iff.1 hrequest
  obtain ⟨hsubject, ⟨-, hsource⟩, hsome⟩ := Header.validate_eq_ok_iff.1 hbase
  rw [validate_eq_ok_iff, Header.validate_eq_ok_iff, ← sourceGroupAndClient_ne_iff hsource]
  constructor
  · rintro ⟨⟨-, ⟨-, hresponder⟩, -⟩, hgroup, hclient, -⟩
    exact ⟨hresponder, hgroup, hclient⟩
  · rintro ⟨hresponder, hgroup, hclient⟩
    exact ⟨⟨hsubject, ⟨by simp [replyTo, Identity.address, Identity.addressed], hresponder⟩, hsome⟩, hgroup, hclient,
      hid⟩

/-- The topic of the reply to a request that passes the check may be published on if the id of the request may stand
in a topic. -/
theorem valid_replyTopic_iff {request : RpcHeader} (hrequest : request.validate = .ok ()) :
    (∀ s ∈ request.replyTopic, Segment.Valid s) ↔ Segment.Valid request.packetId := by
  obtain ⟨hbase, -⟩ := validate_eq_ok_iff.1 hrequest
  obtain ⟨-, ⟨-, hsource⟩, -⟩ := Header.validate_eq_ok_iff.1 hbase
  simp only [replyTopic, List.forall_mem_append, List.forall_mem_cons, List.not_mem_nil, false_imp_iff, implies_true,
    and_true]
  constructor
  · rintro ⟨-, -, hid⟩
    exact hid
  · intro hid
    exact ⟨hsource, Segment.valid_reply, hid⟩

/-- The header is that of a reply of a responder to a request of an asker about a subject. -/
structure Replies (h : RpcHeader) (subject : Subject) (id : CorrelationId) (asker responder : Identity) : Prop where
  subject : h.base.subject = subject.segments
  packetId : h.packetId = id.text
  group : h.destinationGroup = asker.group
  client : h.destinationClient = asker.client
  source : h.base.source = responder.address
  valid : h.validate = .ok ()

theorem replies_replyTo_of {responder : Identity} (hsubject : subject.Valid) (hsource : source.Valid)
    (hresponder : responder.Valid) (hid : id.text ≠ "") :
    ((RpcHeader.of subject source d id).replyTo responder).Replies subject id source responder := by
  have hvalid := validate_replyTo_of (d := d) hsubject hsource hresponder hid
  rw [replyTo_of] at hvalid ⊢
  exact ⟨rfl, rfl, rfl, rfl, rfl, hvalid⟩

end RpcHeader

end Switchboard
