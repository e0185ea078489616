import Switchboard.Proofs.Delivery.Publishing
import Switchboard.Proofs.Topic.Segment

/-!
# Publishing desks

From a desk a packet goes out as one message, or it does not go out at all. It goes out exactly if the desk has
encoders and a line, and if the topic, the packet and its encoding are in order (`Publisher.Publishable`): no other
fault is found later, and none of these after the line was called. By then the borrowed encoder is back.

* (one message) `Publisher.publish_eq_send` and `Publisher.publish_eq_error`;
* (encoders) `EncoderPool.Returns`, which holds whenever an encoder was borrowed, also if it could not encode the
  packet (`EncoderPool.Reached.returns`); a pool that lends none stays as it is (`EncoderPool.prepare_eq_self`).
-/

namespace Switchboard

/-- What a line does, with a list of the messages that were handed to it. -/
def noting {σ : Type} (send : Outgoing → σ → Except TransportError Unit × σ) (message : Outgoing)
    (s : List Outgoing × σ) : Except TransportError Unit × List Outgoing × σ :=
  ((send message s.2).1, s.1 ++ [message], (send message s.2).2)

namespace EncoderPool

variable {pool pool' : EncoderPool} {topic : List String} {packet : Option Packet} {codec : Option Codec}

/-- What is left of a pool that lent one encoder of a codec, an idle one or a new one: it is back on top of the
others, if there is room, and let go if there is none. The encoders of the other codec are as they were. -/
structure Returns (c : Codec) (pool pool' : EncoderPool) : Prop where
  back : ((pool.borrow c).2.idle c).length < pool.capacity →
    pool'.idle c = (pool.borrow c).1.reset :: (pool.borrow c).2.idle c
  dropped : pool.capacity ≤ ((pool.borrow c).2.idle c).length → pool'.idle c = (pool.borrow c).2.idle c
  others : ∀ c', c' ≠ c → pool'.idle c' = pool.idle c'

theorem approve_eq_ok_iff_exists {content : Packet} : approve topic packet = .ok content ↔
    (topic ≠ [] ∧ ∀ s ∈ topic, Segment.Valid s) ∧ packet = some content ∧ content.validate = .ok () := by
  cases packet with
  | none =>
    have herror : ∃ e, approve topic none = .error e := by
      unfold approve
      split
      · exact ⟨_, rfl⟩
      · cases Segment.validateAll topic <;> exact ⟨_, rfl⟩
    obtain ⟨e, he⟩ := herror
    simp [he]
  | some given =>
    rw [approve_eq_ok_iff, Option.some.injEq]
    constructor
    · rintro ⟨htopic, hvalid, rfl⟩
      exact ⟨htopic, rfl, hvalid⟩
    · rintro ⟨htopic, rfl, hvalid⟩
      exact ⟨htopic, hvalid, rfl⟩

/-- A message is prepared exactly if the topic, the packet and its encoding are in order. -/
theorem Sound.prepare_eq_ok_iff (hpool : pool.Sound) {message : Outgoing} :
    (pool.prepare topic packet codec).1 = .ok message ↔
      (topic ≠ [] ∧ ∀ s ∈ topic, Segment.Valid s) ∧ message.topic = Topic.join topic ∧
        ∃ content, packet = some content ∧ content.validate = .ok () ∧
          (codec.getD pool.standard).encode content.toPayload = .ok message.bytes := by
  constructor
  · intro hm
    cases happroved : approve topic packet with
    | error e =>
      rw [prepare_eq_error_of_approve happroved] at hm
      cases hm
    | ok content =>
      obtain ⟨htopic, hpacket, hvalid⟩ := approve_eq_ok_iff_exists.1 happroved
      rw [prepare_eq_of_approve happroved, hpool.encode_fst] at hm
      cases hencoded : (codec.getD pool.standard).encode content.toPayload with
      | error e =>
        rw [hencoded] at hm
        cases hm
      | ok bytes =>
        rw [hencoded] at hm
        cases hm
        exact ⟨htopic, rfl, content, hpacket, hvalid, hencoded⟩
  · rintro ⟨htopic, hjoin, content, hpacket, hvalid, hencoded⟩
    rw [prepare_eq_of_approve (approve_eq_ok_iff_exists.2 ⟨htopic, hpacket, hvalid⟩), hpool.encode_fst, hencoded]
    change Except.ok (⟨Topic.join topic, message.bytes⟩ : Outgoing) = .ok message
    rw [← hjoin]

/-- Whether the packet could be encoded or not, the encoder that was borrowed for it is back. -/
theorem Reached.returns (hpool : pool.Reached) {content : Packet} (h : approve topic packet = .ok content)
    (codec : Option Codec) : Returns (codec.getD pool.standard) pool (pool.prepare topic packet codec).2 := by
  rw [prepare_eq_of_approve h]
  generalize codec.getD pool.standard = c
  have hidle := hpool.sound.idle_encode c content.toPayload
  refine ⟨fun hroom => ?_, fun hfull => ?_, fun c' hc' => ?_⟩
  · exact (hidle c).trans (if_pos ⟨rfl, hroom⟩)
  · exact (hidle c).trans (if_neg fun h => absurd h.2 (Nat.not_lt.2 hfull))
  · rw [hidle c', if_neg fun h => hc' h.1, idle_borrow, if_neg hc']

/-- A pool lends no encoder for what may not be published. -/
theorem prepare_eq_self {e : ValidationError} (h : approve topic packet = .error e) (pool : EncoderPool)
    (codec : Option Codec) : (pool.prepare topic packet codec).2 = pool := by
  unfold prepare
  rw [h]

/-- A preparation leaves no fewer idle encoders behind. -/
theorem Reached.length_idle_prepare (hpool : pool.Reached) (topic : List String) (packet : Option Packet)
    (codec : Option Codec) (c : Codec) :
    (pool.idle c).length ≤ ((pool.prepare topic packet codec).2.idle c).length := by
  cases happroved : approve topic packet with
  | error e => exact Nat.le_of_eq (by rw [prepare_eq_self happroved])
  | ok content =>
    rw [prepare_eq_of_approve happroved]
    exact hpool.bounded.length_idle_encode hpool.sound _ _ c

end EncoderPool

namespace Publisher

variable {p : Publisher} {topic : List String} {packet : Option Packet} {codec : Option Codec} {message : Outgoing}

/-- All is in order for publishing, and this is the message: it has the topic, and the bytes that a new encoder makes
of the packet. -/
structure Publishable (p : Publisher) (topic : List String) (packet : Option Packet) (codec : Option Codec)
    (message : Outgoing) : Prop where
  hasLine : p.hasLine = true
  segments : topic ≠ [] ∧ ∀ s ∈ topic, Segment.Valid s
  joined : message.topic = Topic.join topic
  encoded : ∃ pool content, p.encoders = some pool ∧ packet = some content ∧ content.validate = .ok () ∧
    ∀ serial, ((⟨serial, codec.getD pool.standard, []⟩ : Encoder).encode content.toPayload).1 = .ok message.bytes

/-- An encoder is borrowed for a packet: the desk has a line, and the topic and the packet are in order. Whether the
packet can be encoded is seen only then. -/
structure Lends (p : Publisher) (topic : List String) (packet : Option Packet) : Prop where
  hasLine : p.hasLine = true
  segments : topic ≠ [] ∧ ∀ s ∈ topic, Segment.Valid s
  content : ∃ content, packet = some content ∧ content.validate = .ok ()

/-- What has become of the encoders of a desk: if one was borrowed it has returned, and if none was they are
untouched. In no case are there fewer idle ones of either codec. -/
structure Settled (p : Publisher) (topic : List String) (packet : Option Packet) (codec : Codec)
    (pool pool' : EncoderPool) : Prop where
  lent : p.Lends topic packet → EncoderPool.Returns codec pool pool'
  kept : ¬p.Lends topic packet → pool' = pool
  length_le : ∀ c, (pool.idle c).length ≤ (pool'.idle c).length

theorem Lends.exists_approve (h : p.Lends topic packet) :
    ∃ content, EncoderPool.approve topic packet = .ok content := by
  obtain ⟨content, hpacket, hvalid⟩ := h.content
  exact ⟨content, EncoderPool.approve_eq_ok_iff_exists.2 ⟨h.segments, hpacket, hvalid⟩⟩

theorem exists_error_of_not_lends (hline : p.hasLine = true) (h : ¬p.Lends topic packet) :
    ∃ e, EncoderPool.approve topic packet = .error e := by
  cases happroved : EncoderPool.approve topic packet with
  | error e => exact ⟨e, rfl⟩
  | ok content =>
    obtain ⟨htopic, hcontent⟩ := EncoderPool.approve_eq_ok_iff_exists.1 happroved
    exact absurd ⟨hline, htopic, content, hcontent⟩ h

/-- A desk prepares a message exactly if all is in order. -/
theorem prepare_eq_ok_iff (hp : ∀ pool, p.encoders = some pool → pool.Sound) :
    (p.prepare topic packet codec).1 = .ok message ↔ p.Publishable topic packet codec message := by
  unfold prepare
  cases hencoders : p.encoders with
  | none =>
    refine ⟨nofun, fun h => ?_⟩
    obtain ⟨pool, -, hpool, -⟩ := h.encoded
    rw [hencoders] at hpool
    cases hpool
  | some pool =>
    by_cases hline : p.hasLine = true
    · simp only [hline, if_true]
      rw [(hp pool hencoders).prepare_eq_ok_iff]
      constructor
      · rintro ⟨htopic, hjoin, content, hpacket, hvalid, hencoded⟩
        exact ⟨hline, htopic, hjoin, pool, content, hencoders, hpacket, hvalid,
          fun serial => (EncoderPool.fst_encode _ _).trans hencoded⟩
      · rintro ⟨-, htopic, hjoin, pool', content, hpool', hpacket, hvalid, hencoded⟩
        obtain rfl : pool = pool' := Option.some.inj (hencoders.symm.trans hpool')
        exact ⟨htopic, hjoin, content, hpacket, hvalid, (EncoderPool.fst_encode _ _).symm.trans (hencoded 0)⟩
    · simp only [hline, Bool.false_eq_true, if_false]
      exact ⟨nofun, fun h => absurd h.hasLine hline⟩

/-- A desk borrows an encoder exactly if it has a line and the topic and the packet are in order: then it returns. -/
theorem prepare_returns (hp : ∀ pool, p.encoders = some pool → pool.Reached) (topic : List String)
    (packet : Option Packet) (codec : Option Codec) :
    (p.prepare topic packet codec).2.encoders.isSome = p.encoders.isSome ∧
      ∀ pool pool', p.encoders = some pool → (p.prepare topic packet codec).2.encoders = some pool' →
        p.Settled topic packet (codec.getD pool.standard) pool pool' := by
  unfold prepare
  cases hencoders : p.encoders with
  | none => exact ⟨by rw [hencoders], nofun⟩
  | some pool =>
    by_cases hline : p.hasLine = true
    · simp only [hline, if_true]
      refine ⟨rfl, ?_⟩
      rintro _ _ ⟨⟩ ⟨⟩
      refine ⟨fun hlends => ?_, fun hlends => ?_, (hp pool hencoders).length_idle_prepare topic packet codec⟩
      · obtain ⟨content, hcontent⟩ := hlends.exists_approve
        exact (hp pool hencoders).returns hcontent codec
      · obtain ⟨e, he⟩ := exists_error_of_not_lends hline hlends
        exact EncoderPool.prepare_eq_self he pool codec
    · simp only [hline, Bool.false_eq_true, if_false]
      refine ⟨by rw [hencoders], ?_⟩
      intro pool₁ pool₂ h₁ h₂
      cases h₁
      cases hencoders.symm.trans h₂
      exact ⟨fun hlends => absurd hlends.hasLine hline, fun _ => rfl, fun _ => Nat.le_refl _⟩

section Publish

variable {σ : Type} (send : Outgoing → σ → Except TransportError Unit × σ)

/-- A message that was prepared is handed to the line once, and what comes of it is reported. -/
theorem publish_eq_send (hm : (p.prepare topic packet codec).1 = .ok message) (s : σ) :
    p.publish send topic packet codec s =
      ((send message s).1.mapError .transport, (p.prepare topic packet codec).2, (send message s).2) := by
  unfold publish
  generalize p.prepare topic packet codec = prepared at hm
  obtain ⟨result, desk⟩ := prepared
  obtain rfl : result = .ok message := hm
  simp only
  generalize send message s = sent
  obtain ⟨verdict, s'⟩ := sent
  cases verdict <;> rfl

/-- What could not be prepared is not handed to the line. -/
theorem publish_eq_error {e : BusError} (hm : (p.prepare topic packet codec).1 = .error e) (s : σ) :
    p.publish send topic packet codec s = (.error e, (p.prepare topic packet codec).2, s) := by
  unfold publish
  generalize p.prepare topic packet codec = prepared at hm
  obtain ⟨result, desk⟩ := prepared
  obtain rfl : result = .error e := hm
  rfl

end Publish

end Publisher

/-- A topic made of segments comes apart into them, and none of them means anything to a filter. -/
theorem Segment.split_join_of_valid {topic : List String} (h : ∀ s ∈ topic, Segment.Valid s) :
    Topic.split (Topic.join topic) = topic ∧ Filter.anyOne ∉ topic ∧ Filter.anyRest ∉ topic :=
  ⟨Topic.split_join h, fun hmem => (h _ hmem).ne_anyOne rfl, fun hmem => (h _ hmem).ne_anyRest rfl⟩

/-- The desk of a client. -/
def Client.desk (c : Client) : Publisher := ⟨some c.encoders, true⟩

/-- What a client publishes goes out from its desk, and by the time the line is called the desk is as it will be. -/
theorem Client.publishVia_eq {b : Bus} {client : Nat} {c : Client} (hc : b.clients[client]? = some c)
    (send : Bus.Sending) (topic : List String) (packet : Option Packet) (codec : Option Codec) :
    ∃ pool, (c.desk.prepare topic packet codec).2.encoders = some pool ∧
      let handed := b.updateClient client fun c => { c with encoders := pool }
      (∀ message, (c.desk.prepare topic packet codec).1 = .ok message →
        Bus.publishVia send client topic packet codec b =
          ((send c.line message handed).1.mapError .transport, (send c.line message handed).2)) ∧
      ∀ e, (c.desk.prepare topic packet codec).1 = .error e →
        Bus.publishVia send client topic packet codec b = (.error e, handed) :=
  ⟨_, rfl, Bus.publishVia_eq send hc topic packet codec⟩

namespace Publisher

/-- From a desk a packet goes out if all is in order: then the line is called once, with a message whose topic comes
apart into the segments and whose bytes are those of a new encoder. Otherwise the line is not called. Either way the
encoder that was borrowed is back, also before the line is called. -/
theorem published_once_or_refused {σ : Type} (p : Publisher)
    (hp : ∀ pool, p.encoders = some pool → pool.Reached) (topic : List String) (packet : Option Packet)
    (codec : Option Codec) (send : Outgoing → σ → Except TransportError Unit × σ) (s : σ) :
    let published := p.publish (noting send) topic packet codec ([], s)
    (∀ message, p.Publishable topic packet codec message →
      published.2.2 = ([message], (send message s).2) ∧ published.1 = (send message s).1.mapError .transport ∧
        Topic.split message.topic = topic ∧ Filter.anyOne ∉ topic ∧ Filter.anyRest ∉ topic) ∧
    ((∀ message, ¬p.Publishable topic packet codec message) →
      (∃ e, published.1 = .error e) ∧ published.2.2 = ([], s)) ∧
    (published.2.1.encoders.isSome = p.encoders.isSome ∧
      ∀ pool pool', p.encoders = some pool → published.2.1.encoders = some pool' →
        p.Settled topic packet (codec.getD pool.standard) pool pool') ∧
    ∀ (b : Bus) (client : Nat) (c : Client) (via : Bus.Sending), b.clients[client]? = some c → c.desk = p →
      ∃ pool', published.2.1.encoders = some pool' ∧
        let handed := b.updateClient client fun c => { c with encoders := pool' }
        (∀ message, p.Publishable topic packet codec message →
          Bus.publishVia via client topic packet codec b =
            ((via c.line message handed).1.mapError .transport, (via c.line message handed).2)) ∧
        ((∀ message, ¬p.Publishable topic packet codec message) →
          ∃ e, Bus.publishVia via client topic packet codec b = (.error e, handed)) := by
  intro published
  have hprepared : ∀ message, (p.prepare topic packet codec).1 = .ok message ↔
      p.Publishable topic packet codec message :=
    fun message => prepare_eq_ok_iff fun pool hpool => (hp pool hpool).sound
  have hrefused : (∀ message, ¬p.Publishable topic packet codec message) →
      ∃ e, (p.prepare topic packet codec).1 = .error e := by
    intro hnone
    cases hm : (p.prepare topic packet codec).1 with
    | error e => exact ⟨e, rfl⟩
    | ok message => exact absurd ((hprepared message).1 hm) (hnone message)
  have hdesk : published.2.1 = (p.prepare topic packet codec).2 := by
    cases hm : (p.prepare topic packet codec).1 with
    | error e => exact congrArg (·.2.1) (publish_eq_error (noting send) hm ([], s))
    | ok message => exact congrArg (·.2.1) (publish_eq_send (noting send) hm ([], s))
  obtain ⟨hsome, hreturns⟩ := prepare_returns hp topic packet codec
  rw [hdesk]
  refine ⟨fun message hmessage => ?_, fun hnone => ?_, ⟨hsome, hreturns⟩, ?_⟩
  · have hsent := publish_eq_send (noting send) ((hprepared message).2 hmessage) ([], s)
    refine ⟨congrArg (·.2.2) hsent, congrArg (·.1) hsent, ?_⟩
    rw [hmessage.joined]
    exact Segment.split_join_of_valid hmessage.segments.2
  · obtain ⟨e, he⟩ := hrefused hnone
    have hfailed := publish_eq_error (noting send) he ([], s)
    exact ⟨⟨e, congrArg (·.1) hfailed⟩, congrArg (·.2.2) hfailed⟩
  · rintro b client c via hc rfl
    obtain ⟨pool', hpool', hsent, hfailed⟩ := Client.publishVia_eq hc via topic packet codec
    refine ⟨pool', hpool', fun message hmessage => hsent message ((hprepared message).2 hmessage), fun hnone => ?_⟩
    obtain ⟨e, he⟩ := hrefused hnone
    exact ⟨e, hfailed e he⟩

/-- A desk with two encoders that were used before, and with a line. -/
private def usedDesk : Publisher :=
  ⟨some ((EncoderPool.empty .standard .messagePack 2).useAll
    [.release ⟨7, .messagePack, [1]⟩, .release ⟨8, .messagePack, []⟩]), true⟩

private def levelPacket : Packet := ⟨.plain ⟨["level"], ["demo"], some "7"⟩, [.integer 40]⟩

/-- A packet with a level that JSON has no number for. -/
private def overflowPacket : Packet := ⟨.plain ⟨["level"], ["demo"], some "8"⟩, [.double (.infinity false)]⟩

/-- From a desk in use a packet goes out. One that cannot be encoded does not go out, and the encoder that was made
for it returns all the same. -/
theorem published_once_from_used_desk :
    (∃ message : Outgoing, message.topic = "demo.plant.level" ∧
      (usedDesk.publish (noting fun _ s => (.ok (), s)) ["demo", "plant", "level"] (some levelPacket) none
        ([], ())).2.2.1 = [message]) ∧
    let refused := usedDesk.publish (noting fun _ s => (.ok (), s)) ["demo", "plant", "level"] (some overflowPacket)
      (some .json) ([], ())
    refused.2.2.1 = [] ∧ refused.2.1.encoders.map (·.idle .json) = some [⟨0, .json, []⟩] := by
  have hreached : ∀ pool, usedDesk.encoders = some pool → pool.Reached := by
    rintro _ ⟨⟩
    exact ⟨.standard, .messagePack, 2, _, rfl⟩
  have hsegments := (Segment.validateAll_eq_ok_iff ["demo", "plant", "level"]).1 rfl
  constructor
  · obtain ⟨hsent, -⟩ := published_once_or_refused usedDesk hreached ["demo", "plant", "level"] (some levelPacket)
      none (fun _ s => (.ok (), s)) ()
    have hready : ∃ message : Outgoing, message.topic = "demo.plant.level" ∧
        usedDesk.Publishable ["demo", "plant", "level"] (some levelPacket) none message :=
      ⟨⟨_, _⟩, rfl, rfl, ⟨by simp, hsegments⟩, rfl, _, levelPacket, rfl, rfl, rfl, fun _ => rfl⟩
    obtain ⟨message, htopic, hready⟩ := hready
    exact ⟨message, htopic, congrArg (·.1) (hsent message hready).1⟩
  · obtain ⟨-, hrefused, ⟨hsome, hsettled⟩, -⟩ := published_once_or_refused usedDesk hreached
      ["demo", "plant", "level"] (some overflowPacket) (some .json) (fun _ s => (.ok (), s)) ()
    have hunready : ∀ message,
        ¬usedDesk.Publishable ["demo", "plant", "level"] (some overflowPacket) (some .json) message := by
      rintro message ⟨-, -, -, pool, content, -, hcontent, -, hbytes⟩
      obtain rfl := Option.some.inj hcontent
      have hencoded : ((⟨0, .json, []⟩ : Encoder).encode overflowPacket.toPayload).1 =
        .error (.invalidField "value" (.notFinite (.infinity false))) := by rfl
      cases hencoded.symm.trans (hbytes 0)
    obtain ⟨pool', hpool'⟩ := Option.isSome_iff_exists.1 hsome
    have hlends : usedDesk.Lends ["demo", "plant", "level"] (some overflowPacket) :=
      ⟨rfl, ⟨by simp, hsegments⟩, overflowPacket, rfl, rfl⟩
    refine ⟨congrArg (·.1) (hrefused hunready).2, ?_⟩
    rw [hpool']
    exact congrArg some (((hsettled _ pool' rfl hpool').lent hlends).back (by decide))

end Publisher

end Switchboard
