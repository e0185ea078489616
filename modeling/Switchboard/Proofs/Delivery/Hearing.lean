import Switchboard.Proofs.Delivery.Gathering
import Switchboard.Proofs.Delivery.Publishing

/-!
# What is heard

Whatever happens when a client hears a message follows from the messages that are handled: the first, the answers to
it, the answers to these, and so on. So a relation between requests that holds whenever one of these messages is
counted holds between the requests before and after (`Bus.Counting.hear`).
-/

namespace Switchboard

/-- The message may be an answer to another one: it carries a reply to the request in it, on the topic that the
request names. Who answers, and with what, is left open. -/
def Outgoing.Answers (answer message : Outgoing) : Prop :=
  ∃ (c : Codec) (types : TypeRegistry) (request : RpcHeader) (payloads : List Payload),
    c.decode types message.bytes = .ok (.packet (.rpc request) payloads) ∧
      answer.topic = Topic.join request.replyTopic ∧
      ∃ (c' : Codec) (responder : Identity) (replies : List Payload),
        c'.encode (.packet (.rpc (request.replyTo responder)) replies) = .ok answer.bytes

/-- The message carries a packet on a topic. -/
def Outgoing.Carries (message : Outgoing) (topic : List String) (packet : Packet) : Prop :=
  message.topic = Topic.join topic ∧ ∃ c : Codec, c.encode packet.toPayload = .ok message.bytes

theorem EncoderPool.carries_of_prepare {pool : EncoderPool} {topic : List String} {packet : Option Packet}
    {codec : Option Codec} {message : Outgoing} (h : (pool.prepare topic packet codec).1 = .ok message) :
    ∃ p, packet = some p ∧ message.Carries topic p := by
  unfold prepare at h
  split at h
  · cases h
  · rename_i approved happroved
    have hpacket : packet = some approved := by
      unfold approve at happroved
      split at happroved
      · cases happroved
      · simp only [bind, Except.bind] at happroved
        split at happroved
        · cases happroved
        · split at happroved
          · cases happroved
          · split at happroved
            · cases happroved
            · cases happroved
              rfl
    split at h
    · cases h
    · rename_i bytes pool' hencoded
      cases h
      refine ⟨approved, hpacket, rfl, (pool.borrow (codec.getD pool.standard)).1.codec, ?_⟩
      have hfst := congrArg Prod.fst hencoded
      unfold EncoderPool.encode Encoder.encode at hfst
      simp only at hfst
      cases hbytes : (pool.borrow (codec.getD pool.standard)).1.codec.encode approved.toPayload with
      | error e =>
        rw [hbytes] at hfst
        cases hfst
      | ok bytes' =>
        rw [hbytes] at hfst
        exact hfst

namespace Bus

variable {ρ : RequestChange} {P : Outgoing → Prop} {b₀ b b' : Bus} {message : Outgoing}

/-! ### Passing messages on -/

/-- Handing a message to listeners, each of which hears it. -/
theorem Changed.deliver {hear : Hearing} (hhear : ∀ j b, Changed ρ b₀ b → Changed ρ b₀ (hear j message b))
    (listeners : List Listener) (h : Changed ρ b₀ b) : Changed ρ b₀ (Bus.deliver hear message listeners b) := by
  induction listeners generalizing b with
  | nil => exact h
  | cons listener rest ih =>
    cases listener with
    | tap => exact ih (h.trans_none (changed_record b _))
    | client j => exact ih (hhear j b h)

theorem Changed.transmitFrom {hear : Hearing} (hhear : ∀ j b, Changed ρ b₀ b → Changed ρ b₀ (hear j message b))
    (endpoint : Nat) (h : Changed ρ b₀ b) : Changed ρ b₀ (Bus.transmitFrom hear endpoint message b).2 := by
  unfold Bus.transmitFrom
  split
  · exact h
  · exact h.deliver hhear _

theorem Changed.transmit {hear : Hearing} (hhear : ∀ j b, Changed ρ b₀ b → Changed ρ b₀ (hear j message b))
    (client : Nat) (line : Line) (h : Changed ρ b₀ b) :
    Changed ρ b₀ (Bus.transmit hear client line message b).2 := by
  cases line with
  | endpoint id => exact h.transmitFrom hhear id
  | tape refusing => exact h.trans_none (changed_record b _)

/-- Publishing a packet, the message with which is heard. -/
theorem Changed.publishBy {hear : Hearing}
    (hhear : ∀ message, P message → ∀ j b, Changed ρ b₀ b → Changed ρ b₀ (hear j message b)) (client : Nat)
    {topic : List String} {packet : Option Packet} (codec : Option Codec)
    (hP : ∀ p message, packet = some p → message.Carries topic p → P message) (h : Changed ρ b₀ b) :
    Changed ρ b₀ (Bus.publishBy hear client topic packet codec b).2 := by
  unfold Bus.publishBy
  cases hc : b.clients[client]? with
  | none =>
    unfold publishVia
    simp only [hc]
    exact h
  | some c =>
    cases hm : (c.encoders.prepare topic packet codec).1 with
    | error e =>
      obtain ⟨b', hstill, hpublish⟩ := publishVia_eq_error (Bus.transmit hear client) hc hm
      rw [hpublish]
      exact h.trans_none hstill.changed
    | ok message =>
      obtain ⟨b', hstill, hpublish⟩ := publishVia_eq_send (Bus.transmit hear client) hc hm
      obtain ⟨p, hp, hcarries⟩ := EncoderPool.carries_of_prepare hm
      rw [hpublish]
      exact (h.trans_none hstill.changed).transmit (hhear message (hP p message hp hcarries)) client c.line

/-! ### Handling -/

/-- What may be counted from a bus: messages with a property, to which the answers have it too, and a relation that
holds whenever such a message is counted where its topic leads. -/
structure Counting (ρ : RequestChange) (P : Outgoing → Prop) (b₀ : Bus) : Prop where
  refl : ∀ j k r, ρ j k r r
  trans : ∀ j k r r' r'', ρ j k r r' → ρ j k r' r'' → ρ j k r r''
  answers : ∀ {message answer : Outgoing}, P message → answer.Answers message → P answer
  counts : ∀ {j k : Nat} {c : Client} {message : Outgoing}, b₀.clients[j]? = some c →
    c.tree.get? (Topic.split message.topic) = some (.reply k) → P message →
      ∀ r packet, ρ j k r (r.count packet)

/-- The errors of a packet change nothing if handling them does not. -/
theorem Changed.execute {x : Executor Bus} {decoded : Option Payload} (h : Changed ρ b₀ b)
    (herrors : ∀ packet errors, Changed ρ b₀ (x.handleErrors packet errors b))
    (hpayloads : ∀ packet, decoded.bind Packet.ofPayload? = some packet → ∀ b, Changed ρ b₀ b →
      Changed ρ b₀ (x.handlePayloads packet packet.others b).2) : Changed ρ b₀ (x.execute decoded b).2 := by
  rw [Executor.execute_snd]
  cases hpacket : decoded.bind Packet.ofPayload? with
  | none => exact h
  | some packet =>
    simp only
    apply hpayloads packet hpacket
    split
    · exact h
    · exact herrors packet packet.errors

namespace Counting

theorem replyExecutor (hcount : Counting ρ P b₀) {client serial : Nat} {c : Client}
    (hc : b₀.clients[client]? = some c) (hroute : c.tree.get? (Topic.split message.topic) = some (.reply serial))
    (hP : P message) (decoded : Option Payload) (h : Changed ρ b₀ b) :
    Changed ρ b₀ ((Bus.replyExecutor client serial).execute decoded b).2 := by
  refine h.trans hcount.trans ((changed_replyExecutor client serial decoded b).mono fun j k r r' hr => ?_)
  rw [show r' = _ from hr]
  split
  · rename_i hjk
    rw [hjk.1, hjk.2]
    cases decoded.bind Packet.ofPayload? with
    | none => exact hcount.refl _ _ _
    | some packet => exact hcount.counts hc hroute hP r packet
  · exact hcount.refl _ _ _

theorem requestExecutor {hear : Hearing} (hcount : Counting ρ P b₀)
    (hhear : ∀ message, P message → ∀ j b, Changed ρ b₀ b → Changed ρ b₀ (hear j message b)) (hP : P message)
    (scopes : Scopes) (client : Nat) (responder : Identity) (subject : Subject) (handler : RequestHandler)
    {decoded : Option Payload} (hdecoded : ∀ p ∈ decoded, ∃ (c : Codec) (types : TypeRegistry),
      c.decode types message.bytes = .ok p) (h : Changed ρ b₀ b) :
    Changed ρ b₀ ((Bus.requestExecutor hear scopes client responder subject handler).execute decoded b).2 := by
  apply h.execute
  · intro packet errors
    exact h.trans_none (still_logErrors b _ _ _ _).changed
  · intro packet hpacket b₁ h₁
    obtain ⟨p, hp, hofPayload⟩ := Option.bind_eq_some_iff.1 hpacket
    obtain ⟨c, types, hdecode⟩ := hdecoded p hp
    cases haccept : RequestHandler.accept subject packet with
    | error e =>
      simp only [Bus.requestExecutor, haccept]
      exact h₁
    | ok request =>
      -- the request stands in the packet, so the reply answers the message
      have hrequest : p = .packet (.rpc request) packet.payloads := by
        unfold RequestHandler.accept at haccept
        split at haccept
        · cases haccept
        · rename_i header hheader
          split at haccept
          · cases haccept
          · cases haccept
            cases p <;> cases hofPayload
            simp only at hheader
            rw [hheader]
      rw [hrequest] at hdecode
      have hreply : ∀ replies p' message', some (RequestHandler.replyPacket responder request replies) = some p' →
          Outgoing.Carries message' request.replyTopic p' → P message' := by
        intro replies p' message' hp' hcarries
        cases hp'
        obtain ⟨htopic, c', hencode⟩ := hcarries
        exact hcount.answers hP ⟨c, types, request, packet.payloads, hdecode, htopic, c', responder, replies, hencode⟩
      obtain ⟨b₂, hstill, -, hhandled⟩ := handlePayloads_request hear scopes client responder subject handler haccept
        packet.others b₁
      rw [hhandled]
      exact (h₁.trans_none hstill.changed).publishBy hhear client none (hreply _)

end Counting

theorem Changed.notificationExecutor (scopes : Scopes) (client : Nat) (subject : Subject)
    (handler : NotificationHandler) (decoded : Option Payload) (h : Changed ρ b₀ b) :
    Changed ρ b₀ ((Bus.notificationExecutor scopes client subject handler).execute decoded b).2 := by
  apply h.execute
  · intro packet errors
    exact h.trans_none (still_logErrors b _ _ _ _).changed
  · intro packet _ b₁ h₁
    exact h₁.trans_none (changed_record b₁ _)

/-! ### Hearing -/

theorem still_decodeFor (scopes : Scopes) {client : Nat} {c : Client} (hc : b.clients[client]? = some c)
    (message : Outgoing) : Still b (decodeFor scopes client c message b).2 := by
  have hdesk := c.encoders.sameDesk_decodeDetected message.bytes
  have hencoders := still_updateEncoders hc hdesk
  unfold decodeFor
  cases hdecoded : (c.encoders.decodeDetected message.bytes).1 with
  | ok p =>
    simp only [hdecoded]
    exact hencoders
  | error e =>
    simp only [hdecoded]
    exact hencoders.trans (still_log _ _ _ _ _)

theorem decodeFor_fst (scopes : Scopes) (client : Nat) (c : Client) (message : Outgoing) (b : Bus) :
    (decodeFor scopes client c message b).1 = (c.encoders.decodeDetected message.bytes).1.toOption := by
  unfold decodeFor
  cases hdecoded : (c.encoders.decodeDetected message.bytes).1 <;> simp only [hdecoded] <;> rfl

/-- What went wrong is logged. -/
theorem still_logFailures (b : Bus) (scope : Option Identity) (topic kind : String) (errors : List ExecutionError) :
    Still b (errors.foldl (fun b e => b.log scope .warn "inbound message failed"
      [("topic", topic), ("route", kind), ("code", e.code), ("error", e.message)]) b) := by
  induction errors generalizing b with
  | nil => exact .refl b
  | cons e r ih => exact (still_log b _ _ _ _).trans (ih _)

theorem Counting.dispatchBy {hear : Scopes → Hearing} (hcount : Counting ρ P b₀)
    (hhear : ∀ scopes message, P message → ∀ j b, Changed ρ b₀ b → Changed ρ b₀ (hear scopes j message b))
    (hP : P message) (others : Scopes) (client : Nat) (h : Changed ρ b₀ b) :
    Changed ρ b₀ (Bus.dispatchBy hear others client message b).2 := by
  unfold Bus.dispatchBy
  cases hc : b.clients[client]? with
  | none => exact h
  | some c =>
    simp only
    cases hroute : c.tree.get? (Topic.split message.topic) with
    | none => exact h
    | some route =>
      simp only
      obtain ⟨c₀, hc₀, hchanged⟩ := h.exists_before hc
      have hdecode := h.trans_none (still_decodeFor (others.enter client c.identity) hc message).changed
      have hdecoded : ∀ p ∈ (decodeFor (others.enter client c.identity) client c message b).1,
          ∃ (codec : Codec) (types : TypeRegistry), codec.decode types message.bytes = .ok p := by
        intro p hp
        rw [decodeFor_fst] at hp
        obtain ⟨codec, hcodec⟩ := c.encoders.exists_decode_of_decodeDetected message.bytes
        rw [hcodec] at hp
        cases hresult : codec.decode c.encoders.types message.bytes with
        | error e =>
          rw [hresult] at hp
          cases hp
        | ok p' =>
          rw [hresult] at hp
          cases hp
          exact ⟨codec, _, hresult⟩
      refine Changed.trans_none ?_ (still_logFailures _ _ _ _ _).changed
      cases route with
      | reply serial =>
        rw [hchanged.tree] at hroute
        exact hcount.replyExecutor hc₀ hroute hP _ hdecode
      | request subject handler => exact hcount.requestExecutor (hhear _) hP _ _ _ _ _ hdecoded hdecode
      | notification subject handler => exact hdecode.notificationExecutor _ _ _ _ _

/-- Whatever happens when a client hears a message follows from messages with the property. -/
theorem Counting.hear (hcount : Counting ρ P b₀) (room : Nat) (others : Scopes) (message : Outgoing) (hP : P message)
    (client : Nat) (b : Bus) (h : Changed ρ b₀ b) : Changed ρ b₀ (Bus.hear room others client message b) := by
  induction room generalizing others message client b with
  | zero => exact h
  | succ room ih =>
    unfold Bus.hear
    split
    · exact hcount.dispatchBy (fun scopes message hP j b h => ih scopes message hP j b h) hP others client h
    · exact h

/-! ### Where a message leads -/

/-- What is on its way to a client without a route for it, or to a client that has been forgotten, is lost. -/
theorem hear_eq_self {client : Nat} (h : ∀ c, b.clients[client]? = some c → c.present = true →
    c.tree.get? (Topic.split message.topic) = none) (room : Nat) (others : Scopes) :
    Bus.hear room others client message b = b := by
  cases room with
  | zero => rfl
  | succ room =>
    unfold Bus.hear Bus.dispatchBy
    cases hc : b.clients[client]? with
    | none => rfl
    | some c =>
      cases hpresent : c.present with
      | false => simp [hpresent]
      | true => simp [hpresent, h c hc hpresent]

/-- What reaches a client goes to the executor of the route that it leads to. -/
theorem hear_of_route {client : Nat} {c : Client} (hc : b.clients[client]? = some c) (hpresent : c.present = true)
    {route : Route} (hroute : c.tree.get? (Topic.split message.topic) = some route) (room : Nat) (others : Scopes) :
    ∃ scopes b₁, Still b b₁ ∧ Still ((executorBy (Bus.hear room scopes) scopes client c.identity route).execute
      (c.encoders.decodeDetected message.bytes).1.toOption b₁).2 (Bus.hear (room + 1) others client message b) := by
  refine ⟨others.enter client c.identity, _, still_decodeFor (others.enter client c.identity) hc message, ?_⟩
  rw [← decodeFor_fst (others.enter client c.identity) client c message b]
  unfold Bus.hear
  rw [hc, Option.any_some, hpresent, if_pos rfl]
  unfold Bus.dispatchBy
  simp only [hc, hroute]
  exact still_logFailures _ _ _ _ _

end Bus

end Switchboard
