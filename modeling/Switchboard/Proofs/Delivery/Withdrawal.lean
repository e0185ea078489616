import Switchboard.Proofs.Delivery.LikenessRun
import Switchboard.Proofs.Delivery.Routes

/-!
# Requests that cannot be made

Before a request is published it is entered, and its route is attached. If it cannot be published all of this is taken
back: what is left is a note of it, and encoders that were used. So nobody can tell later whether it was tried
(`Bus.refused_request_leaves_no_trace`).

That is said of all lines that do not deliver what they refuse (`Bus.Sending.Inert`), as those of the bus are
(`Bus.inert_transmit`).
-/

namespace Switchboard

/-- The event reaches nobody: it is a line in the log, or a message on a tape. -/
def BusEvent.IsNoted : BusEvent → Prop
  | .logged _ | .taped _ _ => True
  | _ => False

/-- What was entered is taken back, but for the encoders that were used. -/
theorem Client.Sound.withdrawRequest_prepared {c prepared : Client} (hc : c.Sound) (hpruned : c.tree.Pruned)
    {header : RpcHeader} {id : CorrelationId} {expected : ExpectedReplies}
    (hp : c.prepareRequest header id expected = .ok prepared) (pool : EncoderPool) :
    ({ prepared with encoders := pool } : Client).withdrawRequest c.requests.length id =
      { c with encoders := pool } := by
  have hroutes : prepared.SameRoutes { prepared with encoders := pool } := ⟨rfl, rfl, rfl⟩
  have htree := (hc.sameRoutes_withdraw hpruned hp hroutes).tree
  obtain ⟨tree, -, rfl⟩ := Client.exists_tree_of_prepareRequest hp
  unfold Client.withdrawRequest Client.detachRequest at htree ⊢
  simp only at htree ⊢
  rw [htree, List.eraseIdx_append_of_length_le (Nat.le_refl _)]
  simp

namespace Bus

variable {b b' : Bus} {client : Nat} {c : Client} {topic : List String} {packet : Option Packet}
  {codec : Option Codec}

/-- A line that refuses a message has passed it on to nobody, though it may have made a note of it. -/
def Sending.Inert (send : Sending) : Prop :=
  ∀ ⦃line : Line⦄ ⦃message : Outgoing⦄ ⦃b : Bus⦄ ⦃e : TransportError⦄, (send line message b).1 = .error e →
    ∃ l, (send line message b).2 = { b with events := b.events ++ l } ∧ ∀ event ∈ l, event.IsNoted

/-- The lines of the bus refuse a message before they pass it on. -/
theorem inert_transmit (hear : Hearing) (client : Nat) : Sending.Inert (transmit hear client) := by
  intro line message b e herror
  cases line with
  | tape refusing => exact ⟨[.taped client message], rfl, by simp [BusEvent.IsNoted]⟩
  | endpoint id =>
    refine ⟨[], ?_, by simp⟩
    unfold transmit transmitFrom at herror ⊢
    simp only [List.append_nil] at herror ⊢
    cases hpublish : b.broker.publish id message.topic with
    | error e' => rfl
    | ok listeners =>
      rw [hpublish] at herror
      cases herror

/-! ### Publishing in vain -/

/-- What could not be published has been passed on to nobody. -/
theorem publishVia_of_error {send : Sending} (hsend : send.Inert) (hc : b.clients[client]? = some c) {err : BusError}
    (hfail : (publishVia send client topic packet codec b).1 = .error err) :
    ∃ pool l, c.encoders.SameDesk pool ∧ (∀ event ∈ l, event.IsNoted) ∧
      (publishVia send client topic packet codec b).2 =
        { b.updateClient client (fun c => { c with encoders := pool }) with events := b.events ++ l } := by
  obtain ⟨hsent, hrefused⟩ := publishVia_eq send hc topic packet codec
  have hdesk := c.encoders.sameDesk_prepare topic packet codec
  cases hm : (c.encoders.prepare topic packet codec).1 with
  | error e =>
    refine ⟨_, [], hdesk, by simp, ?_⟩
    rw [hrefused e hm, List.append_nil]
    rfl
  | ok message =>
    rw [hsent message hm] at hfail ⊢
    generalize hhanded : b.updateClient client _ = handed at hfail ⊢
    cases hverdict : (send c.line message handed).1 with
    | ok _ =>
      rw [hverdict] at hfail
      cases hfail
    | error e =>
      obtain ⟨l, hleft, hnoted⟩ := hsend hverdict
      refine ⟨_, l, hdesk, hnoted, hleft.trans ?_⟩
      subst hhanded
      rfl

/-- What is refused for another reason than the verdict of the line is refused whatever the line does. -/
theorem publishVia_eq_of_error {send : Sending} (hc : b.clients[client]? = some c) {err : BusError}
    (hfail : (publishVia send client topic packet codec b).1 = .error err) (herr : ∀ e, err ≠ .transport e)
    (send' : Sending) :
    publishVia send' client topic packet codec b = publishVia send client topic packet codec b := by
  obtain ⟨hsent, hrefused⟩ := publishVia_eq send hc topic packet codec
  cases hm : (c.encoders.prepare topic packet codec).1 with
  | error e => rw [hrefused e hm, (publishVia_eq send' hc topic packet codec).2 e hm]
  | ok message =>
    rw [hsent message hm] at hfail
    generalize (send c.line message _).1 = verdict at hfail
    cases verdict with
    | ok _ => cases hfail
    | error e =>
      cases hfail
      exact absurd rfl (herr e)

/-! ### Requests in vain -/

theorem Alike.refl (hb : b.Sound) : Alike b.events b.events b b := by
  refine ⟨rfl, List.forall₂_same.2 fun c hc => ?_, rfl, rfl, rfl, rfl, [], by simp⟩
  obtain ⟨j, hj⟩ := List.mem_iff_getElem?.1 hc
  exact .refl (hb.clients hj).encoders

/-- A client that has used its encoders, and notes: that is all that is left of a request that was not made. -/
theorem Alike.of_noted (hb : b.Sound) (hc : b.clients[client]? = some c) {pool : EncoderPool}
    (hpool : c.encoders.SameDesk pool) (l : List BusEvent)
    (hb' : b' = { b.updateClient client (fun _ => { c with encoders := pool }) with events := b.events ++ l }) :
    Alike b.events b'.events b b' := by
  have hencoders := (hb.clients hc).encoders
  have hclient : c.Alike { c with encoders := pool } := ⟨pool, rfl, (EncoderPool.Alike.refl hencoders).sameDesk
    (.refl _) hpool⟩
  have hreplaced := (Alike.refl hb).replaceClient client hclient
  rw [updateClient_eq_self hc] at hreplaced
  subst hb'
  exact ⟨hreplaced.broker, hreplaced.clients, hreplaced.timers, hreplaced.clock, hreplaced.running, hreplaced.room,
    [], by simp⟩

/-- A client enters a request, uses its encoders and takes the request back. -/
theorem Sound.updateClient_withdraw (hb : b.Sound) (hpruned : b.Pruned) (hc : b.clients[client]? = some c)
    {prepared : Client} {header : RpcHeader} {id : CorrelationId} {expected : ExpectedReplies}
    (hp : c.prepareRequest header id expected = .ok prepared) (pool : EncoderPool) :
    (((b.updateClient client fun _ => prepared).updateClient client fun c => { c with encoders := pool }).updateClient
        client (·.withdrawRequest c.requests.length id)) =
      b.updateClient client fun _ => { c with encoders := pool } := by
  unfold updateClient
  simp only [List.modify_modify_eq]
  congr 2
  funext c₁
  exact (hb.clients hc).withdrawRequest_prepared (hpruned hc) hp pool

/-- All that is left of a request that could not be made is notes, and encoders that were used. -/
theorem requestVia_of_error (hb : b.Sound) (hpruned : b.Pruned) {send : Sending} (hsend : send.Inert) (client : Nat)
    (id : CorrelationId) (destination : Destination) (subject : Subject) (payloads : List Payload)
    (expected : ExpectedReplies) (timeoutMs : Nat) {err : BusError}
    (hfail : (b.requestVia send client id destination subject payloads expected timeoutMs).1 = .error err) :
    let b' := (b.requestVia send client id destination subject payloads expected timeoutMs).2
    Alike b.events b'.events b b' ∧ ∃ l, b'.events = b.events ++ l ∧ ∀ event ∈ l, event.IsNoted := by
  have hnothing : Alike b.events b.events b b ∧ ∃ l, b.events = b.events ++ l ∧ ∀ event ∈ l, event.IsNoted :=
    ⟨.refl hb, [], by simp⟩
  cases hc : b.clients[client]? with
  | none =>
    rw [requestVia_of_none send hc]
    exact hnothing
  | some c =>
    rcases requestVia_cases send hc id destination subject payloads expected timeoutMs with
      ⟨e, -, heq⟩ | ⟨prepared, published, hp, rfl, ⟨e, fields, he, heq⟩ | ⟨-, heq⟩⟩
    · rw [heq]
      exact hnothing
    · obtain ⟨pool, l, hpool, hnoted, hleft⟩ :=
        publishVia_of_error hsend (clients_updateClient_self hc fun _ => prepared) he
      have hdesk : c.encoders.SameDesk pool := by
        obtain ⟨tree, -, rfl⟩ := Client.exists_tree_of_prepareRequest hp
        exact hpool
      have hwithdrawn := hb.updateClient_withdraw hpruned hc hp pool
      rw [heq, hleft]
      refine ⟨.of_noted hb hc hdesk
        (l ++ [.logged ⟨.warn, "request publish failed", fields, some c.identity.text⟩]) ?_, _,
        List.append_assoc _ _ _, ?_⟩
      · rw [← hwithdrawn]
        unfold log record updateClient
        simp only [List.append_assoc, Option.map_some]
      · intro event hevent
        rcases List.mem_append.1 hevent with hold | hnew
        · exact hnoted event hold
        · rw [List.mem_singleton.1 hnew]
          trivial
    · rw [heq] at hfail
      cases hfail

/-- What is refused for another reason than the verdict of the line is refused whatever the line does. -/
theorem requestVia_eq_of_error {send : Sending} {id : CorrelationId} {destination : Destination} {subject : Subject}
    {payloads : List Payload} {expected : ExpectedReplies} {timeoutMs : Nat} {err : BusError}
    (hfail : (b.requestVia send client id destination subject payloads expected timeoutMs).1 = .error err)
    (herr : ∀ e, err ≠ .transport e) (send' : Sending) :
    b.requestVia send' client id destination subject payloads expected timeoutMs =
      b.requestVia send client id destination subject payloads expected timeoutMs := by
  unfold requestVia at hfail ⊢
  cases hc : b.clients[client]? with
  | none => rfl
  | some c =>
    rw [hc] at hfail
    simp only at hfail ⊢
    cases hp : c.prepareRequest (.of subject c.identity destination id) id expected with
    | error e => rfl
    | ok prepared =>
      rw [hp] at hfail
      simp only at hfail ⊢
      have hpublished : (publishVia send client (destination.topicFor c.identity subject)
          (some ⟨.rpc (.of subject c.identity destination id), payloads⟩) none
          (b.updateClient client fun _ => prepared)).1 = .error err := by
        generalize publishVia send client _ _ none (b.updateClient client fun _ => prepared) = published at hfail ⊢
        obtain ⟨result, b₁⟩ := published
        cases result with
        | error e =>
          cases hfail
          rfl
        | ok _ => cases hfail
      rw [publishVia_eq_of_error (clients_updateClient_self hc fun _ => prepared) hpublished herr send']

/-- A request that is refused leaves no trace. Whatever was done before, all clients have the routes and the requests
that they had, no timer runs for it, and nobody was told anything. Whatever is done afterwards, the same happens as if
it had not been tried, and the same comes of all requests. If it was not the line that refused it, the line was not
even called: what it does makes no difference. -/
theorem refused_request_leaves_no_trace (room : Nat) (before after : List Operation) {send : Sending}
    (hsend : send.Inert) (client : Nat) (id : CorrelationId) (destination : Destination) (subject : Subject)
    (payloads : List Payload) (expected : ExpectedReplies) (timeoutMs : Nat) {err : BusError}
    (hfail : (((empty room).performAll before).requestVia send client id destination subject payloads expected
      timeoutMs).1 = .error err) :
    let b := (empty room).performAll before
    let b' := (b.requestVia send client id destination subject payloads expected timeoutMs).2
    (∀ (j : Nat) (c : Client), b.clients[j]? = some c → ∃ pool, b'.clients[j]? = some { c with encoders := pool }) ∧
    (b'.timers = b.timers ∧ ∀ c, b.clients[client]? = some c →
      ∀ t ∈ b'.timers, ¬(t.client = client ∧ t.request = c.requests.length)) ∧
    (∃ l, b'.events = b.events ++ l ∧ ∀ event ∈ l, event.IsNoted) ∧
    (∃ l, (b.performAll after).events = b.events ++ l ∧ (b'.performAll after).events = b'.events ++ l ∧
      ∀ j k, (b'.performAll after).request? j k = (b.performAll after).request? j k) ∧
    ((∀ e, err ≠ .transport e) → ∀ send',
      b.requestVia send' client id destination subject payloads expected timeoutMs = (.error err, b')) := by
  intro b b'
  have hb : b.Sound := sound_performAll room before
  obtain ⟨halike, hnoted⟩ := requestVia_of_error hb (pruned_performAll room before) hsend client id destination
    subject payloads expected timeoutMs hfail
  refine ⟨fun j c hc => ?_, ⟨halike.timers, fun c hc t ht => ?_⟩, hnoted, ?_, fun herr send' => ?_⟩
  · rcases forall₂_getElem?_cases halike.clients j with ⟨hnone, -⟩ | ⟨c₁, _, hc₁, hc', pool, rfl, -⟩
    · rw [hc] at hnone
      cases hnone
    · obtain rfl : c = c₁ := Option.some.inj (hc.symm.trans hc₁)
      exact ⟨pool, hc'⟩
  · -- timers are for requests that there are
    rintro ⟨rfl, hrequest⟩
    obtain ⟨c₁, hc₁, hlt⟩ := hb.timers t (halike.timers ▸ ht)
    obtain rfl : c = c₁ := Option.some.inj (hc.symm.trans hc₁)
    exact absurd hrequest (Nat.ne_of_lt hlt)
  · have hlater := halike.performAll after
    obtain ⟨l, hl, hl'⟩ := hlater.events
    exact ⟨l, hl, hl', hlater.request?_eq⟩
  · rw [requestVia_eq_of_error hfail herr send']
    exact Prod.ext hfail rfl

private def dispatcher : Identity := ⟨["demo"], "rail", "north", "dispatcher"⟩

private def signal : Subject := ⟨["signal", "state"]⟩

private def journey : CorrelationId := ⟨"0190b5a4-7c1e-7000-8000-000000000010"⟩

private def detour : CorrelationId := ⟨"0190b5a4-7c1e-7000-8000-000000000011"⟩

/-- A connection that has made one request when it breaks. -/
private def broken : List Operation :=
  [.create, .openOn dispatcher 0 .standard .messagePack 4, .request 0 journey .all signal [] .unlimited 500,
    .lose 0 "storm"]

/-- A request on a broken connection is refused by the line. The request that was made before has its route still, and
ends when the clock reaches its time, as if nothing had been tried. -/
theorem refused_request_leaves_no_trace_storm :
    let b := empty.performAll broken
    let tried := b.request 0 detour .all signal [] (.exactly 1) 900
    tried.1 = .error (.transport (.notConnected .publish)) ∧ tried.2.timers = [⟨500, 0, 0⟩] ∧
      (∃ c c', b.clients[0]? = some c ∧ tried.2.clients[0]? = some c' ∧ c'.tree = c.tree ∧
        (c'.tree.get? [Segment.reply, journey.text]).any (·.isReplyTo 0) = true) ∧
      (tried.2.performAll [.advance 1000]).request? 0 0 = (b.performAll [.advance 1000]).request? 0 0 := by
  have hfail : ((empty.performAll broken).request 0 detour .all signal [] (.exactly 1) 900).1 =
      .error (.transport (.notConnected .publish)) := by decide +kernel
  have hwaiting : (empty.performAll broken).timers = [⟨500, 0, 0⟩] := by decide +kernel
  have hbound : ((empty.performAll broken).clients[0]?).any (fun c =>
      (c.tree.get? [Segment.reply, journey.text]).any (·.isReplyTo 0)) = true := by decide +kernel
  have htraceless := refused_request_leaves_no_trace usualRoom broken [.advance 1000]
    (inert_transmit (hear (empty.performAll broken).room []) 0) 0 detour .all signal [] (.exactly 1) 900 hfail
  -- nothing need be computed from here on
  generalize empty.performAll broken = b at *
  intro _ tried
  obtain ⟨hclients, ⟨htimers, -⟩, -, ⟨l, -, -, hrequests⟩, -⟩ := htraceless
  obtain ⟨c, hc, hroute⟩ := (Option.any_eq_true _ _).1 hbound
  obtain ⟨pool, hc'⟩ := hclients 0 c hc
  exact ⟨hfail, htimers.trans hwaiting, ⟨c, _, hc, hc', rfl, hroute⟩, hrequests 0 0⟩

end Bus

end Switchboard
