import Switchboard.Proofs.Delivery.Awaiting
import Switchboard.Proofs.Delivery.Likeness

/-!
# Operations on buses that are alike

What is done with both of two buses that are alike is answered alike and leaves them alike (`Bus.Alike.perform`). So
whatever is done with them one thing after the other, the same happens on both (`Bus.Alike.performAll`).
-/

namespace Switchboard

namespace Bus

variable {past past' : List BusEvent} {b b' : Bus}

namespace Alike

/-! ### Endpoints -/

theorem connect (h : Alike past past' b b') (endpoint : Nat) :
    Alike past past' (b.connect endpoint) (b'.connect endpoint) := by
  unfold Bus.connect
  rw [h.broker]
  exact (h.withBroker _).tellWatchers _

theorem disconnect (h : Alike past past' b b') (endpoint : Nat) :
    Alike past past' (b.disconnect endpoint) (b'.disconnect endpoint) := by
  unfold Bus.disconnect
  rw [h.broker]
  exact (h.tellWatchers _).withBroker _

theorem lose (h : Alike past past' b b') (endpoint : Nat) (cause : String) :
    Alike past past' (b.lose endpoint cause) (b'.lose endpoint cause) := by
  unfold Bus.lose
  rw [h.broker]
  exact (h.withBroker _).tellWatchers _

theorem subscribe (h : Alike past past' b b') (endpoint : Nat) (filters : List String) :
    AlikeOutcomes past past' (b.subscribe endpoint filters) (b'.subscribe endpoint filters) := by
  unfold Bus.subscribe
  rw [h.broker]
  cases b.broker.subscribe endpoint filters with
  | error e => exact .inl ⟨e, rfl, rfl⟩
  | ok broker => exact .inr ⟨_, _, rfl, rfl, h.withBroker broker⟩

theorem unsubscribe (h : Alike past past' b b') (endpoint : Nat) (filters : List String) :
    AlikeOutcomes past past' (b.unsubscribe endpoint filters) (b'.unsubscribe endpoint filters) := by
  unfold Bus.unsubscribe
  rw [h.broker]
  cases b.broker.unsubscribe endpoint filters with
  | error e => exact .inl ⟨e, rfl, rfl⟩
  | ok broker => exact .inr ⟨_, _, rfl, rfl, h.withBroker broker⟩

theorem toOption_getD (h : Alike past past' b b') {result result' : Except TransportError Bus}
    (hresult : AlikeOutcomes past past' result result') :
    Alike past past' (result.toOption.getD b) (result'.toOption.getD b') := by
  rcases hresult with ⟨e, rfl, rfl⟩ | ⟨b₁, b₁', rfl, rfl, h₁⟩
  · exact h
  · exact h₁

theorem addTap (h : Alike past past' b b') (filters : List String) :
    Alike past past' (b.addTap filters).2 (b'.addTap filters).2 := by
  unfold Bus.addTap createEndpoint
  rw [h.broker]
  have hconnected := ((h.withBroker b.broker.create.2).withBroker
    (b.broker.create.2.setListener b.broker.create.1 .tap)).connect b.broker.create.1
  exact hconnected.toOption_getD (hconnected.subscribe _ filters)

/-! ### Opening and closing -/

theorem join (h : Alike past past' b b') (identity : Identity) {encoders : EncoderPool} (hencoders : encoders.Sound)
    (line : Line) :
    (∃ e, b.join identity encoders line = .error e ∧ b'.join identity encoders line = .error e) ∨
      ∃ client b₁ b₁', b.join identity encoders line = .ok (client, b₁) ∧
        b'.join identity encoders line = .ok (client, b₁') ∧ Alike past past' b₁ b₁' := by
  unfold Bus.join
  rw [h.running, h.clients.length_eq]
  split
  · exact .inr ⟨_, _, _, rfl, rfl, h.broker, List.rel_append h.clients (.cons (.refl hencoders) .nil), h.timers,
      h.clock, rfl, h.room, h.events⟩
  · exact .inl ⟨_, rfl, rfl⟩

theorem forget (h : Alike past past' b b') (client : Nat) :
    Alike past past' (b.forget client) (b'.forget client) :=
  h.updateClient client fun _ _ ⟨pool, hc, hpool⟩ => ⟨pool, by rw [hc], hpool⟩

theorem openOn (h : Alike past past' b b') (identity : Identity) (endpoint : Nat) {encoders : EncoderPool}
    (hencoders : encoders.Sound) :
    AlikeResults past past' (b.openOn identity endpoint encoders) (b'.openOn identity endpoint encoders) := by
  unfold Bus.openOn
  rcases h.join identity hencoders (.endpoint endpoint) with ⟨e, hjoin, hjoin'⟩ |
    ⟨client, b₁, b₁', hjoin, hjoin', h₁⟩ <;> rw [hjoin, hjoin']
  · exact ⟨rfl, h⟩
  · have hconnected := (h₁.withBroker
      ((b₁.broker.watch endpoint (.journal identity.text)).setListener endpoint (.client client))).connect endpoint
    simp only [Bus.watch, h₁.broker]
    rcases hconnected.subscribe endpoint identity.filters with ⟨e, hsubscribe, hsubscribe'⟩ |
      ⟨b₂, b₂', hsubscribe, hsubscribe', h₂⟩ <;> rw [hsubscribe, hsubscribe']
    · exact ⟨rfl, hconnected.forget client⟩
    · exact ⟨rfl, h₂.record _⟩

theorem openWith (h : Alike past past' b b') (settings : Settings)
    (transports : TransportRegistry (Broker Listener Watcher)) (types : TypeRegistry) :
    AlikeResults past past' (b.openWith settings transports types) (b'.openWith settings transports types) := by
  unfold Bus.openWith
  rw [h.broker]
  cases settings.identity? with
  | error e => exact ⟨rfl, h⟩
  | ok identity =>
    cases transports.create settings.transport b.broker with
    | error e => exact ⟨rfl, h⟩
    | ok made =>
      obtain ⟨endpoint, broker⟩ := made
      obtain ⟨hresult, hopened⟩ := (h.withBroker broker).openOn identity endpoint
        (EncoderPool.sound_empty types settings.codec settings.encoderPoolSize.toNat)
      simp only
      generalize ({ b with broker := broker } : Bus).openOn identity endpoint _ = opened at hresult hopened
      generalize ({ b' with broker := broker } : Bus).openOn identity endpoint _ = opened' at hresult hopened
      obtain ⟨result, b₁⟩ := opened
      obtain ⟨result', b₁'⟩ := opened'
      obtain rfl : result' = result := hresult
      cases result' with
      | error e => exact ⟨rfl, hopened⟩
      | ok client =>
        exact ⟨rfl, hopened.updateClient client fun _ _ ⟨pool, hc, hpool⟩ => ⟨pool, by rw [hc], hpool⟩⟩

theorem close (h : Alike past past' b b') (client : Nat) :
    AlikeResults past past' (b.close client) (b'.close client) := by
  unfold Bus.close
  rcases forall₂_getElem?_cases h.clients client with ⟨hc, hc'⟩ | ⟨c, _, hc, hc', pool, rfl, -⟩ <;>
    rw [hc, hc', h.broker]
  · exact ⟨rfl, h⟩
  · cases hline : c.line with
    | tape refusing =>
      simp only [hline]
      exact ⟨rfl, h⟩
    | endpoint id =>
      simp only [hline]
      split
      · rcases h.unsubscribe id c.identity.filters with ⟨e, hunsubscribe, hunsubscribe'⟩ |
          ⟨b₁, b₁', hunsubscribe, hunsubscribe', h₁⟩ <;> rw [hunsubscribe, hunsubscribe']
        · exact ⟨rfl, h⟩
        · exact ⟨rfl, (h₁.disconnect id).record _⟩
      · exact ⟨rfl, h⟩

/-! ### Handlers -/

/-- One client gives way to another. -/
theorem replaceClient (h : Alike past past' b b') (client : Nat) {c c' : Client} (hc : c.Alike c') :
    Alike past past' (b.updateClient client fun _ => c) (b'.updateClient client fun _ => c') :=
  h.updateClient client fun _ _ _ => hc

theorem attachTo (h : Alike past past' b b') (client : Nat) (subject : Subject) (route : Route) :
    AlikeResults past past' (b.attachTo client (·.attach subject route))
      (b'.attachTo client (·.attach subject route)) := by
  unfold Bus.attachTo
  rcases forall₂_getElem?_cases h.clients client with ⟨hc, hc'⟩ | ⟨c, c', hc, hc', halike⟩ <;> rw [hc, hc']
  · exact ⟨rfl, h⟩
  · rcases halike.attach subject route with ⟨e, hattach, hattach'⟩ | ⟨d, d', hattach, hattach', hd⟩ <;>
      simp only [hattach, hattach']
    · exact ⟨rfl, h⟩
    · exact ⟨rfl, h.replaceClient client hd⟩

theorem detachFrom (h : Alike past past' b b') (client : Nat) (subject : Subject) (chosen : Route → Bool) :
    AlikeResults past past' (b.detachFrom client (·.detach subject chosen))
      (b'.detachFrom client (·.detach subject chosen)) := by
  unfold Bus.detachFrom
  rcases forall₂_getElem?_cases h.clients client with ⟨hc, hc'⟩ | ⟨c, c', hc, hc', halike⟩ <;> rw [hc, hc']
  · exact ⟨rfl, h⟩
  · obtain ⟨hreleased, hd⟩ := halike.detach subject chosen
    exact ⟨hreleased, h.replaceClient client hd⟩

/-! ### Messages -/

theorem publish (h : Alike past past' b b') (client : Nat) (topic : List String) (packet : Option Packet)
    (codec : Option Codec) :
    AlikeResults past past' (b.publish client topic packet codec) (b'.publish client topic packet codec) := by
  unfold Bus.publish
  rw [h.room]
  exact (sendsAlike_transmit b.room client).publishVia h client topic packet codec

theorem notify (h : Alike past past' b b') (client : Nat) (destination : Destination) (subject : Subject)
    (payloads : List Payload) :
    AlikeResults past past' (b.notify client destination subject payloads)
      (b'.notify client destination subject payloads) := by
  unfold Bus.notify
  rcases forall₂_getElem?_cases h.clients client with ⟨hc, hc'⟩ | ⟨c, _, hc, hc', pool, rfl, -⟩ <;> rw [hc, hc']
  · exact ⟨rfl, h⟩
  · exact h.publish client _ _ none

theorem inject (h : Alike past past' b b') (endpoint : Nat) (message : Outgoing) :
    AlikeResults past past' (b.inject endpoint message) (b'.inject endpoint message) := by
  unfold Bus.inject
  rw [h.room]
  exact (hearsAlike_hear b.room []).transmitFrom h endpoint message

theorem dispatch (h : Alike past past' b b') (client : Nat) (message : Outgoing) :
    AlikeResults past past' (b.dispatch client message) (b'.dispatch client message) := by
  unfold Bus.dispatch
  rw [h.room]
  exact HearsAlike.dispatchBy (hearsAlike_hear b.room) [] h client message

/-! ### Requests and the clock -/

theorem requestVia {send : Sending} (hsend : SendsAlike send) (h : Alike past past' b b') (client : Nat)
    (id : CorrelationId) (destination : Destination) (subject : Subject) (payloads : List Payload)
    (expected : ExpectedReplies) (timeoutMs : Nat) :
    AlikeResults past past' (b.requestVia send client id destination subject payloads expected timeoutMs)
      (b'.requestVia send client id destination subject payloads expected timeoutMs) := by
  unfold Bus.requestVia
  rcases forall₂_getElem?_cases h.clients client with ⟨hc, hc'⟩ | ⟨c, c', hc, hc', halike⟩ <;> rw [hc, hc']
  · exact ⟨rfl, h⟩
  · obtain ⟨hidentity, hrequests⟩ : c'.identity = c.identity ∧ c'.requests = c.requests := by
      obtain ⟨pool, rfl, -⟩ := halike
      exact ⟨rfl, rfl⟩
    simp only [hidentity, hrequests]
    rcases halike.prepareRequest (.of subject c.identity destination id) id expected with
      ⟨e, hprepare, hprepare'⟩ | ⟨d, d', hprepare, hprepare', hd⟩ <;> rw [hprepare, hprepare']
    · exact ⟨rfl, h⟩
    · obtain ⟨hresult, hleft⟩ := hsend.publishVia (h.replaceClient client hd) client
        (destination.topicFor c.identity subject) (some ⟨.rpc (.of subject c.identity destination id), payloads⟩) none
      simp only
      generalize publishVia send client _ _ none (b.updateClient client _) = published at hresult hleft
      generalize publishVia send client _ _ none (b'.updateClient client _) = published' at hresult hleft
      obtain ⟨result, b₁⟩ := published
      obtain ⟨result', b₁'⟩ := published'
      obtain rfl : result' = result := hresult
      cases result' with
      | error e =>
        have hwithdrawn := hleft.updateClient client (f := (·.withdrawRequest c.requests.length id))
          (g := (·.withdrawRequest c.requests.length id)) fun _ _ ⟨pool, hd, hpool⟩ => ⟨pool, by rw [hd]; rfl, hpool⟩
        exact ⟨rfl, hwithdrawn.record _⟩
      | ok _ =>
        have hconfirmed := hleft.updateClient client (f := (·.confirmRequest c.requests.length))
          (g := (·.confirmRequest c.requests.length)) fun _ _ ⟨pool, hd, hpool⟩ => ⟨pool, by rw [hd]; rfl, hpool⟩
        refine ⟨rfl, hconfirmed.broker, hconfirmed.clients, ?_, hconfirmed.clock, hconfirmed.running,
          hconfirmed.room, hconfirmed.events⟩
        change b₁'.timers ++ [⟨b₁'.clock + timeoutMs, client, _⟩] = b₁.timers ++ [⟨b₁.clock + timeoutMs, client, _⟩]
        rw [hleft.timers, hleft.clock]

theorem request (h : Alike past past' b b') (client : Nat) (id : CorrelationId) (destination : Destination)
    (subject : Subject) (payloads : List Payload) (expected : ExpectedReplies) (timeoutMs : Nat) :
    AlikeResults past past' (b.request client id destination subject payloads expected timeoutMs)
      (b'.request client id destination subject payloads expected timeoutMs) := by
  unfold Bus.request
  rw [h.room]
  exact h.requestVia (sendsAlike_transmit b.room client) client id destination subject payloads expected timeoutMs

theorem tellOutcome (h : Alike past past' b b') (t : Timer) (scope : Identity) (o : RequestOutcome) :
    Alike past past' (b.tellOutcome t scope o) (b'.tellOutcome t scope o) := by
  have htold : ∀ calls : List ReplyCall, Alike past past'
      (calls.foldl (fun b call => b.record (.told t.client t.request call)) b)
      (calls.foldl (fun b call => b.record (.told t.client t.request call)) b') := by
    intro calls
    induction calls generalizing b b' with
    | nil => exact h
    | cons call calls ih => exact ih (h.record _)
  unfold Bus.tellOutcome
  cases o.mismatch? with
  | none => exact htold o.calls
  | some e => exact (htold o.calls).record _

theorem fire (h : Alike past past' b b') (t : Timer) : Alike past past' (b.fire t) (b'.fire t) := by
  unfold Bus.fire
  rcases forall₂_getElem?_cases h.clients t.client with ⟨hc, hc'⟩ | ⟨c, c', hc, hc', halike⟩ <;> rw [hc, hc']
  · exact h
  · obtain ⟨houtcome, hended⟩ := halike.endRequest t.request
    have hidentity : c'.identity = c.identity := by
      obtain ⟨pool, rfl, -⟩ := halike
      rfl
    have hreplaced := h.replaceClient t.client hended
    simp only [houtcome, hidentity]
    split
    · exact hreplaced
    · exact hreplaced.tellOutcome t c.identity _

theorem fires (h : Alike past past' b b') (ts : List Timer) :
    Alike past past' (ts.foldl Bus.fire b) (ts.foldl Bus.fire b') := by
  induction ts generalizing b b' with
  | nil => exact h
  | cons t ts ih => exact ih (h.fire t)

theorem advance (h : Alike past past' b b') (ms : Nat) : Alike past past' (b.advance ms) (b'.advance ms) := by
  have hlater : Alike past past' (b.later ms) (b'.later ms) := by
    refine ⟨h.broker, h.clients, ?_, ?_, h.running, h.room, h.events⟩
    · simp only [later, h.timers, h.clock]
    · simp only [later, h.clock]
  have hdue : ({ b' with clock := b'.clock + ms } : Bus).due = ({ b with clock := b.clock + ms } : Bus).due := by
    simp only [due, h.timers, h.clock]
  change Alike past past' (({ b with clock := b.clock + ms } : Bus).due.foldl Bus.fire (b.later ms))
    (({ b' with clock := b'.clock + ms } : Bus).due.foldl Bus.fire (b'.later ms))
  rw [hdue]
  exact hlater.fires _

/-! ### All operations -/

/-- What is done with both leaves them alike. -/
theorem perform (h : Alike past past' b b') (o : Operation) : Alike past past' (b.perform o) (b'.perform o) := by
  cases o with
  | create =>
    unfold Bus.perform createEndpoint
    rw [h.broker]
    exact h.withBroker _
  | watch endpoint watcher =>
    unfold Bus.perform Bus.watch
    rw [h.broker]
    exact h.withBroker _
  | connect endpoint => exact h.connect endpoint
  | disconnect endpoint => exact h.disconnect endpoint
  | lose endpoint cause => exact h.lose endpoint cause
  | subscribe endpoint filters => exact h.toOption_getD (h.subscribe endpoint filters)
  | unsubscribe endpoint filters => exact h.toOption_getD (h.unsubscribe endpoint filters)
  | tap filters => exact h.addTap filters
  | join identity types standard capacity line =>
    unfold Bus.perform
    rcases h.join identity (EncoderPool.sound_empty types standard capacity) line with ⟨e, hjoin, hjoin'⟩ |
      ⟨client, b₁, b₁', hjoin, hjoin', h₁⟩ <;> simp only [hjoin, hjoin']
    · exact h
    · exact h₁
  | openOn identity endpoint types standard capacity =>
    exact (h.openOn identity endpoint (EncoderPool.sound_empty types standard capacity)).2
  | openWith settings types => exact (h.openWith settings _ types).2
  | close client => exact (h.close client).2
  | forget client => exact h.forget client
  | register client subject handler => exact (h.attachTo client subject _).2
  | unregister client subject name => exact (h.detachFrom client subject _).2
  | listen client subject handler => exact (h.attachTo client subject _).2
  | unlisten client subject name => exact (h.detachFrom client subject _).2
  | publish client topic packet codec => exact (h.publish client topic packet codec).2
  | notify client destination subject payloads => exact (h.notify client destination subject payloads).2
  | inject endpoint message => exact (h.inject endpoint message).2
  | dispatch client message => exact (h.dispatch client message).2
  | request client id destination subject payloads expected timeoutMs =>
    exact (h.request client id destination subject payloads expected timeoutMs).2
  | advance ms => exact h.advance ms

/-- Whatever is done with both leaves them alike. -/
theorem performAll (h : Alike past past' b b') (operations : List Operation) :
    Alike past past' (b.performAll operations) (b'.performAll operations) := by
  induction operations generalizing b b' with
  | nil => exact h
  | cons o operations ih => exact ih (h.perform o)

end Alike

end Bus

end Switchboard
