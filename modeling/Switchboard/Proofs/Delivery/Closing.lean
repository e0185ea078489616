import Mathlib.Data.List.Induction
import Switchboard.Proofs.Delivery.Assembly
import Switchboard.Proofs.Delivery.Awaiting
import Switchboard.Proofs.Delivery.BrokerStep

/-!
# Closed connections

Closing a connection takes its topics back from its endpoint, but only while the endpoint is connected. After that no
message reaches the client any more, whatever becomes of the endpoint. Where the connection was lost before it was
closed, closing it changes nothing: the topics stay with the endpoint, and messages reach the client as soon as the
endpoint is connected again (`Bus.hears_iff_never_parted`).

* (endpoints) an endpoint that is left to its connection keeps its listener and its filters (`Bus.Untouched.perform`);
* (step) closing the connection is what takes the filters away (`Bus.Moored.close`);
* (run) by induction over the operations the filters are there until the connection is closed while its endpoint is
  connected (`Bus.Moored.performAll`).
-/

namespace Switchboard

/-- The operation leaves the filters and the listener of an endpoint to its connection. -/
def Operation.LeavesTo (endpoint : Nat) : Operation → Prop
  | .subscribe e _ | .unsubscribe e _ => e ≠ endpoint
  | .join _ _ _ _ line => line ≠ .endpoint endpoint
  | .openOn _ e _ _ _ => e ≠ endpoint
  | _ => True

namespace Bus

/-! ### Endpoints that are left alone -/

/-- Two states of a bus between which endpoints with a property kept their filters and their listener. No client
changed its name or its line, and only new ones have begun to listen. -/
structure Untouched (P : Nat → Prop) (b b' : Bus) : Prop where
  endpoints : b.broker.endpoints.length ≤ b'.broker.endpoints.length
  filters : ∀ {e}, P e → (b'.broker.endpoint e).filters = (b.broker.endpoint e).filters
  listener : ∀ {e}, P e → (b'.broker.endpoint e).listener = (b.broker.endpoint e).listener
  listeners : ∀ {e i}, (b'.broker.endpoint e).listener = some (.client i) →
    (b.broker.endpoint e).listener = some (.client i) ∨ b.clients.length ≤ i ∧ i < b'.clients.length
  count : b.clients.length ≤ b'.clients.length
  clients : ∀ {i : Nat} {c' : Client}, b'.clients[i]? = some c' →
    (∃ c, b.clients[i]? = some c ∧ c'.identity = c.identity ∧ c'.line = c.line) ∨
      b.clients.length ≤ i ∧ ∀ e, P e → c'.line ≠ .endpoint e

variable {P : Nat → Prop} {b b' b'' : Bus}

namespace Untouched

theorem of_eq (hbroker : b'.broker = b.broker) (hclients : b'.clients = b.clients) : Untouched P b b' := by
  refine ⟨?_, fun _ => ?_, fun _ => ?_, fun h => ?_, ?_, fun {i c'} hc' => ?_⟩
  · rw [hbroker]
  · rw [hbroker]
  · rw [hbroker]
  · rw [hbroker] at h
    exact .inl h
  · rw [hclients]
  · rw [hclients] at hc'
    exact .inl ⟨c', hc', rfl, rfl⟩

theorem refl (b : Bus) : Untouched P b b := of_eq rfl rfl

theorem trans (h : Untouched P b b') (h' : Untouched P b' b'') : Untouched P b b'' where
  endpoints := h.endpoints.trans h'.endpoints
  filters he := (h'.filters he).trans (h.filters he)
  listener he := (h'.listener he).trans (h.listener he)
  listeners hlistener := by
    have hcount := h.count
    have hcount' := h'.count
    rcases h'.listeners hlistener with hold | hnew
    · rcases h.listeners hold with hold | hnew
      · exact .inl hold
      · exact .inr (by omega)
    · exact .inr (by omega)
  count := h.count.trans h'.count
  clients hc'' := by
    rcases h'.clients hc'' with ⟨c', hc', hidentity', hline'⟩ | ⟨hnew, hline⟩
    · rcases h.clients hc' with ⟨c, hc, hidentity, hline⟩ | ⟨hnew, hline⟩
      · exact .inl ⟨c, hc, hidentity'.trans hidentity, hline'.trans hline⟩
      · exact .inr ⟨hnew, hline' ▸ hline⟩
    · exact .inr ⟨h.count.trans hnew, hline⟩

/-- A client that was there before is there afterwards. -/
theorem client (h : Untouched P b b') {j : Nat} {c : Client} (hc : b.clients[j]? = some c) :
    ∃ c', b'.clients[j]? = some c' ∧ c'.identity = c.identity ∧ c'.line = c.line := by
  have hlt := (List.getElem?_eq_some_iff.1 hc).1
  have hc' := List.getElem?_eq_getElem (Nat.lt_of_lt_of_le hlt h.count)
  rcases h.clients hc' with ⟨c₁, hc₁, hsame⟩ | ⟨hnew, -⟩
  · obtain rfl : c = c₁ := Option.some.inj (hc.symm.trans hc₁)
    exact ⟨_, hc', hsame⟩
  · exact absurd hnew (Nat.not_le.2 hlt)

theorem of_changed {ρ : RequestChange} (h : Changed ρ b b') : Untouched P b b' := by
  refine ⟨?_, fun _ => ?_, fun _ => ?_, fun hlistener => ?_, ?_, fun hc' => .inl ?_⟩
  · rw [h.broker]
  · rw [h.broker]
  · rw [h.broker]
  · rw [h.broker] at hlistener
    exact .inl hlistener
  · rw [h.count]
  · obtain ⟨c, hc, hchanged⟩ := h.exists_before hc'
    exact ⟨c, hc, hchanged.identity, hchanged.line⟩

theorem updateClient {client : Nat} {f : Client → Client}
    (hf : ∀ c, b.clients[client]? = some c → (f c).identity = c.identity ∧ (f c).line = c.line) :
    Untouched P b (b.updateClient client f) := by
  refine ⟨Nat.le_refl _, fun _ => rfl, fun _ => rfl, .inl, ?_, fun {i c'} hc' => .inl ?_⟩
  · rw [Bus.updateClient, List.length_modify]
  · rw [clients_updateClient] at hc'
    split at hc'
    · rename_i hi
      subst hi
      obtain ⟨c, hc, rfl⟩ := Option.map_eq_some_iff.1 hc'
      exact ⟨c, hc, hf c hc⟩
    · exact ⟨c', hc', rfl, rfl⟩

/-! ### Steps of the broker -/

/-- A step of the broker that gives an endpoint with the property neither a listener nor a filter, takes none of its
filters, and lets no client listen. -/
theorem of_step (step : BrokerStep Listener Watcher) (hbroker : b'.broker = (b.broker.perform step).2)
    (hclients : b'.clients = b.clients) (hsubscribe : ∀ e filters, P e → step ≠ .subscribe e filters)
    (hunsubscribe : ∀ e filters, P e → step ≠ .unsubscribe e filters)
    (hlistener : ∀ e listener, step = .setListener e listener → ¬P e ∧ listener = .tap) : Untouched P b b' := by
  refine ⟨?_, fun he => ?_, fun {e} he => ?_, fun {e i} hi => .inl ?_, by rw [hclients], fun {i c'} hc' => .inl ?_⟩
  · rw [hbroker]
    exact b.broker.le_length_endpoints_perform step
  · rw [hbroker]
    exact b.broker.filters_perform_of_ne (fun filters => hsubscribe _ filters he)
      fun filters => hunsubscribe _ filters he
  · rw [hbroker]
    rcases b.broker.listener_perform_cases step e with hsame | ⟨listener, hstep, -⟩
    · exact hsame
    · exact absurd he (hlistener e listener hstep).1
  · rw [hbroker] at hi
    rcases b.broker.listener_perform_cases step e with hsame | ⟨listener, hstep, hset⟩
    · exact hsame.symm.trans hi
    · obtain ⟨-, rfl⟩ := hlistener e listener hstep
      cases hset.symm.trans hi
  · rw [hclients] at hc'
    exact ⟨c', hc', rfl, rfl⟩

theorem create (b : Bus) : Untouched P b b.createEndpoint.2 := of_step .create rfl rfl nofun nofun nofun

theorem watch (b : Bus) (endpoint : Nat) (watcher : Watcher) : Untouched P b (b.watch endpoint watcher) :=
  of_step (.watch endpoint watcher) rfl rfl nofun nofun nofun

theorem connect (b : Bus) (endpoint : Nat) : Untouched P b (b.connect endpoint) :=
  have hconnected : Untouched P b { b with broker := (b.broker.connect endpoint).2 } :=
    of_step (.connect endpoint) rfl rfl nofun nofun nofun
  hconnected.trans (of_changed (changed_tellWatchers _ _))

theorem lose (b : Bus) (endpoint : Nat) (cause : String) : Untouched P b (b.lose endpoint cause) :=
  have hlost : Untouched P b { b with broker := (b.broker.lose endpoint cause).2 } :=
    of_step (.lose endpoint cause) rfl rfl nofun nofun nofun
  hlost.trans (of_changed (changed_tellWatchers _ _))

theorem disconnect (b : Bus) (endpoint : Nat) : Untouched P b (b.disconnect endpoint) := by
  have htold := changed_tellWatchers b (b.broker.disconnect endpoint).1
  refine (of_changed htold).trans (of_step (.disconnect endpoint) ?_ rfl nofun nofun nofun)
  rw [htold.broker]
  rfl

theorem subscribe {endpoint : Nat} {filters : List String} (hendpoint : ¬P endpoint)
    (h : b.subscribe endpoint filters = .ok b') : Untouched P b b' := by
  obtain ⟨broker, hbroker, rfl⟩ := exists_broker_of_subscribe h
  refine of_step (.subscribe endpoint filters) ?_ rfl ?_ nofun nofun
  · rw [Broker.perform_subscribe_of_eq_ok hbroker]
  · rintro e _ he ⟨⟩
    exact hendpoint he

theorem unsubscribe {endpoint : Nat} {filters : List String} (hendpoint : ¬P endpoint)
    (h : b.unsubscribe endpoint filters = .ok b') : Untouched P b b' := by
  obtain ⟨broker, hbroker, rfl⟩ := exists_broker_of_unsubscribe h
  refine of_step (.unsubscribe endpoint filters) ?_ rfl nofun ?_ nofun
  · rw [Broker.perform_unsubscribe_of_eq_ok hbroker]
  · rintro e _ he ⟨⟩
    exact hendpoint he

theorem toOption_getD {result : Except TransportError Bus} (h : ∀ b', result = .ok b' → Untouched P b b') :
    Untouched P b (result.toOption.getD b) := by
  cases result with
  | error e => exact .refl b
  | ok b' => exact h b' rfl

theorem addTap (hmade : ∀ e, P e → e < b.broker.endpoints.length) (filters : List String) :
    Untouched P b (b.addTap filters).2 := by
  have hnew : ¬P b.broker.endpoints.length := fun h => Nat.lt_irrefl _ (hmade _ h)
  have hcreated : Untouched P b b.createEndpoint.2 := .create b
  have hlistening : Untouched P b { b.createEndpoint.2 with
      broker := b.createEndpoint.2.broker.setListener b.broker.endpoints.length .tap } := by
    refine hcreated.trans (of_step (.setListener b.broker.endpoints.length .tap) rfl rfl nofun nofun ?_)
    rintro _ _ ⟨⟩
    exact ⟨hnew, rfl⟩
  have hconnected := hlistening.trans (.connect _ b.broker.endpoints.length)
  exact hconnected.trans (.toOption_getD fun b' h => .subscribe hnew h)

/-! ### Opening and closing -/

theorem join {identity : Identity} {encoders : EncoderPool} {line : Line} {client : Nat}
    (hline : ∀ e, P e → line ≠ .endpoint e) (hjoin : b.join identity encoders line = .ok (client, b')) :
    Untouched P b b' := by
  obtain ⟨-, rfl⟩ := eq_of_join hjoin
  refine ⟨Nat.le_refl _, fun _ => rfl, fun _ => rfl, .inl, by simp, fun {i c'} hc' => ?_⟩
  rcases Nat.lt_or_ge i b.clients.length with hlt | hge
  · rw [List.getElem?_append_left hlt] at hc'
    exact .inl ⟨c', hc', rfl, rfl⟩
  · refine .inr ⟨hge, ?_⟩
    rw [List.getElem?_append_right hge, List.getElem?_singleton] at hc'
    split at hc'
    · cases hc'
      exact hline
    · cases hc'

/-- A client that has joined in between begins to listen on another endpoint. -/
theorem setListener (h : Untouched P b b') {endpoint client : Nat} (hendpoint : ¬P endpoint)
    (hnew : b.clients.length ≤ client) (hjoined : client < b'.clients.length) :
    Untouched P b { b' with broker := b'.broker.setListener endpoint (.client client) } := by
  have hother : ∀ {e}, P e → endpoint ≠ e := fun he heq => hendpoint (heq ▸ he)
  refine ⟨?_, fun {e} he => ?_, fun {e} he => ?_, fun {e i} hi => ?_, h.count, h.clients⟩
  · exact h.endpoints.trans (b'.broker.le_length_endpoints_perform (.setListener endpoint (.client client)))
  · simp only [Broker.endpoint_setListener, hother he, false_and, if_false]
    exact h.filters he
  · simp only [Broker.endpoint_setListener, hother he, false_and, if_false]
    exact h.listener he
  · simp only [Broker.endpoint_setListener] at hi
    split at hi
    · cases hi
      exact .inr ⟨hnew, hjoined⟩
    · exact h.listeners hi

theorem forget (b : Bus) (client : Nat) : Untouched P b (b.forget client) := .updateClient fun _ _ => ⟨rfl, rfl⟩

theorem openOn {endpoint : Nat} (hendpoint : ¬P endpoint) (identity : Identity) (encoders : EncoderPool) :
    Untouched P b (b.openOn identity endpoint encoders).2 := by
  unfold Bus.openOn
  split
  · exact .refl b
  · rename_i client b₁ hjoin
    have hline : ∀ e, P e → Line.endpoint endpoint ≠ .endpoint e := by
      rintro e he ⟨⟩
      exact hendpoint he
    have hjoined : Untouched P b b₁ := .join hline hjoin
    obtain ⟨rfl, hclients⟩ := eq_of_join hjoin
    have hcount : b₁.clients.length = b.clients.length + 1 := by
      rw [hclients, List.length_append, List.length_singleton]
    have hwatched := hjoined.trans (.watch b₁ endpoint (.journal identity.text))
    have hlistening := hwatched.setListener hendpoint (Nat.le_refl _) (hcount ▸ Nat.lt_succ_self _)
    have hconnected := hlistening.trans (.connect _ endpoint)
    simp only
    split
    · exact hconnected.trans (.forget _ _)
    · rename_i b₂ hsubscribe
      exact (hconnected.trans (.subscribe hendpoint hsubscribe)).trans (.of_eq rfl rfl)

/-- A connection that makes its own endpoint takes none of those that there are. -/
theorem openWith (hmade : ∀ e, P e → e < b.broker.endpoints.length) (settings : Settings) (types : TypeRegistry) :
    Untouched P b (b.openWith settings (.withBroker Listener Watcher) types).2 := by
  have hnew : ¬P b.broker.endpoints.length := fun h => Nat.lt_irrefl _ (hmade _ h)
  unfold Bus.openWith
  split
  · exact .refl b
  · rename_i identity _
    split
    · exact .refl b
    · rename_i endpoint broker hcreate
      obtain ⟨hendpoint, hbroker⟩ : endpoint = b.broker.create.1 ∧ broker = b.broker.create.2 :=
        Prod.ext_iff.1 (eq_create_of_withBroker hcreate)
      subst hendpoint hbroker
      have hcreated : Untouched P b { b with broker := b.broker.create.2 } := .create b
      have hopened := hcreated.trans
        (.openOn hnew identity (.empty types settings.codec settings.encoderPoolSize.toNat))
      simp only
      split <;> rename_i hopen <;> rw [show b.broker.endpoints.length = b.broker.create.1 from rfl, hopen] at hopened
      · exact hopened
      · exact hopened.trans (.updateClient fun _ _ => ⟨rfl, rfl⟩)

/-- Closing a connection on an endpoint of its own is nothing to the other endpoints. -/
theorem close {client : Nat} (hline : ∀ e c, P e → b.clients[client]? = some c → c.line ≠ .endpoint e) :
    Untouched P b (b.close client).2 := by
  unfold Bus.close
  split
  · exact .refl b
  · rename_i c hc
    split
    · exact .refl b
    · rename_i endpoint hendpoint
      split
      · split
        · exact .refl b
        · rename_i b₁ hunsubscribe
          have hother : ¬P endpoint := fun he => hline endpoint c he hc hendpoint
          exact ((Untouched.unsubscribe hother hunsubscribe).trans (.disconnect b₁ endpoint)).trans (.of_eq rfl rfl)
      · exact .refl b

/-! ### Clients -/

theorem attachTo (b : Bus) (client : Nat) (subject : Subject) (route : Route) :
    Untouched P b (b.attachTo client (·.attach subject route)).2 := by
  rcases b.attachTo_cases client (·.attach subject route) with ⟨_, heq⟩ | ⟨c, c', hc, ha, heq⟩ <;> rw [heq]
  · exact .refl b
  · obtain ⟨tree, -, rfl⟩ := Client.exists_tree_of_attach ha
    refine .updateClient fun c₁ hc₁ => ?_
    obtain rfl : c = c₁ := Option.some.inj (hc.symm.trans hc₁)
    exact ⟨rfl, rfl⟩

theorem detachFrom (b : Bus) (client : Nat) (subject : Subject) (chosen : Route → Bool) :
    Untouched P b (b.detachFrom client (·.detach subject chosen)).2 := by
  rcases b.detachFrom_cases client (·.detach subject chosen) with ⟨-, heq⟩ | ⟨c, hc, heq⟩ <;> rw [heq]
  · exact .refl b
  · refine .updateClient fun c₁ hc₁ => ?_
    obtain rfl : c = c₁ := Option.some.inj (hc.symm.trans hc₁)
    exact ⟨rfl, rfl⟩

theorem request (hb : b.Sound) (client : Nat) (id : CorrelationId) (destination : Destination) (subject : Subject)
    (payloads : List Payload) (expected : ExpectedReplies) (timeoutMs : Nat) :
    Untouched P b (b.request client id destination subject payloads expected timeoutMs).2 := by
  rcases request_cases hb (sparing_none b) client id destination subject payloads expected timeoutMs
    (fun _ _ => trivial) with ⟨e, heq⟩ | ⟨c, prepared, b', hc, hp, hheard, hpublished⟩
  · rw [heq]
    exact .refl b
  · have hprepared : Untouched P b (b.updateClient client fun _ => prepared) := by
      refine .updateClient fun c₁ hc₁ => ?_
      obtain rfl : c = c₁ := Option.some.inj (hc.symm.trans hc₁)
      obtain ⟨tree, -, rfl⟩ := Client.exists_tree_of_prepareRequest hp
      exact ⟨rfl, rfl⟩
    have hpublishing : Untouched P b b' := hprepared.trans (.of_changed hheard)
    rcases hpublished with ⟨e, event, heq⟩ | heq <;> rw [heq]
    · refine (hpublishing.trans (.updateClient fun _ _ => ?_)).trans (.of_eq rfl rfl)
      exact ⟨rfl, rfl⟩
    · refine (hpublishing.trans (.updateClient fun _ _ => ?_)).trans (.of_eq rfl rfl)
      exact ⟨rfl, rfl⟩

theorem fire (b : Bus) (t : Timer) : Untouched P b (b.fire t) := by
  obtain ⟨hclients, hbroker, -⟩ := b.fire_fields t
  have hended : Untouched P b (b.updateClient t.client fun c => (c.endRequest t.request).2) :=
    .updateClient fun c _ => ⟨c.identity_endRequest t.request, c.line_endRequest t.request⟩
  exact hended.trans (.of_eq hbroker hclients)

theorem fires (b : Bus) (ts : List Timer) : Untouched P b (ts.foldl Bus.fire b) := by
  induction ts generalizing b with
  | nil => exact .refl b
  | cons t ts ih => exact (fire b t).trans (ih (b.fire t))

/-! ### All operations -/

/-- An operation leaves the endpoints alone that it leaves to their connections, unless it closes one of these. -/
theorem perform (hb : b.Sound) (hmade : ∀ e, P e → e < b.broker.endpoints.length) {o : Operation}
    (ho : ∀ e, P e → o.LeavesTo e)
    (hclose : ∀ client c e, o = .close client → b.clients[client]? = some c → P e → c.line ≠ .endpoint e) :
    Untouched P b (b.perform o) := by
  have hspare := sparing_none b
  cases o with
  | create => exact .create b
  | watch endpoint watcher => exact .watch b endpoint watcher
  | connect endpoint => exact .connect b endpoint
  | disconnect endpoint => exact .disconnect b endpoint
  | lose endpoint cause => exact .lose b endpoint cause
  | subscribe endpoint filters => exact .toOption_getD fun b' h => .subscribe (fun he => ho endpoint he rfl) h
  | unsubscribe endpoint filters => exact .toOption_getD fun b' h => .unsubscribe (fun he => ho endpoint he rfl) h
  | tap filters => exact .addTap hmade filters
  | join identity types standard capacity line =>
    unfold Bus.perform
    simp only
    split
    · rename_i hjoin
      exact .join ho hjoin
    · exact .refl b
  | openOn identity endpoint types standard capacity => exact .openOn (fun he => ho endpoint he rfl) identity _
  | openWith settings types => exact .openWith hmade settings types
  | close client => exact .close fun e c he hc => hclose client c e rfl hc he
  | forget client => exact .forget b client
  | register client subject h => exact .attachTo b client subject _
  | unregister client subject name => exact .detachFrom b client subject _
  | listen client subject h => exact .attachTo b client subject _
  | unlisten client subject name => exact .detachFrom b client subject _
  | publish client topic packet codec =>
    exact .of_changed (hspare.changed_publishBy hb b.room client codec fun _ _ _ _ => trivial)
  | notify client destination subject payloads =>
    exact .of_changed (hspare.changed_notify hb client destination subject payloads fun _ _ => trivial)
  | inject endpoint message => exact .of_changed (hspare.changed_inject hb endpoint trivial)
  | dispatch client message => exact .of_changed (hspare.changed_dispatch hb client trivial)
  | request client id destination subject payloads expected timeoutMs =>
    exact .request hb client id destination subject payloads expected timeoutMs
  | advance ms =>
    have hlater : Untouched P b (b.later ms) := .of_eq rfl rfl
    exact hlater.trans (.fires (b.later ms) _)

end Untouched

/-- Who listens anywhere is a client. -/
theorem lt_length_of_listener (room : Nat) (operations : List Operation) {e i : Nat}
    (h : (((empty room).performAll operations).broker.endpoint e).listener = some (.client i)) :
    i < ((empty room).performAll operations).clients.length := by
  induction operations using List.reverseRecOn with
  | nil => cases h
  | append_singleton operations o ih =>
    rw [performAll, List.foldl_concat] at h ⊢
    have hstep : Untouched (fun _ => False) ((empty room).performAll operations)
        (((empty room).performAll operations).perform o) :=
      .perform (sound_performAll room operations) nofun nofun nofun
    rcases hstep.listeners h with hold | ⟨-, hnew⟩
    · exact Nat.lt_of_lt_of_le (ih hold) hstep.count
    · exact hnew

/-! ### One connection -/

/-- A client is the connection of an endpoint: its line is there and no other is, it listens there and nowhere else,
and the endpoint has the filters of its topics if they are subscribed to, and no others. -/
structure Moored (b : Bus) (j e : Nat) (identity : Identity) (subscribed : Prop) : Prop where
  made : e < b.broker.endpoints.length
  client : ∃ c, b.clients[j]? = some c ∧ c.identity = identity ∧ c.line = .endpoint e
  alone : ∀ {i : Nat} {c : Client}, b.clients[i]? = some c → c.line = .endpoint e → i = j
  listener : (b.broker.endpoint e).listener = some (.client j)
  elsewhere : ∀ {e'}, (b.broker.endpoint e').listener = some (.client j) → e' = e
  filters : ∀ f, f ∈ (b.broker.endpoint e).filters ↔ subscribed ∧ f ∈ identity.filters

/-- A message on the topic reaches the client, which dispatches it. -/
def Hears (b : Bus) (j : Nat) (topic : String) : Prop :=
  j ∈ b.reachedClients topic ∧ (b.clients[j]?).any (·.present) = true

/-- The connection of an endpoint is closed on the way, and at that time the endpoint is connected. -/
def Parts (b : Bus) (j e : Nat) (operations : List Operation) : Prop :=
  ∃ before after, operations = before ++ .close j :: after ∧ (b.performAll before).broker.isConnected e = true

variable {j e : Nat} {identity : Identity} {subscribed : Prop}

theorem not_parts_nil : ¬b.Parts j e [] := by
  rintro ⟨before, after, h, -⟩
  simp at h

theorem parts_cons {o : Operation} {operations : List Operation} : b.Parts j e (o :: operations) ↔
    o = .close j ∧ b.broker.isConnected e = true ∨ (b.perform o).Parts j e operations := by
  constructor
  · rintro ⟨before, after, h, hconnected⟩
    cases before with
    | nil =>
      obtain ⟨rfl, -⟩ := List.cons.inj h
      exact .inl ⟨rfl, hconnected⟩
    | cons first before =>
      obtain ⟨rfl, rfl⟩ := List.cons.inj h
      exact .inr ⟨before, after, rfl, hconnected⟩
  · rintro (⟨rfl, hconnected⟩ | ⟨before, after, rfl, hconnected⟩)
    · exact ⟨[], operations, rfl, hconnected⟩
    · exact ⟨o :: before, after, rfl, hconnected⟩

namespace Moored

theorem congr {subscribed' : Prop} (h : b.Moored j e identity subscribed) (hiff : subscribed ↔ subscribed') :
    b.Moored j e identity subscribed' := propext hiff ▸ h

theorem untouched (h : b.Moored j e identity subscribed) (hu : Untouched (· = e) b b') :
    b'.Moored j e identity subscribed where
  made := Nat.lt_of_lt_of_le h.made hu.endpoints
  client := by
    obtain ⟨c, hc, hidentity, hline⟩ := h.client
    obtain ⟨c', hc', hidentity', hline'⟩ := hu.client hc
    exact ⟨c', hc', hidentity'.trans hidentity, hline'.trans hline⟩
  alone := by
    intro i c' hc' hline'
    rcases hu.clients hc' with ⟨c, hc, -, hline⟩ | ⟨-, hline⟩
    · exact h.alone hc (hline.symm.trans hline')
    · exact absurd hline' (hline e rfl)
  listener := (hu.listener rfl).trans h.listener
  elsewhere := by
    intro e' hlistener
    obtain ⟨c, hc, -⟩ := h.client
    rcases hu.listeners hlistener with hold | ⟨hnew, -⟩
    · exact h.elsewhere hold
    · exact absurd (List.getElem?_eq_some_iff.1 hc).1 (Nat.not_lt.2 hnew)
  filters := by
    rw [hu.filters rfl]
    exact h.filters

/-- A message reaches the client while its endpoint is connected and it subscribes to the topic. -/
theorem mem_reachedClients_iff (h : b.Moored j e identity subscribed) (hb : b.Sound) (topic : String) :
    j ∈ b.reachedClients topic ↔
      subscribed ∧ b.broker.isConnected e = true ∧ identity.filters.any (Filter.covering · topic) = true := by
  have hsubscribes : (b.broker.endpoint e).accepts topic = true ↔
      subscribed ∧ identity.filters.any (Filter.covering · topic) = true := by
    simp only [Endpoint.accepts, List.any_eq_true, h.filters]
    constructor
    · rintro ⟨f, ⟨hsubscribed, hf⟩, hcovering⟩
      exact ⟨hsubscribed, f, hf, hcovering⟩
    · rintro ⟨hsubscribed, f, hf, hcovering⟩
      exact ⟨f, ⟨hsubscribed, hf⟩, hcovering⟩
  rw [mem_reachedClients]
  constructor
  · rintro ⟨e', he', haccepts, hlistener⟩
    cases h.elsewhere hlistener
    obtain ⟨hsubscribed, hcovering⟩ := hsubscribes.1 haccepts
    exact ⟨hsubscribed, (hb.broker.online e).1 he', hcovering⟩
  · rintro ⟨hsubscribed, hconnected, hcovering⟩
    exact ⟨e, (hb.broker.online e).2 hconnected, hsubscribes.2 ⟨hsubscribed, hcovering⟩, h.listener⟩

/-- Its messages are dispatched by the client while its endpoint is connected. -/
theorem hears_iff (h : b.Moored j e identity subscribed) (hb : b.Sound) (topic : String) :
    b.Hears j topic ↔ subscribed ∧ b.broker.isConnected e = true ∧ (b.clients[j]?).any (·.present) = true ∧
      identity.filters.any (Filter.covering · topic) = true := by
  rw [Hears, h.mem_reachedClients_iff hb]
  constructor
  · rintro ⟨⟨hsubscribed, hconnected, hcovering⟩, hpresent⟩
    exact ⟨hsubscribed, hconnected, hpresent, hcovering⟩
  · rintro ⟨hsubscribed, hconnected, hpresent, hcovering⟩
    exact ⟨⟨hsubscribed, hconnected, hcovering⟩, hpresent⟩

/-- The filters change by a step of the broker that gives no endpoint another listener. -/
theorem of_step (h : b.Moored j e identity subscribed) (step : BrokerStep Listener Watcher)
    (hstep : ∀ e' listener, step ≠ .setListener e' listener) {subscribed' : Prop}
    (hfilters : ∀ f, f ∈ ((b.broker.perform step).2.endpoint e).filters ↔
      subscribed' ∧ f ∈ identity.filters) :
    { b with broker := (b.broker.perform step).2 }.Moored j e identity subscribed' := by
  have hlistener : ∀ e', ((b.broker.perform step).2.endpoint e').listener = (b.broker.endpoint e').listener := by
    intro e'
    rcases b.broker.listener_perform_cases step e' with hsame | ⟨listener, hset, -⟩
    · exact hsame
    · exact absurd hset (hstep e' listener)
  refine ⟨?_, h.client, h.alone, (hlistener e).trans h.listener, fun {e'} he' => ?_, hfilters⟩
  · exact Nat.lt_of_lt_of_le h.made (b.broker.le_length_endpoints_perform step)
  · exact h.elsewhere ((hlistener e').symm.trans he')

/-- The topics are subscribed to. -/
theorem subscribe (h : b.Moored j e identity False) (hb' : b.subscribe e identity.filters = .ok b') :
    b'.Moored j e identity True := by
  obtain ⟨broker, hbroker, rfl⟩ := exists_broker_of_subscribe hb'
  have hstep := Broker.perform_subscribe_of_eq_ok hbroker
  have hfilters : ∀ f, f ∈ ((b.broker.perform (.subscribe e identity.filters)).2.endpoint e).filters ↔
      True ∧ f ∈ identity.filters := by
    intro f
    rw [Broker.mem_filters_perform, h.filters, hstep]
    simp [BrokerRecord.Adds, BrokerOutcome.telling]
  have hmoored := h.of_step (.subscribe e identity.filters) (by simp) hfilters
  rwa [hstep] at hmoored

/-- The topics are taken back. -/
theorem unsubscribe (h : b.Moored j e identity subscribed) (hb' : b.unsubscribe e identity.filters = .ok b') :
    b'.Moored j e identity False := by
  obtain ⟨broker, hbroker, rfl⟩ := exists_broker_of_unsubscribe hb'
  have hstep := Broker.perform_unsubscribe_of_eq_ok hbroker
  have hfilters : ∀ f, f ∈ ((b.broker.perform (.unsubscribe e identity.filters)).2.endpoint e).filters ↔
      False ∧ f ∈ identity.filters := by
    intro f
    rw [Broker.mem_filters_perform, h.filters, hstep]
    simp [BrokerRecord.Adds, BrokerRecord.Drops, BrokerOutcome.telling]
  have hmoored := h.of_step (.unsubscribe e identity.filters) (by simp) hfilters
  rwa [hstep] at hmoored

/-- Closing the connection succeeds, and takes its topics back if the endpoint is connected. -/
theorem close (h : b.Moored j e identity subscribed) :
    (b.close j).1 = .ok () ∧ (b.close j).2.Moored j e identity (subscribed ∧ ¬b.broker.isConnected e = true) := by
  obtain ⟨c, hc, rfl, hline⟩ := h.client
  unfold Bus.close
  simp only [hc, hline]
  split
  · rename_i hconnected
    split
    · rename_i refused hrefused
      simp [Bus.unsubscribe, Broker.unsubscribe, Broker.requireConnected, hconnected, bind, Except.bind, pure,
        Except.pure] at hrefused
    · rename_i b₁ hunsubscribed
      refine ⟨rfl, ((h.unsubscribe hunsubscribed).untouched ?_).congr (by simp [hconnected])⟩
      exact (Untouched.disconnect b₁ e).trans (.of_eq rfl rfl)
  · rename_i hlost
    exact ⟨rfl, h.congr (by simp [hlost])⟩

theorem perform (h : b.Moored j e identity subscribed) (hb : b.Sound) {o : Operation} (ho : o.LeavesTo e) :
    (b.perform o).Moored j e identity (subscribed ∧ ¬(o = .close j ∧ b.broker.isConnected e = true)) := by
  by_cases hclose : o = .close j
  · subst hclose
    exact h.close.2.congr (by simp)
  · have hkept : Untouched (· = e) b (b.perform o) := by
      refine .perform hb ?_ ?_ ?_
      · rintro _ rfl
        exact h.made
      · rintro _ rfl
        exact ho
      · rintro client c _ rfl hc rfl hline
        exact hclose (congrArg Operation.close (h.alone hc hline))
    exact (h.untouched hkept).congr (by simp [hclose])

theorem performAll (h : b.Moored j e identity subscribed) (hb : b.Sound) {operations : List Operation}
    (ho : ∀ o ∈ operations, o.LeavesTo e) :
    (b.performAll operations).Moored j e identity (subscribed ∧ ¬b.Parts j e operations) := by
  induction operations generalizing b subscribed with
  | nil => exact h.congr (by simp [not_parts_nil])
  | cons o operations ih =>
    rw [List.forall_mem_cons] at ho
    refine (ih (h.perform hb ho.1) (hb.perform o) ho.2).congr ?_
    rw [parts_cons, not_or, and_assoc]

/-- A client that listens nowhere takes an endpoint that has no filters, and on which there is no other line. -/
theorem of_setListener {c : Client} (hc : b.clients[j]? = some c) (hline : c.line = .endpoint e)
    (halone : ∀ {i : Nat} {c : Client}, b.clients[i]? = some c → c.line = .endpoint e → i = j)
    (hnowhere : ∀ e', (b.broker.endpoint e').listener ≠ some (.client j))
    (hfilters : (b.broker.endpoint e).filters = [])
    (hmade : e < (b.broker.setListener e (.client j)).endpoints.length) :
    { b with broker := b.broker.setListener e (.client j) }.Moored j e c.identity False := by
  have hlt : e < b.broker.endpoints.length := by
    rwa [Broker.setListener, Broker.update, List.length_modify] at hmade
  refine ⟨hmade, ⟨c, hc, rfl, hline⟩, halone, ?_, fun {e'} he' => ?_, fun f => ?_⟩
  · simp only [Broker.endpoint_setListener, hlt, and_self, if_true]
  · simp only [Broker.endpoint_setListener] at he'
    split at he'
    · rename_i heq
      exact heq.1.symm
    · exact absurd he' (hnowhere e')
  · simp only [Broker.endpoint_setListener, hlt, and_self, if_true, hfilters]
    simp

end Moored

/-- Nobody has used the endpoint for a connection: it has no filters, and no client has its line there. -/
structure Unused (b : Bus) (e : Nat) : Prop where
  filters : (b.broker.endpoint e).filters = []
  lines : ∀ c ∈ b.clients, c.line ≠ .endpoint e

/-- Only an endpoint that was made can be connected and subscribe. -/
theorem lt_length_of_subscribe_connect {filters : List String} (h : (b.connect e).subscribe e filters = .ok b') :
    e < b.broker.endpoints.length := by
  obtain ⟨broker, hbroker, -⟩ := exists_broker_of_subscribe h
  have hconnected : (b.broker.connect e).2.isConnected e = true := by
    rw [← show (b.connect e).broker = (b.broker.connect e).2 from (changed_tellWatchers _ _).broker]
    by_contra hoff
    simp [Broker.subscribe, Broker.requireConnected, hoff, bind, Except.bind] at hbroker
  by_contra hge
  rw [Broker.isConnected, Broker.endpoint_connect, if_neg (fun hlt => hge hlt.2),
    Broker.endpoint_of_length_le (Nat.not_lt.1 hge)] at hconnected
  cases hconnected

/-- A connection that is opened on an endpoint that nobody has used has it for its own. -/
theorem moored_openOn (hunused : b.Unused e)
    (hlisteners : ∀ {e' i}, (b.broker.endpoint e').listener = some (.client i) → i < b.clients.length)
    {encoders : EncoderPool} (hopen : b.openOn identity e encoders = (.ok j, b')) : b'.Moored j e identity True := by
  unfold openOn at hopen
  split at hopen
  · cases hopen
  · rename_i client b₁ hjoin
    obtain ⟨rfl, hb₁⟩ := eq_of_join hjoin
    have hclients : b₁.clients = b.clients ++ [.of identity encoders (.endpoint e)] := by rw [hb₁]
    have hwatched : Untouched (fun _ => True) b₁ (b₁.watch e (.journal identity.text)) := .watch b₁ e _
    have hbroker : b₁.broker = b.broker := by rw [hb₁]
    simp only at hopen
    split at hopen
    · cases hopen
    · rename_i b₂ hsubscribe
      cases hopen
      have hseated := Moored.of_setListener (b := b₁.watch e (.journal identity.text)) (j := b.clients.length)
        (c := .of identity encoders (.endpoint e)) ?_ rfl ?_ ?_ ?_ (lt_length_of_subscribe_connect hsubscribe)
      · have hconnected := hseated.untouched (.connect _ e)
        exact (hconnected.subscribe hsubscribe).untouched (.of_eq rfl rfl)
      · change b₁.clients[b.clients.length]? = _
        rw [hclients]
        exact List.getElem?_concat_length
      · intro i c hc hline
        have hc' : (b.clients ++ [.of identity encoders (.endpoint e)])[i]? = some c := hclients ▸ hc
        rcases Nat.lt_or_ge i b.clients.length with hlt | hge
        · rw [List.getElem?_append_left hlt] at hc'
          exact absurd hline (hunused.lines c (List.mem_of_getElem? hc'))
        · have hlt := (List.getElem?_eq_some_iff.1 hc').1
          rw [List.length_append, List.length_singleton] at hlt
          omega
      · intro e' he'
        rw [hwatched.listener trivial, hbroker] at he'
        exact Nat.lt_irrefl _ (hlisteners he')
      · rw [hwatched.filters trivial, hbroker]
        exact hunused.filters

/-- Opening a connection as settings describe it is opening one on an endpoint that is made for it. -/
theorem exists_openOn_of_openWith {settings : Settings} {types : TypeRegistry}
    (h : b.openWith settings (.withBroker Listener Watcher) types = (.ok j, b')) :
    ∃ (identity : Identity) (encoders : EncoderPool) (opened : Bus), settings.identity? = .ok identity ∧
      b.createEndpoint.2.openOn identity b.broker.endpoints.length encoders = (.ok j, opened) ∧
        b' = opened.updateClient j fun c => { c with timeoutMs := settings.requestTimeoutMs.toNat } := by
  unfold openWith at h
  split at h
  · cases h
  · rename_i identity hidentity
    split at h
    · cases h
    · rename_i endpoint broker hcreate
      obtain ⟨hendpoint, hbroker⟩ : endpoint = b.broker.create.1 ∧ broker = b.broker.create.2 :=
        Prod.ext_iff.1 (eq_create_of_withBroker hcreate)
      subst hendpoint hbroker
      simp only at h
      split at h
      · cases h
      · rename_i client opened hopen
        cases h
        exact ⟨identity, _, opened, hidentity, hopen, rfl⟩

/-- A connection is opened, on an endpoint that nobody has used or on one that is made for it. -/
inductive Opens (b : Bus) (j e : Nat) (identity : Identity) (b' : Bus) : Prop
  | openOn (unused : b.Unused e) (encoders : EncoderPool) (sound : encoders.Sound)
      (opened : b.openOn identity e encoders = (.ok j, b'))
  | openWith (unused : b.createEndpoint.2.Unused e) (made : e = b.broker.endpoints.length) (settings : Settings)
      (types : TypeRegistry) (named : settings.identity? = .ok identity)
      (opened : b.openWith settings (.withBroker Listener Watcher) types = (.ok j, b'))

theorem Opens.sound (h : b.Opens j e identity b') (hb : b.Sound) : b'.Sound := by
  cases h with
  | openOn unused encoders sound opened =>
    have hevolved := (Evolved.openOn (W := fun _ _ => False) hb identity e sound).sound
    rwa [opened] at hevolved
  | openWith unused made settings types named opened =>
    have hevolved := (Evolved.openWith (W := fun _ _ => False) hb settings types).sound
    rwa [opened] at hevolved

theorem Opens.moored (h : b.Opens j e identity b')
    (hlisteners : ∀ {e' i}, (b.broker.endpoint e').listener = some (.client i) → i < b.clients.length) :
    b'.Moored j e identity True := by
  cases h with
  | openOn unused encoders sound opened => exact moored_openOn unused hlisteners opened
  | openWith unused made settings types named opened =>
    obtain ⟨identity', encoders, b₁, hnamed, hopen, rfl⟩ := exists_openOn_of_openWith opened
    obtain rfl : identity' = identity := Except.ok.inj (hnamed.symm.trans named)
    have hcreated : Untouched (fun _ => True) b b.createEndpoint.2 := .create b
    rw [← made] at hopen
    have hmoored := moored_openOn unused
      (fun {_ _} he' => hlisteners ((hcreated.listener trivial).symm.trans he')) hopen
    exact hmoored.untouched (.updateClient fun _ _ => ⟨rfl, rfl⟩)

/-- On an endpoint of its own, a connection hears what is published on its topics whenever the endpoint is connected,
until it is closed: closing always succeeds, but parts it from its topics only if the endpoint is connected at that
time. Once parted it hears nothing, however often the endpoint is connected again; if it was never parted it hears
everything, however often it has been closed. -/
theorem hears_iff_never_parted (room : Nat) (opening : List Operation)
    (hopens : ((empty room).performAll opening).Opens j e identity b) (operations : List Operation)
    (ho : ∀ o ∈ operations, o.LeavesTo e) :
    let b' := b.performAll operations
    (b'.close j).1 = .ok () ∧ ∀ topic, b'.Hears j topic ↔ ¬b.Parts j e operations ∧
      b'.broker.isConnected e = true ∧ (b'.clients[j]?).any (·.present) = true ∧
        identity.filters.any (Filter.covering · topic) = true := by
  intro b'
  have hb : b.Sound := hopens.sound (sound_performAll room opening)
  have hmoored := (hopens.moored (lt_length_of_listener room opening)).performAll hb ho
  refine ⟨hmoored.close.1, fun topic => ?_⟩
  rw [hmoored.hears_iff (hb.performAll operations), true_and]

private def sluice : Identity := ⟨["demo"], "plant", "gates", "sluice"⟩

private def keeper : Identity := ⟨["demo"], "plant", "control", "keeper"⟩

private def waterLevel : Subject := ⟨["level"]⟩

private def alarm : NotificationHandler := ⟨"alarm", fun _ _ => .ok ()⟩

/-- Two endpoints, and a sluice on the first of them. -/
private def sluiceOpened : Except BusError Nat × Bus :=
  (empty.performAll [.create, .create]).openOn sluice 0 (.empty .standard .json 4)

/-- The sluice hears nothing after it was closed and connected again, but it does if its connection was lost before it
was closed. -/
theorem hears_iff_never_parted_sluice :
    ¬(sluiceOpened.2.performAll [.close 0, .connect 0]).Hears 0 "demo.plant.gates.sluice.level" ∧
      (sluiceOpened.2.performAll [.lose 0 "cable", .close 0, .connect 0]).Hears 0
        "demo.plant.gates.sluice.level" := by
  have hopens : (empty.performAll [.create, .create]).Opens 0 0 sluice sluiceOpened.2 :=
    .openOn ⟨rfl, nofun⟩ (.empty .standard .json 4) (EncoderPool.sound_empty .standard .json 4) rfl
  constructor
  · obtain ⟨-, hears⟩ := hears_iff_never_parted usualRoom [.create, .create] hopens
      [.close 0, .connect 0] (by simp [Operation.LeavesTo])
    rw [hears, parts_cons]
    exact fun h => h.1 (.inl ⟨rfl, rfl⟩)
  · obtain ⟨-, hears⟩ := hears_iff_never_parted usualRoom [.create, .create] hopens
      [.lose 0 "cable", .close 0, .connect 0] (by simp [Operation.LeavesTo])
    rw [hears, parts_cons, parts_cons, parts_cons]
    refine ⟨?_, rfl, rfl, by decide⟩
    rintro (⟨⟨⟩, -⟩ | ⟨-, ⟨⟩⟩ | ⟨⟨⟩, -⟩ | hnil)
    exact not_parts_nil hnil

/-- The connection of the sluice is lost, closed without an error and made again: then what the keeper publishes is
handled by the sluice. -/
theorem closed_sluice_handles :
    let lost := sluiceOpened.2.performAll
      [.listen 0 waterLevel alarm, .openOn keeper 1 .standard .json 4, .lose 0 "cable"]
    let again := (lost.close 0).2.connect 0
    sluiceOpened.1 = .ok 0 ∧ (lost.close 0).1 = .ok () ∧
      (again.notify 1 (.client "gates" "sluice") waterLevel []).2.events.any
        (fun | .handled 0 "alarm" _ _ => true | _ => false) = true := by
  refine ⟨rfl, rfl, ?_⟩
  decide +kernel

end Bus

end Switchboard
