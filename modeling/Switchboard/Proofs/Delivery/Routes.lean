import Mathlib.Data.List.InsertIdx
import Switchboard.Proofs.DispatchShape
import Switchboard.Proofs.Delivery.Awaiting

/-!
# Where routes come from and where they go

Routes are bound and released by a few operations: handlers come and go, requests are made, and timers fire. All
others leave the routes of each client as they are, and so does a request that cannot be published (`Bus.SameRoutes`):
the route of its replies, which was attached before, is detached again, with all nodes that were made for it.

That holds because the trees of clients are pruned, and stay so whatever is done (`Bus.pruned_performAll`).
-/

namespace Switchboard

/-! ### Clients -/

/-- Two states of a client with the same routes, and with requests that have the same ids. -/
structure Client.SameRoutes (c c' : Client) : Prop where
  identity : c'.identity = c.identity
  tree : c'.tree = c.tree
  ids : c'.requests.map (·.collector.id) = c.requests.map (·.collector.id)

namespace Client

variable {c c' c'' : Client}

theorem SameRoutes.refl (c : Client) : c.SameRoutes c := ⟨rfl, rfl, rfl⟩

theorem SameRoutes.trans (h : c.SameRoutes c') (h' : c'.SameRoutes c'') : c.SameRoutes c'' :=
  ⟨h'.identity.trans h.identity, h'.tree.trans h.tree, h'.ids.trans h.ids⟩

theorem Changed.sameRoutes {ρ : RequestChange} (hρ : ∀ j k r r', ρ j k r r' → r'.collector.id = r.collector.id)
    {j : Nat} (h : c.Changed ρ j c') : c.SameRoutes c' := by
  refine ⟨h.identity, h.tree, List.ext_getElem? fun k => ?_⟩
  rw [List.getElem?_map, List.getElem?_map]
  cases hr : c.requests[k]? with
  | none =>
    have hnone : c'.requests[k]? = none := by
      rw [List.getElem?_eq_none_iff] at hr ⊢
      rwa [h.count]
    rw [hnone]
  | some r =>
    obtain ⟨r', hr', hrel⟩ := h.requests hr
    rw [hr', Option.map_some, Option.map_some, hρ j k r r' hrel]

theorem sameRoutes_updateCollector (c : Client) (serial : Nat) {f : ReplyCollector → ReplyCollector}
    (hf : ∀ collector, (f collector).id = collector.id) : c.SameRoutes (c.updateCollector serial f) := by
  refine ⟨rfl, rfl, List.ext_getElem? fun k => ?_⟩
  simp only [updateCollector, List.getElem?_map, List.getElem?_modify]
  cases c.requests[k]? with
  | none => rfl
  | some r =>
    by_cases hk : serial = k
    · simp [hk, hf]
    · simp [hk]

theorem sameRoutes_confirmRequest (c : Client) (serial : Nat) : c.SameRoutes (c.confirmRequest serial) :=
  c.sameRoutes_updateCollector serial fun collector => collector.id_replies_markSent.1

/-- A request that was entered and is taken back leaves the routes as they were before, to the last node. -/
theorem Sound.sameRoutes_withdraw (hc : c.Sound) (hpruned : c.tree.Pruned) {prepared : Client} {header : RpcHeader}
    {id : CorrelationId} {expected : ExpectedReplies} (hp : c.prepareRequest header id expected = .ok prepared)
    (hheard : prepared.SameRoutes c') : c.SameRoutes (c'.withdrawRequest c.requests.length id) := by
  obtain ⟨tree, hadd, rfl⟩ := exists_tree_of_prepareRequest hp
  refine ⟨hheard.identity, ?_, ?_⟩
  · have hpath : c'.replyPath id = c.replyPath id := by rw [replyPath, hheard.identity]; rfl
    change (c'.tree.removeIf (c'.replyPath id) _).2 = _
    rw [hpath, hheard.tree]
    exact hc.wellFormed.removeIf_add hpruned hadd (by simp [Route.isReplyTo])
  · have hids := hheard.ids
    rw [List.map_append] at hids
    change (c'.requests.eraseIdx c.requests.length).map _ = _
    rw [← List.eraseIdx_map, hids, List.eraseIdx_append_of_length_le (by simp)]
    simp

end Client

/-! ### The bus -/

namespace Bus

/-- Two states of a bus with the same timers, between which all clients keep their routes, and new ones have none. -/
structure SameRoutes (b b' : Bus) : Prop where
  clients : ∀ {j : Nat} {c : Client}, b.clients[j]? = some c → ∃ c', b'.clients[j]? = some c' ∧ c.SameRoutes c'
  new : ∀ {j : Nat} {c' : Client}, b'.clients[j]? = some c' → (∃ c, b.clients[j]? = some c) ∨
    c'.tree = .empty c'.identity ∧ c'.requests = []
  timers : b'.timers = b.timers

variable {b b' b'' : Bus}

namespace SameRoutes

theorem of_eq (h : b'.clients = b.clients) (htimers : b'.timers = b.timers) : b.SameRoutes b' :=
  ⟨fun hc => ⟨_, h ▸ hc, .refl _⟩, fun hc' => .inl ⟨_, h ▸ hc'⟩, htimers⟩

theorem refl (b : Bus) : b.SameRoutes b := .of_eq rfl rfl

theorem trans (h : b.SameRoutes b') (h' : b'.SameRoutes b'') : b.SameRoutes b'' := by
  refine ⟨fun hc => ?_, fun {j c''} hc'' => ?_, h'.timers.trans h.timers⟩
  · obtain ⟨c', hc', hsame⟩ := h.clients hc
    obtain ⟨c'', hc'', hsame'⟩ := h'.clients hc'
    exact ⟨c'', hc'', hsame.trans hsame'⟩
  · rcases h'.new hc'' with ⟨c', hc'⟩ | hnew
    · rcases h.new hc' with hold | ⟨htree, hrequests⟩
      · exact .inl hold
      · -- the client was new before it went on
        obtain ⟨c₁, hc₁, hsame⟩ := h'.clients hc'
        obtain rfl : c₁ = c'' := Option.some.inj (hc₁.symm.trans hc'')
        have hids := hsame.ids
        rw [hrequests, List.map_nil, List.map_eq_nil_iff] at hids
        exact .inr ⟨by rw [hsame.tree, htree, hsame.identity], hids⟩
    · exact .inr hnew

theorem of_changed {ρ : RequestChange} (hρ : ∀ j k r r', ρ j k r r' → r'.collector.id = r.collector.id)
    (h : Changed ρ b b') : b.SameRoutes b' := by
  refine ⟨fun hc => ?_, fun hc' => ?_, h.timers⟩
  · obtain ⟨c', hc', hchanged⟩ := h.clients hc
    exact ⟨c', hc', hchanged.sameRoutes hρ⟩
  · obtain ⟨c, hc, -⟩ := h.exists_before hc'
    exact .inl ⟨c, hc⟩

theorem of_watching {W : Nat → Nat → Prop} (h : Changed (.watching W) b b') : b.SameRoutes b' :=
  .of_changed (fun _ _ _ _ hr => hr.1) h

theorem of_changed_none (h : Changed .none b b') : b.SameRoutes b' :=
  .of_changed (fun _ _ r r' (hr : r' = r) => by rw [hr]) h

theorem updateClient {j : Nat} {f : Client → Client} (hf : ∀ c, b.clients[j]? = some c → c.SameRoutes (f c)) :
    b.SameRoutes (b.updateClient j f) := by
  refine ⟨fun {i c} hc => ?_, fun {i c'} hc' => .inl ?_, rfl⟩
  · rw [clients_updateClient]
    split
    · rename_i hi
      subst hi
      exact ⟨f c, by rw [hc]; rfl, hf c hc⟩
    · exact ⟨c, hc, .refl c⟩
  · rw [clients_updateClient] at hc'
    split at hc'
    · obtain ⟨c, hc, -⟩ := Option.map_eq_some_iff.1 hc'
      exact ⟨c, hc⟩
    · exact ⟨c', hc'⟩

/-! ### Endpoints -/

theorem withBroker (b : Bus) (broker : Broker Listener Watcher) : b.SameRoutes { b with broker := broker } :=
  .of_eq rfl rfl

theorem connect (b : Bus) (endpoint : Nat) : b.SameRoutes (b.connect endpoint) :=
  (withBroker b (b.broker.connect endpoint).2).trans (.of_changed_none (changed_tellWatchers _ _))

theorem disconnect (b : Bus) (endpoint : Nat) : b.SameRoutes (b.disconnect endpoint) :=
  (of_changed_none (changed_tellWatchers b (b.broker.disconnect endpoint).1)).trans (.withBroker _ _)

theorem lose (b : Bus) (endpoint : Nat) (cause : String) : b.SameRoutes (b.lose endpoint cause) :=
  (withBroker b (b.broker.lose endpoint cause).2).trans (.of_changed_none (changed_tellWatchers _ _))

theorem subscribe {endpoint : Nat} {filters : List String} (h : b.subscribe endpoint filters = .ok b') :
    b.SameRoutes b' := by
  obtain ⟨broker, -, rfl⟩ := exists_broker_of_subscribe h
  exact .withBroker b broker

theorem unsubscribe {endpoint : Nat} {filters : List String} (h : b.unsubscribe endpoint filters = .ok b') :
    b.SameRoutes b' := by
  obtain ⟨broker, -, rfl⟩ := exists_broker_of_unsubscribe h
  exact .withBroker b broker

theorem toOption_getD {result : Except TransportError Bus} (h : ∀ b', result = .ok b' → b.SameRoutes b') :
    b.SameRoutes (result.toOption.getD b) := by
  cases result with
  | error e => exact .refl b
  | ok b' => exact h b' rfl

theorem addTap (b : Bus) (filters : List String) : b.SameRoutes (b.addTap filters).2 := by
  have hlistening := withBroker b (b.createEndpoint.2.broker.setListener b.createEndpoint.1 .tap)
  have hconnected := hlistening.trans (.connect _ b.createEndpoint.1)
  exact hconnected.trans (.toOption_getD fun b' h => .subscribe h)

/-! ### Opening and closing -/

theorem join {identity : Identity} {encoders : EncoderPool} {line : Line} {client : Nat}
    (hjoin : b.join identity encoders line = .ok (client, b')) : b.SameRoutes b' := by
  obtain ⟨-, rfl⟩ := eq_of_join hjoin
  refine ⟨fun {j c} hc => ⟨c, ?_, .refl c⟩, fun {j c'} hc' => ?_, rfl⟩
  · rw [List.getElem?_append_left (List.getElem?_eq_some_iff.1 hc).1, hc]
  · rcases Nat.lt_or_ge j b.clients.length with hlt | hge
    · exact .inl ⟨_, List.getElem?_eq_getElem hlt⟩
    · rw [List.getElem?_append_right hge, List.getElem?_singleton] at hc'
      split at hc'
      · cases hc'
        exact .inr ⟨rfl, rfl⟩
      · cases hc'

theorem forget (b : Bus) (client : Nat) : b.SameRoutes (b.forget client) := .updateClient fun _ _ => ⟨rfl, rfl, rfl⟩

theorem openOn (b : Bus) (identity : Identity) (endpoint : Nat) (encoders : EncoderPool) :
    b.SameRoutes (b.openOn identity endpoint encoders).2 := by
  unfold Bus.openOn
  split
  · exact .refl b
  · rename_i client b₁ hjoin
    have hlistening := (join hjoin).trans
      (.withBroker b₁ ((b₁.watch endpoint (.journal identity.text)).broker.setListener endpoint (.client client)))
    have hconnected := hlistening.trans (.connect _ endpoint)
    simp only
    split
    · exact hconnected.trans (.forget _ client)
    · rename_i b₂ hsubscribe
      exact (hconnected.trans (.subscribe hsubscribe)).trans (.of_eq rfl rfl)

theorem openWith (b : Bus) (settings : Settings) (transports : TransportRegistry (Broker Listener Watcher))
    (types : TypeRegistry) : b.SameRoutes (b.openWith settings transports types).2 := by
  unfold Bus.openWith
  split
  · exact .refl b
  · rename_i identity _
    split
    · exact .refl b
    · rename_i endpoint broker _
      have hopened := (withBroker b broker).trans
        (.openOn _ identity endpoint (.empty types settings.codec settings.encoderPoolSize.toNat))
      simp only
      split <;> rename_i hopen <;> rw [hopen] at hopened
      · exact hopened
      · exact hopened.trans (.updateClient fun _ _ => ⟨rfl, rfl, rfl⟩)

theorem close (b : Bus) (client : Nat) : b.SameRoutes (b.close client).2 := by
  unfold Bus.close
  split
  · exact .refl b
  · split
    · exact .refl b
    · rename_i endpoint _
      split
      · split
        · exact .refl b
        · rename_i b₁ hunsubscribe
          exact ((SameRoutes.unsubscribe hunsubscribe).trans (.disconnect b₁ endpoint)).trans (.of_eq rfl rfl)
      · exact .refl b

end SameRoutes

/-- The operations that bind or release routes. -/
def Reroutes : Operation → Prop
  | .register _ _ _ | .unregister _ _ _ | .listen _ _ _ | .unlisten _ _ _ => True
  | .request _ _ _ _ _ _ _ | .advance _ => True
  | _ => False

/-- All other operations leave the routes as they are. -/
theorem SameRoutes.perform (hb : b.Sound) {o : Operation} (ho : ¬Reroutes o) : b.SameRoutes (b.perform o) := by
  have hspare := sparing_none b
  cases o with
  | create => exact .withBroker b _
  | watch endpoint watcher => exact .withBroker b _
  | connect endpoint => exact .connect b endpoint
  | disconnect endpoint => exact .disconnect b endpoint
  | lose endpoint cause => exact .lose b endpoint cause
  | subscribe endpoint filters => exact .toOption_getD fun b' h => .subscribe h
  | unsubscribe endpoint filters => exact .toOption_getD fun b' h => .unsubscribe h
  | tap filters => exact .addTap b filters
  | join identity types standard capacity line =>
    unfold Bus.perform
    simp only
    split
    · rename_i hjoin
      exact .join hjoin
    · exact .refl b
  | openOn identity endpoint types standard capacity => exact .openOn b identity endpoint _
  | openWith settings types => exact .openWith b settings _ types
  | close client => exact .close b client
  | forget client => exact .forget b client
  | publish client topic packet codec =>
    exact .of_watching (hspare.changed_publishBy hb b.room client codec fun _ _ _ _ => trivial)
  | notify client destination subject payloads =>
    exact .of_watching (hspare.changed_notify hb client destination subject payloads fun _ _ => trivial)
  | inject endpoint message => exact .of_watching (hspare.changed_inject hb endpoint trivial)
  | dispatch client message => exact .of_watching (hspare.changed_dispatch hb client trivial)
  | register _ _ _ | unregister _ _ _ | listen _ _ _ | unlisten _ _ _ => exact absurd trivial ho
  | request _ _ _ _ _ _ _ | advance _ => exact absurd trivial ho

/-! ### Requests -/

/-- The trees of all clients are pruned. -/
def Pruned (b : Bus) : Prop := ∀ {j : Nat} {c : Client}, b.clients[j]? = some c → c.tree.Pruned

/-- What a request that was published has done to routes: one leads to it, and it has a timer. -/
structure Requested (client : Nat) (id : CorrelationId) (due serial : Nat) (b b' : Bus) : Prop where
  asker : ∃ c c', b.clients[client]? = some c ∧ b'.clients[client]? = some c' ∧ c'.identity = c.identity ∧
    serial = c.requests.length ∧ c.tree.add (c.replyPath id) (.reply serial) = .ok c'.tree ∧
      c'.requests.map (·.collector.id) = c.requests.map (·.collector.id) ++ [id]
  others : ∀ {j : Nat} {c : Client}, client ≠ j → b.clients[j]? = some c →
    ∃ c', b'.clients[j]? = some c' ∧ c.SameRoutes c'
  count : b'.clients.length = b.clients.length
  timers : b'.timers = b.timers ++ [⟨due, client, serial⟩]

section Entered

variable {W : Nat → Nat → Prop} {client : Nat} {c prepared : Client} {header : RpcHeader} {id : CorrelationId}
  {expected : ExpectedReplies}

/-- What becomes of the other clients while a request is published. -/
theorem exists_other_of_entered (hheard : Changed (.watching W) (b.updateClient client fun _ => prepared) b')
    {j : Nat} {c₁ : Client} (hj : client ≠ j) (hc₁ : b.clients[j]? = some c₁) :
    ∃ c', b'.clients[j]? = some c' ∧ c₁.SameRoutes c' :=
  (SameRoutes.of_watching hheard).clients ((clients_updateClient_of_ne hj b fun _ => prepared).trans hc₁)

/-- A request that was entered and is taken back leaves the routes as they were. -/
theorem SameRoutes.withdraw (hb : b.Sound) (hpruned : b.Pruned) (hc : b.clients[client]? = some c)
    (hp : c.prepareRequest header id expected = .ok prepared)
    (hheard : Changed (.watching W) (b.updateClient client fun _ => prepared) b') :
    b.SameRoutes (b'.updateClient client (·.withdrawRequest c.requests.length id)) := by
  obtain ⟨heard, hget, hsame⟩ := (SameRoutes.of_watching hheard).clients
    (clients_updateClient_self hc fun _ => prepared)
  refine ⟨fun {j c₁} hc₁ => ?_, fun {j c'} hc' => .inl ?_, hheard.timers⟩
  · by_cases hj : client = j
    · subst hj
      obtain rfl : c = c₁ := Option.some.inj (hc.symm.trans hc₁)
      exact ⟨_, clients_updateClient_self hget _, (hb.clients hc).sameRoutes_withdraw (hpruned hc) hp hsame⟩
    · obtain ⟨c', hc', hkept⟩ := exists_other_of_entered hheard hj hc₁
      exact ⟨c', (clients_updateClient_of_ne hj b' _).trans hc', hkept⟩
  · have hlt := (List.getElem?_eq_some_iff.1 hc').1
    simp only [Bus.updateClient, List.length_modify, hheard.count] at hlt
    exact ⟨_, List.getElem?_eq_getElem hlt⟩

/-- A request that was entered and published has a route and a timer. -/
theorem Requested.confirm (hc : b.clients[client]? = some c) (hp : c.prepareRequest header id expected = .ok prepared)
    (hheard : Changed (.watching W) (b.updateClient client fun _ => prepared) b') (timeoutMs : Nat) :
    Requested client id (b.clock + timeoutMs) c.requests.length b
      { b'.updateClient client (·.confirmRequest c.requests.length) with
        timers := b'.timers ++ [⟨b'.clock + timeoutMs, client, c.requests.length⟩] } := by
  obtain ⟨heard, hget, hsame⟩ := (SameRoutes.of_watching hheard).clients
    (clients_updateClient_self hc fun _ => prepared)
  obtain ⟨tree, hadd, rfl⟩ := Client.exists_tree_of_prepareRequest hp
  have hconfirmed := hsame.trans (heard.sameRoutes_confirmRequest c.requests.length)
  refine ⟨⟨c, _, hc, clients_updateClient_self hget _, hconfirmed.identity, rfl, ?_, ?_⟩, fun {j c₁} hj hc₁ => ?_,
    ?_, ?_⟩
  · exact hadd.trans (congrArg Except.ok hconfirmed.tree.symm)
  · rw [hconfirmed.ids, List.map_append]
    rfl
  · obtain ⟨c', hc', hkept⟩ := exists_other_of_entered hheard hj hc₁
    exact ⟨c', (clients_updateClient_of_ne hj b' _).trans hc', hkept⟩
  · simp only [Bus.updateClient, List.length_modify, hheard.count]
  · rw [hheard.timers, hheard.clock]
    rfl

end Entered

/-- A request leaves the routes as they are, or it is published and there is a route for its replies. -/
theorem request_outcome (hb : b.Sound) (hpruned : b.Pruned) (client : Nat) (id : CorrelationId)
    (destination : Destination) (subject : Subject) (payloads : List Payload) (expected : ExpectedReplies)
    (timeoutMs : Nat) :
    let requested := b.request client id destination subject payloads expected timeoutMs
    (∃ e, requested.1 = .error e ∧ b.SameRoutes requested.2) ∨
      ∃ serial, requested.1 = .ok serial ∧ Requested client id (b.clock + timeoutMs) serial b requested.2 := by
  intro requested
  rcases request_cases hb (sparing_none b) client id destination subject payloads expected timeoutMs
    (fun _ _ => trivial) with ⟨e, heq⟩ | ⟨c, prepared, b', hc, hp, hheard, ⟨e, event, heq⟩ | heq⟩ <;>
    rw [show requested = _ from heq]
  · exact .inl ⟨e, rfl, .refl b⟩
  · exact .inl ⟨e, rfl, (SameRoutes.withdraw hb hpruned hc hp hheard).trans (.of_eq rfl rfl)⟩
  · exact .inr ⟨_, rfl, Requested.confirm hc hp hheard timeoutMs⟩

/-! ### Pruned trees -/

theorem pruned_empty (room : Nat) : (empty room).Pruned := by
  intro j c hc
  cases hc

theorem Pruned.sameRoutes (h : b.Pruned) (hsame : b.SameRoutes b') : b'.Pruned := by
  intro j c' hc'
  rcases hsame.new hc' with ⟨c, hc⟩ | ⟨htree, -⟩
  · obtain ⟨c₁, hc₁, hkept⟩ := hsame.clients hc
    obtain rfl : c₁ = c' := Option.some.inj (hc₁.symm.trans hc')
    rw [hkept.tree]
    exact h hc
  · rw [htree]
    exact DispatchTree.pruned_empty _

theorem Pruned.updateClient (h : b.Pruned) {j : Nat} {f : Client → Client}
    (hf : ∀ c, b.clients[j]? = some c → (f c).tree.Pruned) : (b.updateClient j f).Pruned := by
  intro i c' hc'
  rw [clients_updateClient] at hc'
  split at hc'
  · rename_i hi
    subst hi
    obtain ⟨c, hc, rfl⟩ := Option.map_eq_some_iff.1 hc'
    exact hf c hc
  · exact h hc'

theorem Pruned.attachTo (h : b.Pruned) (hb : b.Sound) (client : Nat) (subject : Subject) (route : Route) :
    (b.attachTo client (·.attach subject route)).2.Pruned := by
  rcases b.attachTo_cases client (·.attach subject route) with ⟨_, heq⟩ | ⟨c, c', hc, ha, heq⟩ <;> rw [heq]
  · exact h
  · obtain ⟨tree, hadd, rfl⟩ := Client.exists_tree_of_attach ha
    exact h.updateClient fun _ _ => (h hc).add (hb.clients hc).wellFormed hadd

theorem Pruned.detachFrom (h : b.Pruned) (hb : b.Sound) (client : Nat) (subject : Subject) (chosen : Route → Bool) :
    (b.detachFrom client (·.detach subject chosen)).2.Pruned := by
  rcases b.detachFrom_cases client (·.detach subject chosen) with ⟨-, heq⟩ | ⟨c, hc, heq⟩ <;> rw [heq]
  · exact h
  · exact h.updateClient fun _ _ => (h hc).removeIf (hb.clients hc).wellFormed _ _

theorem Pruned.requested (h : b.Pruned) (hb : b.Sound) {client due serial : Nat} {id : CorrelationId}
    (hr : Requested client id due serial b b') : b'.Pruned := by
  intro j c' hc'
  by_cases hj : client = j
  · subst hj
    obtain ⟨c, c₁, hc, hc₁, -, -, hadd, -⟩ := hr.asker
    obtain rfl : c₁ = c' := Option.some.inj (hc₁.symm.trans hc')
    exact (h hc).add (hb.clients hc).wellFormed hadd
  · have hlt := (List.getElem?_eq_some_iff.1 hc').1
    rw [hr.count] at hlt
    obtain ⟨c₁, hc₁, hkept⟩ := hr.others hj (List.getElem?_eq_getElem hlt)
    obtain rfl : c₁ = c' := Option.some.inj (hc₁.symm.trans hc')
    rw [hkept.tree]
    exact h (List.getElem?_eq_getElem hlt)

theorem Pruned.fires (h : b.Pruned) (hb : b.Sound) (ts : List Timer) : (ts.foldl fire b).Pruned := by
  induction ts generalizing b with
  | nil => exact h
  | cons t ts ih =>
    refine ih (fun {j c'} hc' => ?_) ((fired_fire b t).sound hb)
    obtain ⟨hclients, -⟩ := b.fire_fields t
    rw [hclients] at hc'
    refine h.updateClient (fun c hc => ?_) hc'
    obtain ⟨path, htree⟩ := c.exists_tree_endRequest t.request
    rw [htree]
    exact (h hc).removeIf (hb.clients hc).wellFormed path _

theorem Pruned.perform (h : b.Pruned) (hb : b.Sound) (o : Operation) : (b.perform o).Pruned := by
  by_cases ho : Reroutes o
  · cases o with
    | register client subject handler => exact h.attachTo hb client subject _
    | unregister client subject name => exact h.detachFrom hb client subject _
    | listen client subject handler => exact h.attachTo hb client subject _
    | unlisten client subject name => exact h.detachFrom hb client subject _
    | request client id destination subject payloads expected timeoutMs =>
      rcases request_outcome hb h client id destination subject payloads expected timeoutMs with
        ⟨_, -, hsame⟩ | ⟨_, -, hrequested⟩
      · exact h.sameRoutes hsame
      · exact h.requested hb hrequested
    | advance ms => exact Pruned.fires (b := b.later ms) h (hb.later ms) _
    | _ => exact ho.elim
  · exact h.sameRoutes (.perform hb ho)

theorem Pruned.performAll (h : b.Pruned) (hb : b.Sound) (operations : List Operation) :
    (b.performAll operations).Pruned := by
  induction operations generalizing b with
  | nil => exact h
  | cons o operations ih => exact ih (h.perform hb o) (hb.perform o)

/-- The trees of a bus that started empty are pruned. -/
theorem pruned_performAll (room : Nat) (operations : List Operation) : ((empty room).performAll operations).Pruned :=
  Pruned.performAll (pruned_empty room) (sound_empty room) operations

end Bus

end Switchboard
