import Switchboard.Proofs.Delivery.Hearing
import Switchboard.Proofs.Delivery.Soundness

/-!
# Operations on a bus

All that can be done with a running bus: endpoints, connections and handlers come and go, messages are published, and
the clock moves. A bus on which nothing but these operations was performed is sound (`Bus.sound_performAll`).

Operations that do not move the clock let the requests go on that are under way (`Bus.Evolved`). Requests that nobody
replies to in the meantime, not even as an answer to something else, stay as they are.
-/

namespace Switchboard

inductive Operation
  | create
  | watch (endpoint : Nat) (watcher : Watcher)
  | connect (endpoint : Nat)
  | disconnect (endpoint : Nat)
  | lose (endpoint : Nat) (cause : String)
  | subscribe (endpoint : Nat) (filters : List String)
  | unsubscribe (endpoint : Nat) (filters : List String)
  | tap (filters : List String)
  | join (identity : Identity) (types : TypeRegistry) (standard : Codec) (capacity : Nat) (line : Line)
  | openOn (identity : Identity) (endpoint : Nat) (types : TypeRegistry) (standard : Codec) (capacity : Nat)
  | openWith (settings : Settings) (types : TypeRegistry)
  | close (client : Nat)
  | forget (client : Nat)
  | register (client : Nat) (subject : Subject) (h : RequestHandler)
  | unregister (client : Nat) (subject : Subject) (name : String)
  | listen (client : Nat) (subject : Subject) (h : NotificationHandler)
  | unlisten (client : Nat) (subject : Subject) (name : String)
  | publish (client : Nat) (topic : List String) (packet : Option Packet) (codec : Option Codec)
  | notify (client : Nat) (destination : Destination) (subject : Subject) (payloads : List Payload)
  | inject (endpoint : Nat) (message : Outgoing)
  | dispatch (client : Nat) (message : Outgoing)
  | request (client : Nat) (id : CorrelationId) (destination : Destination) (subject : Subject)
      (payloads : List Payload) (expected : ExpectedReplies) (timeoutMs : Nat)
  | advance (ms : Nat)

namespace Bus

def perform (b : Bus) : Operation → Bus
  | .create => b.createEndpoint.2
  | .watch endpoint watcher => b.watch endpoint watcher
  | .connect endpoint => b.connect endpoint
  | .disconnect endpoint => b.disconnect endpoint
  | .lose endpoint cause => b.lose endpoint cause
  | .subscribe endpoint filters => (b.subscribe endpoint filters).toOption.getD b
  | .unsubscribe endpoint filters => (b.unsubscribe endpoint filters).toOption.getD b
  | .tap filters => (b.addTap filters).2
  | .join identity types standard capacity line =>
    match b.join identity (.empty types standard capacity) line with
    | .ok (_, b) => b
    | .error _ => b
  | .openOn identity endpoint types standard capacity =>
    (b.openOn identity endpoint (.empty types standard capacity)).2
  | .openWith settings types => (b.openWith settings (.withBroker Listener Watcher) types).2
  | .close client => (b.close client).2
  | .forget client => b.forget client
  | .register client subject h => (b.register client subject h).2
  | .unregister client subject name => (b.unregister client subject name).2
  | .listen client subject h => (b.listen client subject h).2
  | .unlisten client subject name => (b.unlisten client subject name).2
  | .publish client topic packet codec => (b.publish client topic packet codec).2
  | .notify client destination subject payloads => (b.notify client destination subject payloads).2
  | .inject endpoint message => (b.inject endpoint message).2
  | .dispatch client message => (b.dispatch client message).2
  | .request client id destination subject payloads expected timeoutMs =>
    (b.request client id destination subject payloads expected timeoutMs).2
  | .advance ms => b.advance ms

def performAll (b : Bus) (operations : List Operation) : Bus := operations.foldl perform b

/-- The messages that an operation hands to a line, or to a client, itself. -/
def Publishes (b : Bus) (message : Outgoing) : Operation → Prop
  | .publish _ topic packet _ => ∃ p ∈ packet, message.Carries topic p
  | .notify client destination subject payloads => ∃ c ∈ b.clients[client]?,
      message.Carries (destination.topicFor c.identity subject) ⟨.plain (Header.of subject c.identity), payloads⟩
  | .inject _ m => message = m
  | .dispatch _ m => message = m
  | .request client id destination subject payloads _ _ => ∃ c ∈ b.clients[client]?,
      message.Carries (destination.topicFor c.identity subject)
        ⟨.rpc (RpcHeader.of subject c.identity destination id), payloads⟩
  | _ => False

end Bus

/-! ### Going on -/

/-- No request changes its id, and those that are watched stay as they are. -/
def RequestChange.watching (W : Nat → Nat → Prop) : RequestChange := fun j k r r' =>
  r'.collector.id = r.collector.id ∧ (W j k → r' = r)

theorem RequestChange.watching_refl (W : Nat → Nat → Prop) (j k : Nat) (r : Request) : watching W j k r r :=
  ⟨rfl, fun _ => rfl⟩

theorem RequestChange.watching_trans (W : Nat → Nat → Prop) (j k : Nat) (r r' r'' : Request)
    (h : watching W j k r r') (h' : watching W j k r' r'') : watching W j k r r'' :=
  ⟨h'.1.trans h.1, fun hW => (h'.2 hW).trans (h.2 hW)⟩

/-- A client takes back the request that it entered last, whatever it has heard since: the others stay. -/
theorem Client.Sound.withdraw_of_changed {W : Nat → Nat → Prop} {client : Nat} {c prepared c' : Client}
    {header : RpcHeader} {id : CorrelationId} {expected : ExpectedReplies} (hc : c.Sound)
    (hp : c.prepareRequest header id expected = .ok prepared) (hheard : prepared.Changed (.watching W) client c')
    (hc' : c'.Sound) :
    (c'.withdrawRequest c.requests.length id).Sound ∧
      (c'.withdrawRequest c.requests.length id).requests.length = c.requests.length ∧
      ∀ k < c.requests.length, (c'.withdrawRequest c.requests.length id).requests[k]? = c'.requests[k]? := by
  obtain ⟨-, -, -, -, -, hrequests, -⟩ := hc.prepareRequest hp
  have hcount : c'.requests.length = c.requests.length + 1 := by
    rw [hheard.count, hrequests, List.length_append]
    rfl
  obtain ⟨r, hr, hid, -⟩ := hheard.requests (k := c.requests.length) (r := ⟨.of header id expected, none⟩) (by
    rw [hrequests]
    exact List.getElem?_concat_length)
  have hid' : r.collector.id = id := hid
  have hsound := hc'.withdrawRequest hcount hr
  rw [hid'] at hsound
  refine ⟨hsound, ?_, fun k hk => ?_⟩
  · simp [Client.withdrawRequest, List.length_eraseIdx, hcount]
  · exact List.getElem?_eraseIdx_of_lt hk

namespace Bus

variable {W : Nat → Nat → Prop} {P : Outgoing → Prop} {b b' b'' : Bus}

/-- Messages with a property, to which the answers have it too, and watched requests to which none of them replies. -/
structure Sparing (W : Nat → Nat → Prop) (P : Outgoing → Prop) (b : Bus) : Prop where
  answers : ∀ {message answer : Outgoing}, P message → answer.Answers message → P answer
  watched : ∀ {j k}, W j k → ∃ c r, b.clients[j]? = some c ∧ c.requests[k]? = some r ∧
    ∀ message, P message → c.identity.relative (Topic.split message.topic) ≠ r.collector.id.route

/-- If no request is watched, all messages may come. -/
theorem sparing_none (b : Bus) : Sparing (fun _ _ => False) (fun _ => True) b := ⟨fun _ _ => trivial, False.elim⟩

theorem Sparing.counting (h : Sparing W P b) (hb : ∀ {j : Nat} {c : Client}, b.clients[j]? = some c → c.Sound) :
    Counting (.watching W) P b where
  refl := RequestChange.watching_refl W
  trans := RequestChange.watching_trans W
  answers := h.answers
  counts := by
    intro j k c message hc hroute hP r packet
    refine ⟨r.id_count packet, fun hW => ?_⟩
    obtain ⟨c', r', hc', hr', hspared⟩ := h.watched hW
    obtain rfl : c = c' := Option.some.inj (hc.symm.trans hc')
    obtain ⟨r'', hr'', hpath⟩ := (hb hc).routes hroute
    obtain rfl : r' = r'' := Option.some.inj (hr'.symm.trans hr'')
    exact absurd hpath (hspared message hP)

/-- The requests go on while the clock stands still: no timer fires, and timers are set for new requests only. -/
structure Evolved (W : Nat → Nat → Prop) (b b' : Bus) : Prop where
  sound : b'.Sound
  clients : ∀ {j : Nat} {c : Client}, b.clients[j]? = some c → ∃ c', b'.clients[j]? = some c' ∧
    c'.identity = c.identity ∧ ∀ {k r}, c.requests[k]? = some r → ∃ r', c'.requests[k]? = some r' ∧
      RequestChange.watching W j k r r'
  timers : ∀ t ∈ b.timers, t ∈ b'.timers
  fresh : ∀ t ∈ b'.timers, t ∈ b.timers ∨ b.request? t.client t.request = none
  clock : b'.clock = b.clock
  room : b'.room = b.room

theorem request?_eq_some {j k : Nat} {r : Request} :
    b.request? j k = some r ↔ ∃ c, b.clients[j]? = some c ∧ c.requests[k]? = some r := Option.bind_eq_some_iff

theorem Evolved.trans (h : Evolved W b b') (h' : Evolved W b' b'') : Evolved W b b'' where
  sound := h'.sound
  clients := by
    intro j c hc
    obtain ⟨c', hc', hidentity, hrequests⟩ := h.clients hc
    obtain ⟨c'', hc'', hidentity', hrequests'⟩ := h'.clients hc'
    refine ⟨c'', hc'', hidentity'.trans hidentity, fun hr => ?_⟩
    obtain ⟨r', hr', hwatching⟩ := hrequests hr
    obtain ⟨r'', hr'', hwatching'⟩ := hrequests' hr'
    exact ⟨r'', hr'', RequestChange.watching_trans W _ _ _ _ _ hwatching hwatching'⟩
  timers t ht := h'.timers t (h.timers t ht)
  fresh := by
    intro t ht
    rcases h'.fresh t ht with hold | hnew
    · exact h.fresh t hold
    · right
      cases hr : b.request? t.client t.request with
      | none => rfl
      | some r =>
        obtain ⟨c, hc, hr⟩ := request?_eq_some.1 hr
        obtain ⟨c', hc', -, hrequests⟩ := h.clients hc
        obtain ⟨r', hr', -⟩ := hrequests hr
        have hsome := request?_eq_some.2 ⟨c', hc', hr'⟩
        rw [hnew] at hsome
        cases hsome
  clock := h'.clock.trans h.clock
  room := h'.room.trans h.room

/-- Clients, timers, the clock and the room stay as they are. -/
theorem Evolved.of_eq (hb : b.Sound) (hclients : b'.clients = b.clients) (htimers : b'.timers = b.timers)
    (hclock : b'.clock = b.clock) (hroom : b'.room = b.room) (hbroker : b'.broker.Sound) : Evolved W b b' where
  sound := by
    refine ⟨fun hc => hb.clients (hclients ▸ hc), hbroker, fun t ht => ?_⟩
    rw [hclients]
    exact hb.timers t (htimers ▸ ht)
  clients := by
    intro j c hc
    rw [hclients]
    exact ⟨c, hc, rfl, fun hr => ⟨_, hr, RequestChange.watching_refl W _ _ _⟩⟩
  timers t ht := htimers.symm ▸ ht
  fresh t ht := .inl (htimers ▸ ht)
  clock := hclock
  room := hroom

theorem Evolved.refl (hb : b.Sound) : Evolved W b b := .of_eq hb rfl rfl rfl rfl hb.broker

/-- What a delivery changes. -/
theorem Evolved.of_changed (hb : b.Sound) (h : Changed (.watching W) b b') : Evolved W b b' where
  sound := by
    refine ⟨fun hc' => ?_, h.broker ▸ hb.broker, fun t ht => ?_⟩
    · obtain ⟨c, hc, hchanged⟩ := h.exists_before hc'
      exact (hb.clients hc).changed (fun _ _ _ _ hr => hr.1) hchanged
    · obtain ⟨c, hc, hlt⟩ := hb.timers t (h.timers ▸ ht)
      obtain ⟨c', hc', hchanged⟩ := h.clients hc
      exact ⟨c', hc', by rwa [hchanged.count]⟩
  clients := by
    intro j c hc
    obtain ⟨c', hc', hchanged⟩ := h.clients hc
    exact ⟨c', hc', hchanged.identity, hchanged.requests⟩
  timers t ht := h.timers.symm ▸ ht
  fresh t ht := .inl (h.timers ▸ ht)
  clock := h.clock
  room := h.room

/-- A client changes, and keeps its requests. -/
theorem Evolved.updateClient (hb : b.Sound) {j : Nat} {f : Client → Client}
    (hf : ∀ c, b.clients[j]? = some c → (f c).Sound ∧ (f c).identity = c.identity ∧
      ∀ {k r}, c.requests[k]? = some r → ∃ r', (f c).requests[k]? = some r' ∧ RequestChange.watching W j k r r') :
    Evolved W b (b.updateClient j f) where
  sound := by
    refine ⟨fun {i c'} hc' => ?_, hb.broker, fun t ht => ?_⟩
    · rw [clients_updateClient] at hc'
      split at hc'
      · rename_i hi
        subst hi
        obtain ⟨c, hc, rfl⟩ := Option.map_eq_some_iff.1 hc'
        exact (hf c hc).1
      · exact hb.clients hc'
    · obtain ⟨c, hc, hlt⟩ := hb.timers t ht
      rw [clients_updateClient]
      split
      · rename_i hi
        subst hi
        obtain ⟨-, -, hrequests⟩ := hf c hc
        obtain ⟨r', hr', -⟩ := hrequests (List.getElem?_eq_getElem hlt)
        exact ⟨f c, by rw [hc]; rfl, (List.getElem?_eq_some_iff.1 hr').1⟩
      · exact ⟨c, hc, hlt⟩
  clients := by
    intro i c hc
    rw [clients_updateClient]
    split
    · rename_i hi
      subst hi
      obtain ⟨-, hidentity, hrequests⟩ := hf c hc
      exact ⟨f c, by rw [hc]; rfl, hidentity, hrequests⟩
    · exact ⟨c, hc, rfl, fun hr => ⟨_, hr, RequestChange.watching_refl W _ _ _⟩⟩
  timers _ ht := ht
  fresh _ ht := .inl ht
  clock := rfl
  room := rfl

/-- A client becomes another one that keeps its requests. -/
theorem Evolved.replaceClient (hb : b.Sound) {j : Nat} {c c' : Client} (hc : b.clients[j]? = some c)
    (hsound : c'.Sound) (hidentity : c'.identity = c.identity)
    (hrequests : ∀ {k : Nat} {r : Request}, c.requests[k]? = some r → c'.requests[k]? = some r) :
    Evolved W b (b.updateClient j fun _ => c') := by
  refine .updateClient hb fun c₁ hc₁ => ?_
  obtain rfl : c = c₁ := Option.some.inj (hc.symm.trans hc₁)
  exact ⟨hsound, hidentity, fun hr => ⟨_, hrequests hr, RequestChange.watching_refl W _ _ _⟩⟩

/-- A client that joins is the last one. -/
theorem eq_of_join {identity : Identity} {encoders : EncoderPool} {line : Line} {client : Nat}
    (h : b.join identity encoders line = .ok (client, b')) :
    client = b.clients.length ∧ b' = { b with clients := b.clients ++ [.of identity encoders line] } := by
  unfold join at h
  split at h
  · cases h
    exact ⟨rfl, rfl⟩
  · cases h

/-- A client joins. -/
theorem Evolved.join (hb : b.Sound) {identity : Identity} {encoders : EncoderPool} (hpool : encoders.Sound)
    {line : Line} {client : Nat} (hjoin : b.join identity encoders line = .ok (client, b')) : Evolved W b b' := by
  obtain ⟨-, rfl⟩ := eq_of_join hjoin
  have hlater : ∀ {j : Nat} {c : Client}, b.clients[j]? = some c →
      (b.clients ++ [Client.of identity encoders line])[j]? = some c := by
    intro j c hc
    rw [List.getElem?_append_left (List.getElem?_eq_some_iff.1 hc).1, hc]
  refine ⟨⟨fun {j c} hc => ?_, hb.broker, fun t ht => ?_⟩, fun {j c} hc => ?_, fun _ ht => ht, fun _ ht => .inl ht,
    rfl, rfl⟩
  · rcases Nat.lt_or_ge j b.clients.length with hlt | hge
    · have hc' : (b.clients ++ [Client.of identity encoders line])[j]? = some c := hc
      rw [List.getElem?_append_left hlt] at hc'
      exact hb.clients hc'
    · have hc' : (b.clients ++ [Client.of identity encoders line])[j]? = some c := hc
      rw [List.getElem?_append_right hge, List.getElem?_singleton] at hc'
      split at hc'
      · cases hc'
        exact .of identity hpool line
      · cases hc'
  · obtain ⟨c, hc, hlt⟩ := hb.timers t ht
    exact ⟨c, hlater hc, hlt⟩
  · exact ⟨c, hlater hc, rfl, fun hr => ⟨_, hr, RequestChange.watching_refl W _ _ _⟩⟩

/-! ### Endpoints -/

theorem changed_tellWatchers (b : Bus) (told : List (Watcher × LinkEvent)) :
    Changed .none b (b.tellWatchers told) := by
  induction told generalizing b with
  | nil => exact .refl_none b
  | cons first rest ih =>
    obtain ⟨watcher, event⟩ := first
    cases watcher with
    | observer name => exact (changed_record b _).none_trans (ih _)
    | journal client => cases event <;> exact (changed_record b _).none_trans (ih _)

theorem Evolved.of_changed_none (hb : b.Sound) (h : Changed .none b b') : Evolved W b b' := by
  refine .of_changed hb (h.mono fun j k r r' hr => ?_)
  rw [show r' = r from hr]
  exact RequestChange.watching_refl W j k r

theorem Evolved.withBroker (hb : b.Sound) {broker : Broker Listener Watcher} (hbroker : broker.Sound) :
    Evolved W b { b with broker := broker } := .of_eq hb rfl rfl rfl rfl hbroker

theorem Evolved.connect (hb : b.Sound) (endpoint : Nat) : Evolved W b (b.connect endpoint) :=
  have hfirst := Evolved.withBroker hb (hb.broker.connect endpoint)
  hfirst.trans (.of_changed_none hfirst.sound (changed_tellWatchers _ _))

theorem Evolved.disconnect (hb : b.Sound) (endpoint : Nat) : Evolved W b (b.disconnect endpoint) :=
  have hfirst := Evolved.of_changed_none hb (changed_tellWatchers b (b.broker.disconnect endpoint).1)
  hfirst.trans (.withBroker hfirst.sound (hb.broker.disconnect endpoint))

theorem Evolved.lose (hb : b.Sound) (endpoint : Nat) (cause : String) : Evolved W b (b.lose endpoint cause) :=
  have hfirst := Evolved.withBroker hb (hb.broker.lose endpoint cause)
  hfirst.trans (.of_changed_none hfirst.sound (changed_tellWatchers _ _))

private theorem exists_broker_of_replaced {result : Except TransportError (Broker Listener Watcher)}
    (h : (do pure { b with broker := ← result }) = (.ok b' : Except TransportError Bus)) :
    ∃ broker, result = .ok broker ∧ b' = { b with broker := broker } := by
  cases result with
  | error e => cases h
  | ok broker =>
    cases h
    exact ⟨broker, rfl, rfl⟩

theorem exists_broker_of_subscribe {endpoint : Nat} {filters : List String}
    (h : b.subscribe endpoint filters = .ok b') :
    ∃ broker, b.broker.subscribe endpoint filters = .ok broker ∧ b' = { b with broker := broker } :=
  exists_broker_of_replaced h

theorem exists_broker_of_unsubscribe {endpoint : Nat} {filters : List String}
    (h : b.unsubscribe endpoint filters = .ok b') :
    ∃ broker, b.broker.unsubscribe endpoint filters = .ok broker ∧ b' = { b with broker := broker } :=
  exists_broker_of_replaced h

theorem Evolved.subscribe (hb : b.Sound) {endpoint : Nat} {filters : List String}
    (h : b.subscribe endpoint filters = .ok b') : Evolved W b b' := by
  obtain ⟨broker, hbroker, rfl⟩ := exists_broker_of_subscribe h
  exact .withBroker hb (hb.broker.subscribe hbroker)

theorem Evolved.unsubscribe (hb : b.Sound) {endpoint : Nat} {filters : List String}
    (h : b.unsubscribe endpoint filters = .ok b') : Evolved W b b' := by
  obtain ⟨broker, hbroker, rfl⟩ := exists_broker_of_unsubscribe h
  exact .withBroker hb (hb.broker.unsubscribe hbroker)

theorem Evolved.toOption_getD {result : Except TransportError Bus} (hb : b.Sound)
    (h : ∀ b', result = .ok b' → Evolved W b b') : Evolved W b (result.toOption.getD b) := by
  cases result with
  | error e => exact .refl hb
  | ok b' => exact h b' rfl

theorem Evolved.watch (hb : b.Sound) (endpoint : Nat) (watcher : Watcher) : Evolved W b (b.watch endpoint watcher) :=
  .withBroker hb (hb.broker.update endpoint fun _ => rfl)

theorem Evolved.setListener (hb : b.Sound) (endpoint : Nat) (listener : Listener) :
    Evolved W b { b with broker := b.broker.setListener endpoint listener } :=
  .withBroker hb (hb.broker.update endpoint fun _ => rfl)

theorem Evolved.addTap (hb : b.Sound) (filters : List String) : Evolved W b (b.addTap filters).2 := by
  have hcreated : Evolved W b b.createEndpoint.2 := .withBroker hb hb.broker.create
  have hlistening := hcreated.trans (.setListener hcreated.sound b.createEndpoint.1 .tap)
  have hconnected := hlistening.trans (.connect hlistening.sound b.createEndpoint.1)
  exact hconnected.trans (.toOption_getD hconnected.sound fun b' h => .subscribe hconnected.sound h)

/-! ### Clients -/

theorem Evolved.forget (hb : b.Sound) (client : Nat) : Evolved W b (b.forget client) := by
  refine .updateClient hb fun c hc => ?_
  have hsound := hb.clients hc
  exact ⟨⟨hsound.owner, hsound.wellFormed, hsound.encoders, hsound.routes⟩, rfl,
    fun hr => ⟨_, hr, RequestChange.watching_refl W _ _ _⟩⟩

theorem Evolved.openOn (hb : b.Sound) (identity : Identity) (endpoint : Nat) {encoders : EncoderPool}
    (hpool : encoders.Sound) : Evolved W b (b.openOn identity endpoint encoders).2 := by
  unfold Bus.openOn
  split
  · exact .refl hb
  · rename_i client b₁ hjoin
    have hjoined : Evolved W b b₁ := .join hb hpool hjoin
    have hwatched := hjoined.trans (.watch hjoined.sound endpoint (.journal identity.text))
    have hlistening := hwatched.trans (.setListener hwatched.sound endpoint (.client client))
    have hconnected := hlistening.trans (.connect hlistening.sound endpoint)
    simp only
    split
    · exact hconnected.trans (.forget hconnected.sound client)
    · rename_i b₂ hsubscribe
      have hsubscribed := hconnected.trans (.subscribe hconnected.sound hsubscribe)
      exact hsubscribed.trans (.of_changed_none hsubscribed.sound (changed_record _ _))

/-- The registry that offers the broker alone makes endpoints of the broker, whatever the settings ask for. -/
theorem eq_create_of_withBroker {settings : TransportSettings} {broker : Broker Listener Watcher}
    {made : Nat × Broker Listener Watcher}
    (h : (TransportRegistry.withBroker Listener Watcher).create settings broker = .ok made) :
    made = broker.create := by
  unfold TransportRegistry.create at h
  split at h
  · cases h
  · rename_i descriptor hdescriptor
    have hmake : descriptor = Broker.descriptor Listener Watcher := by
      unfold TransportRegistry.withBroker TransportRegistry.register TransportRegistry.empty at hdescriptor
      simp only [Table.put, Table.get?] at hdescriptor
      split at hdescriptor
      · exact (Option.some.inj hdescriptor).symm
      · cases hdescriptor
    subst hmake
    cases h
    rfl

theorem Evolved.openWith (hb : b.Sound) (settings : Settings) (types : TypeRegistry) :
    Evolved W b (b.openWith settings (.withBroker Listener Watcher) types).2 := by
  unfold Bus.openWith
  split
  · exact .refl hb
  · rename_i identity _
    split
    · exact .refl hb
    · rename_i endpoint broker hcreate
      have hbroker : broker = b.broker.create.2 := congrArg Prod.snd (eq_create_of_withBroker hcreate)
      subst hbroker
      have hcreated : Evolved W b { b with broker := b.broker.create.2 } := .withBroker hb hb.broker.create
      have hopened := hcreated.trans (.openOn hcreated.sound identity endpoint
        (EncoderPool.sound_empty types settings.codec settings.encoderPoolSize.toNat))
      simp only
      split <;> rename_i hopen <;> rw [hopen] at hopened
      · exact hopened
      · refine hopened.trans (.updateClient hopened.sound fun c hc => ?_)
        have hsound := hopened.sound.clients hc
        exact ⟨⟨hsound.owner, hsound.wellFormed, hsound.encoders, hsound.routes⟩, rfl,
          fun hr => ⟨_, hr, RequestChange.watching_refl W _ _ _⟩⟩

theorem Evolved.close (hb : b.Sound) (client : Nat) : Evolved W b (b.close client).2 := by
  unfold Bus.close
  split
  · exact .refl hb
  · split
    · exact .refl hb
    · rename_i endpoint _
      split
      · split
        · exact .refl hb
        · rename_i b₁ hunsubscribe
          have hunsubscribed : Evolved W b b₁ := .unsubscribe hb hunsubscribe
          have hdisconnected := hunsubscribed.trans (.disconnect hunsubscribed.sound endpoint)
          exact hdisconnected.trans (.of_changed_none hdisconnected.sound (changed_record _ _))
      · exact .refl hb

theorem Evolved.attachTo (hb : b.Sound) (client : Nat) {subject : Subject} {route : Route}
    (hroute : ∀ k, route ≠ .reply k) : Evolved W b (b.attachTo client (·.attach subject route)).2 := by
  rcases b.attachTo_cases client (·.attach subject route) with ⟨_, heq⟩ | ⟨c, c', hc, ha, heq⟩ <;> rw [heq]
  · exact .refl hb
  · obtain ⟨hsound, hidentity, hrequests⟩ := (hb.clients hc).attach hroute ha
    exact .replaceClient hb hc hsound hidentity fun hr => hrequests ▸ hr

theorem Evolved.detachFrom (hb : b.Sound) (client : Nat) (subject : Subject) (chosen : Route → Bool) :
    Evolved W b (b.detachFrom client (·.detach subject chosen)).2 := by
  rcases b.detachFrom_cases client (·.detach subject chosen) with ⟨-, heq⟩ | ⟨c, hc, heq⟩ <;> rw [heq]
  · exact .refl hb
  · exact .replaceClient hb hc ((hb.clients hc).detach subject chosen) rfl fun hr => hr

/-! ### Messages -/

section Messages

variable (hb : b.Sound) (hspare : Sparing W P b) {topic : List String} {packet : Option Packet} {message : Outgoing}

include hb hspare

/-- What is published is heard by clients, and so are the answers to it; nothing else happens. -/
theorem Sparing.changed_publishBy (room client : Nat) (codec : Option Codec)
    (hP : ∀ p message, packet = some p → message.Carries topic p → P message) :
    Changed (.watching W) b (Bus.publishBy (hear room []) client topic packet codec b).2 := by
  have hcount := hspare.counting hb.clients
  refine Changed.publishBy (fun message hmessage j b₁ h₁ => ?_) client codec hP (.refl hcount.refl b)
  exact hcount.hear _ _ message hmessage j b₁ h₁

theorem Sparing.changed_notify (client : Nat) (destination : Destination) (subject : Subject)
    (payloads : List Payload)
    (hP : ∀ message, b.Publishes message (.notify client destination subject payloads) → P message) :
    Changed (.watching W) b (b.notify client destination subject payloads).2 := by
  unfold Bus.notify
  cases hc : b.clients[client]? with
  | none => exact .refl (RequestChange.watching_refl W) b
  | some c =>
    refine hspare.changed_publishBy hb b.room client none fun p message hp hcarries => hP message ?_
    cases hp
    exact ⟨c, hc, hcarries⟩

theorem Sparing.changed_inject (endpoint : Nat) (hP : P message) :
    Changed (.watching W) b (b.inject endpoint message).2 := by
  have hcount := hspare.counting hb.clients
  refine Changed.transmitFrom (fun j b₁ h₁ => ?_) endpoint (.refl hcount.refl b)
  exact hcount.hear _ _ message hP j b₁ h₁

theorem Sparing.changed_dispatch (client : Nat) (hP : P message) :
    Changed (.watching W) b (b.dispatch client message).2 := by
  have hcount := hspare.counting hb.clients
  refine hcount.dispatchBy (fun scopes message hmessage j b₁ h₁ => ?_) hP [] client (.refl hcount.refl b)
  exact hcount.hear _ _ message hmessage j b₁ h₁

end Messages

/-! ### Requests -/

/-- All that a request can do: it is refused before it is entered, it is entered and taken back, or it is
published. -/
theorem requestVia_cases (send : Sending) {client : Nat} {c : Client} (hc : b.clients[client]? = some c)
    (id : CorrelationId) (destination : Destination) (subject : Subject) (payloads : List Payload)
    (expected : ExpectedReplies) (timeoutMs : Nat) :
    (∃ e, c.prepareRequest (.of subject c.identity destination id) id expected = .error e ∧
      b.requestVia send client id destination subject payloads expected timeoutMs = (.error (.dispatch e), b)) ∨
    ∃ prepared published, c.prepareRequest (.of subject c.identity destination id) id expected = .ok prepared ∧
      published = publishVia send client (destination.topicFor c.identity subject)
        (some ⟨.rpc (.of subject c.identity destination id), payloads⟩) none
        (b.updateClient client fun _ => prepared) ∧
      ((∃ e fields, published.1 = .error e ∧
        b.requestVia send client id destination subject payloads expected timeoutMs =
          (.error e, (published.2.updateClient client (·.withdrawRequest c.requests.length id)).log (some c.identity)
            .warn "request publish failed" fields)) ∨
      (published.1 = .ok () ∧ b.requestVia send client id destination subject payloads expected timeoutMs =
        (.ok c.requests.length, { published.2.updateClient client (·.confirmRequest c.requests.length) with
          timers := published.2.timers ++ [⟨published.2.clock + timeoutMs, client, c.requests.length⟩] }))) := by
  unfold requestVia
  rw [hc]
  cases hp : c.prepareRequest (.of subject c.identity destination id) id expected with
  | error e =>
    simp only [hp]
    exact .inl ⟨e, rfl, rfl⟩
  | ok prepared =>
    simp only [hp]
    refine .inr ⟨prepared, _, rfl, rfl, ?_⟩
    generalize publishVia send client (destination.topicFor c.identity subject)
      (some ⟨.rpc (.of subject c.identity destination id), payloads⟩) none
      (b.updateClient client fun _ => prepared) = published
    obtain ⟨result, b'⟩ := published
    cases result with
    | error e => exact .inl ⟨e, _, rfl, rfl⟩
    | ok _ => exact .inr ⟨rfl, rfl⟩

/-- A client that exists makes its requests, any other makes none. -/
theorem requestVia_of_none (send : Sending) {client : Nat} (hc : b.clients[client]? = none) (id : CorrelationId)
    (destination : Destination) (subject : Subject) (payloads : List Payload) (expected : ExpectedReplies)
    (timeoutMs : Nat) :
    b.requestVia send client id destination subject payloads expected timeoutMs =
      (.error (.validation .noPublisher), b) := by
  unfold requestVia
  rw [hc]

theorem Sparing.evolved (h : Sparing W P b) (he : Evolved W b b') : Sparing W P b' where
  answers := h.answers
  watched := by
    intro j k hW
    obtain ⟨c, r, hc, hr, hspared⟩ := h.watched hW
    obtain ⟨c', hc', hidentity, hrequests⟩ := he.clients hc
    obtain ⟨r', hr', -, hsame⟩ := hrequests hr
    obtain rfl := hsame hW
    refine ⟨c', r', hc', hr', fun message hP => ?_⟩
    rw [hidentity]
    exact hspared message hP

/-- A request is new: nobody can have watched it. -/
theorem Sparing.not_watched (h : Sparing W P b) {client : Nat} {c : Client} (hc : b.clients[client]? = some c) :
    ¬W client c.requests.length := by
  intro hW
  obtain ⟨c', r, hc', hr, -⟩ := h.watched hW
  obtain rfl : c = c' := Option.some.inj (hc.symm.trans hc')
  exact Nat.lt_irrefl _ (List.getElem?_eq_some_iff.1 hr).1

section Requests

variable {client : Nat} {c prepared : Client} {header : RpcHeader} {id : CorrelationId} {expected : ExpectedReplies}

theorem Evolved.prepare (hb : b.Sound) (hc : b.clients[client]? = some c)
    (hp : c.prepareRequest header id expected = .ok prepared) :
    Evolved W b (b.updateClient client fun _ => prepared) := by
  obtain ⟨hsound, hidentity, -, -, -, hrequests, -⟩ := (hb.clients hc).prepareRequest hp
  refine .replaceClient hb hc hsound hidentity fun {k r} hr => ?_
  rw [hrequests, List.getElem?_append_left (List.getElem?_eq_some_iff.1 hr).1]
  exact hr

theorem Evolved.confirm (hb : b.Sound) {serial : Nat} (hnew : ¬W client serial) :
    Evolved W b (b.updateClient client (·.confirmRequest serial)) := by
  have hid : ∀ collector : ReplyCollector, collector.markSent.id = collector.id := fun collector =>
    collector.id_replies_markSent.1
  refine .updateClient hb fun c₁ hc₁ => ⟨(hb.clients hc₁).updateCollector serial hid, rfl, fun {k r} hr => ?_⟩
  simp only [Client.confirmRequest, Client.updateCollector, List.getElem?_modify, hr]
  by_cases hk : serial = k
  · subst hk
    exact ⟨{ r with collector := r.collector.markSent }, by simp, hid _, fun hW => absurd hW hnew⟩
  · exact ⟨r, by simp [hk], RequestChange.watching_refl W _ _ _⟩

/-- A timer is set for a new request. -/
theorem Evolved.setTimer (h : Evolved W b b') {t : Timer} (hnew : b.request? t.client t.request = none)
    (hset : ∃ c, b'.clients[t.client]? = some c ∧ t.request < c.requests.length) :
    Evolved W b { b' with timers := b'.timers ++ [t] } where
  sound := by
    refine ⟨h.sound.clients, h.sound.broker, fun t' ht' => ?_⟩
    rcases List.mem_append.1 ht' with ht' | ht'
    · exact h.sound.timers t' ht'
    · rw [List.mem_singleton.1 ht']
      exact hset
  clients := h.clients
  timers t' ht' := List.mem_append_left _ (h.timers t' ht')
  fresh := by
    intro t' ht'
    rcases List.mem_append.1 ht' with ht' | ht'
    · exact h.fresh t' ht'
    · rw [List.mem_singleton.1 ht']
      exact .inr hnew
  clock := h.clock
  room := h.room

/-- A new request is taken back, whatever was heard since it was entered. -/
theorem Evolved.withdraw (hb : b.Sound) (hc : b.clients[client]? = some c)
    (hp : c.prepareRequest header id expected = .ok prepared)
    (hheard : Changed (.watching W) (b.updateClient client fun _ => prepared) b') :
    Evolved W b (b'.updateClient client (·.withdrawRequest c.requests.length id)) := by
  have hentered : Evolved W b (b.updateClient client fun _ => prepared) := .prepare hb hc hp
  have hevolved := hentered.trans (.of_changed hentered.sound hheard)
  obtain ⟨c', hc', hchanged⟩ := hheard.clients (clients_updateClient_self hc fun _ => prepared)
  obtain ⟨hwithdrawn, hlength, hkept⟩ := (hb.clients hc).withdraw_of_changed hp hchanged (hevolved.sound.clients hc')
  have hclient := clients_updateClient_self hc' (·.withdrawRequest c.requests.length id)
  have hother : ∀ {j : Nat}, client ≠ j →
      (b'.updateClient client (·.withdrawRequest c.requests.length id)).clients[j]? = b'.clients[j]? :=
    fun hj => clients_updateClient_of_ne hj b' _
  refine ⟨⟨fun {j c₁} hc₁ => ?_, hevolved.sound.broker, fun t ht => ?_⟩, fun {j c₁} hc₁ => ?_, hevolved.timers,
    hevolved.fresh, hevolved.clock, hevolved.room⟩
  · by_cases hj : client = j
    · subst hj
      obtain rfl := Option.some.inj (hclient.symm.trans hc₁)
      exact hwithdrawn
    · rw [hother hj] at hc₁
      exact hevolved.sound.clients hc₁
  · -- the timers are those from before the request was entered
    obtain ⟨c₁, hc₁, hlt⟩ := hb.timers t (hheard.timers ▸ ht)
    by_cases hj : client = t.client
    · rw [← hj] at hc₁ ⊢
      obtain rfl : c = c₁ := Option.some.inj (hc.symm.trans hc₁)
      refine ⟨_, hclient, ?_⟩
      rw [hlength]
      exact hlt
    · obtain ⟨c₂, hc₂, hlt₂⟩ := hevolved.sound.timers t ht
      exact ⟨c₂, (hother hj).trans hc₂, hlt₂⟩
  · obtain ⟨c₂, hc₂, hidentity, hgoesOn⟩ := hevolved.clients hc₁
    by_cases hj : client = j
    · subst hj
      obtain rfl : c = c₁ := Option.some.inj (hc.symm.trans hc₁)
      obtain rfl : c' = c₂ := Option.some.inj (hc'.symm.trans hc₂)
      refine ⟨_, hclient, hidentity, fun {k r₁} hr₁ => ?_⟩
      obtain ⟨r₂, hr₂, hwatching⟩ := hgoesOn hr₁
      exact ⟨r₂, (hkept k (List.getElem?_eq_some_iff.1 hr₁).1).trans hr₂, hwatching⟩
    · exact ⟨c₂, (hother hj).trans hc₂, hidentity, hgoesOn⟩

/-- What a request does, if it does anything: it is entered for its client, something is heard while its message is
published, and then it is withdrawn or confirmed. -/
theorem request_cases (hb : b.Sound) (hspare : Sparing W P b) (client : Nat) (id : CorrelationId)
    (destination : Destination) (subject : Subject) (payloads : List Payload) (expected : ExpectedReplies)
    (timeoutMs : Nat)
    (hP : ∀ message, b.Publishes message (.request client id destination subject payloads expected timeoutMs) →
      P message) :
    (∃ e, b.request client id destination subject payloads expected timeoutMs = (.error e, b)) ∨
    ∃ c prepared b', b.clients[client]? = some c ∧
      c.prepareRequest (.of subject c.identity destination id) id expected = .ok prepared ∧
      Changed (.watching W) (b.updateClient client fun _ => prepared) b' ∧
      ((∃ e event, b.request client id destination subject payloads expected timeoutMs =
          (.error e, (b'.updateClient client (·.withdrawRequest c.requests.length id)).record event)) ∨
        b.request client id destination subject payloads expected timeoutMs =
          (.ok c.requests.length, { b'.updateClient client (·.confirmRequest c.requests.length) with
            timers := b'.timers ++ [⟨b'.clock + timeoutMs, client, c.requests.length⟩] })) := by
  cases hc : b.clients[client]? with
  | none => exact .inl ⟨_, requestVia_of_none _ hc ..⟩
  | some c =>
    rcases requestVia_cases (transmit (hear b.room []) client) hc id destination subject payloads expected timeoutMs
      with ⟨e, -, heq⟩ | ⟨prepared, published, hp, rfl, hpublished⟩
    · exact .inl ⟨_, heq⟩
    · have hentered : Evolved W b (b.updateClient client fun _ => prepared) := .prepare hb hc hp
      have hheard : Changed (.watching W) (b.updateClient client fun _ => prepared)
          (Bus.publishBy (hear b.room []) client (destination.topicFor c.identity subject)
            (some ⟨.rpc (.of subject c.identity destination id), payloads⟩) none
            (b.updateClient client fun _ => prepared)).2 := by
        refine (hspare.evolved hentered).changed_publishBy hentered.sound b.room client none
          fun p message hpacket hcarries => ?_
        cases hpacket
        exact hP message ⟨c, hc, hcarries⟩
      refine .inr ⟨c, prepared, _, rfl, hp, hheard, ?_⟩
      rcases hpublished with ⟨e, fields, -, heq⟩ | ⟨-, heq⟩
      · exact .inl ⟨e, _, heq⟩
      · exact .inr heq

theorem Evolved.request (hb : b.Sound) (hspare : Sparing W P b) (client : Nat) (id : CorrelationId)
    (destination : Destination) (subject : Subject) (payloads : List Payload) (expected : ExpectedReplies)
    (timeoutMs : Nat)
    (hP : ∀ message, b.Publishes message (.request client id destination subject payloads expected timeoutMs) →
      P message) :
    Evolved W b (b.request client id destination subject payloads expected timeoutMs).2 := by
  rcases request_cases hb hspare client id destination subject payloads expected timeoutMs hP with
    ⟨e, heq⟩ | ⟨c, prepared, b', hc, hp, hheard, ⟨e, event, heq⟩ | heq⟩ <;> rw [heq]
  · exact .refl hb
  · have hwithdrawn := Evolved.withdraw hb hc hp hheard
    exact hwithdrawn.trans (.of_changed_none hwithdrawn.sound (changed_record _ _))
  · have hentered : Evolved W b (b.updateClient client fun _ => prepared) := .prepare hb hc hp
    have hevolved := hentered.trans (.of_changed hentered.sound hheard)
    have hconfirmed := hevolved.trans (.confirm hevolved.sound (hspare.not_watched hc))
    apply hconfirmed.setTimer
    · simp [request?, hc]
    · obtain ⟨-, -, -, -, -, hrequests, -⟩ := (hb.clients hc).prepareRequest hp
      obtain ⟨c', hc', hchanged⟩ := hheard.clients (clients_updateClient_self hc fun _ => prepared)
      refine ⟨_, clients_updateClient_self hc' _, ?_⟩
      simp [Client.confirmRequest, Client.updateCollector, hchanged.count, hrequests]

end Requests

/-! ### All operations -/

/-- Whatever is done while the clock stands still, the requests go on. -/
theorem Evolved.perform (hb : b.Sound) (hspare : Sparing W P b) {o : Operation} (ho : ∀ ms, o ≠ .advance ms)
    (hP : ∀ message, b.Publishes message o → P message) : Evolved W b (b.perform o) := by
  cases o with
  | create => exact .withBroker hb hb.broker.create
  | watch endpoint watcher => exact .watch hb endpoint watcher
  | connect endpoint => exact .connect hb endpoint
  | disconnect endpoint => exact .disconnect hb endpoint
  | lose endpoint cause => exact .lose hb endpoint cause
  | subscribe endpoint filters => exact .toOption_getD hb fun b' h => .subscribe hb h
  | unsubscribe endpoint filters => exact .toOption_getD hb fun b' h => .unsubscribe hb h
  | tap filters => exact .addTap hb filters
  | join identity types standard capacity line =>
    unfold Bus.perform
    simp only
    split
    · rename_i hjoin
      exact .join hb (EncoderPool.sound_empty types standard capacity) hjoin
    · exact .refl hb
  | openOn identity endpoint types standard capacity =>
    exact .openOn hb identity endpoint (EncoderPool.sound_empty types standard capacity)
  | openWith settings types => exact .openWith hb settings types
  | close client => exact .close hb client
  | forget client => exact .forget hb client
  | register client subject h => exact .attachTo hb client nofun
  | unregister client subject name => exact .detachFrom hb client subject _
  | listen client subject h => exact .attachTo hb client nofun
  | unlisten client subject name => exact .detachFrom hb client subject _
  | publish client topic packet codec =>
    refine .of_changed hb (hspare.changed_publishBy hb b.room client codec fun p message hp hcarries => hP message ?_)
    exact ⟨p, hp, hcarries⟩
  | notify client destination subject payloads =>
    exact .of_changed hb (hspare.changed_notify hb client destination subject payloads hP)
  | inject endpoint message => exact .of_changed hb (hspare.changed_inject hb endpoint (hP message rfl))
  | dispatch client message => exact .of_changed hb (hspare.changed_dispatch hb client (hP message rfl))
  | request client id destination subject payloads expected timeoutMs =>
    exact .request hb hspare client id destination subject payloads expected timeoutMs hP
  | advance ms => exact absurd rfl (ho ms)

end Bus

end Switchboard
