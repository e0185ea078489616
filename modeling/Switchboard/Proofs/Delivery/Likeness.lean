import Mathlib.Data.List.Forall2
import Switchboard.Proofs.Delivery.Desk
import Switchboard.Proofs.Delivery.Operation

/-!
# Encoders do not matter

Which encoders a client has at hand makes no difference to anybody. Two buses are alike if they differ in nothing
else, and in what happened on them before a certain time (`Bus.Alike`). Whatever is done with both of them, they stay
alike, and the same happens on both from that time on (`Bus.Alike.performAll`).

All that is done comes down to a few functions, each of which answers the same on both buses and keeps them alike.
Clients that hear messages do so by induction on how deep deliveries may still nest (`Bus.Alike.hear`).
-/

namespace Switchboard

/-! ### Encoders -/

/-- Two sound pools with the same codec and the same types. -/
structure EncoderPool.Alike (p p' : EncoderPool) : Prop where
  types : p'.types = p.types
  standard : p'.standard = p.standard
  sound : p.Sound
  sound' : p'.Sound

namespace EncoderPool.Alike

variable {p p' q q' : EncoderPool}

theorem refl (h : p.Sound) : p.Alike p := ⟨rfl, rfl, h, h⟩

theorem sameDesk (h : p.Alike p') (hq : SameDesk p q) (hq' : SameDesk p' q') : q.Alike q' :=
  ⟨hq'.types.trans (h.types.trans hq.types.symm), hq'.standard.trans (h.standard.trans hq.standard.symm),
    hq.sound h.sound, hq'.sound h.sound'⟩

/-- Pools that are alike prepare the same messages. -/
theorem prepare (h : p.Alike p') (topic : List String) (packet : Option Packet) (codec : Option Codec) :
    (p'.prepare topic packet codec).1 = (p.prepare topic packet codec).1 ∧
      (p.prepare topic packet codec).2.Alike (p'.prepare topic packet codec).2 := by
  refine ⟨?_, h.sameDesk (sameDesk_prepare p topic packet codec) (sameDesk_prepare p' topic packet codec)⟩
  cases happroved : approve topic packet with
  | error e => rw [prepare_eq_error_of_approve happroved, prepare_eq_error_of_approve happroved]
  | ok content =>
    rw [prepare_eq_of_approve happroved, prepare_eq_of_approve happroved, h.sound.encode_fst, h.sound'.encode_fst,
      h.standard]

/-- Pools that are alike decode alike. -/
theorem decodeDetected (h : p.Alike p') (bytes : Bytes) :
    (p'.decodeDetected bytes).1 = (p.decodeDetected bytes).1 ∧
      (p.decodeDetected bytes).2.Alike (p'.decodeDetected bytes).2 := by
  refine ⟨?_, h.sameDesk (sameDesk_decodeDetected p bytes) (sameDesk_decodeDetected p' bytes)⟩
  rw [h.sound.decodeDetected_fst, h.sound'.decodeDetected_fst, h.types]

end EncoderPool.Alike

/-! ### Clients -/

/-- Two states of a client that differ in its encoders only. -/
def Client.Alike (c c' : Client) : Prop := ∃ pool, c' = { c with encoders := pool } ∧ c.encoders.Alike pool

namespace Client.Alike

variable {c c' : Client}

theorem refl (h : c.encoders.Sound) : c.Alike c := ⟨c.encoders, rfl, .refl h⟩

theorem prepareRequest (h : c.Alike c') (header : RpcHeader) (id : CorrelationId) (expected : ExpectedReplies) :
    (∃ e, c.prepareRequest header id expected = .error e ∧ c'.prepareRequest header id expected = .error e) ∨
      ∃ d d', c.prepareRequest header id expected = .ok d ∧ c'.prepareRequest header id expected = .ok d' ∧
        d.Alike d' := by
  obtain ⟨pool, rfl, hpool⟩ := h
  have hpath : ({ c with encoders := pool } : Client).replyPath id = c.replyPath id := rfl
  unfold Client.prepareRequest
  rw [hpath]
  cases c.tree.add (c.replyPath id) (.reply c.requests.length) with
  | error e => exact .inl ⟨e, rfl, rfl⟩
  | ok tree => exact .inr ⟨_, _, rfl, rfl, pool, rfl, hpool⟩

theorem attach (h : c.Alike c') (subject : Subject) (route : Route) :
    (∃ e, c.attach subject route = .error e ∧ c'.attach subject route = .error e) ∨
      ∃ d d', c.attach subject route = .ok d ∧ c'.attach subject route = .ok d' ∧ d.Alike d' := by
  obtain ⟨pool, rfl, hpool⟩ := h
  unfold Client.attach
  cases c.tree.add subject.segments route with
  | error e =>
    cases e with
    | rootPath => exact .inl ⟨_, rfl, rfl⟩
    | alreadyRegistered path => exact .inl ⟨_, rfl, rfl⟩
  | ok tree => exact .inr ⟨_, _, rfl, rfl, pool, rfl, hpool⟩

theorem detach (h : c.Alike c') (subject : Subject) (chosen : Route → Bool) :
    (c'.detach subject chosen).1 = (c.detach subject chosen).1 ∧
      (c.detach subject chosen).2.Alike (c'.detach subject chosen).2 := by
  obtain ⟨pool, rfl, hpool⟩ := h
  exact ⟨rfl, pool, rfl, hpool⟩

theorem endRequest (h : c.Alike c') (serial : Nat) :
    (c'.endRequest serial).1 = (c.endRequest serial).1 ∧ (c.endRequest serial).2.Alike (c'.endRequest serial).2 := by
  obtain ⟨pool, rfl, hpool⟩ := h
  unfold Client.endRequest
  cases c.requests[serial]? with
  | none => exact ⟨rfl, pool, rfl, hpool⟩
  | some r =>
    simp only
    cases r.collector.finish with
    | mk outcome collector =>
      cases outcome with
      | none => exact ⟨rfl, pool, rfl, hpool⟩
      | some o => exact ⟨rfl, pool, rfl, hpool⟩

theorem setEncoders (h : c.Alike c') {p p' : EncoderPool} (hp : p.Alike p') :
    ({ c with encoders := p } : Client).Alike { c' with encoders := p' } := by
  obtain ⟨pool, rfl, -⟩ := h
  exact ⟨p', rfl, hp⟩

end Client.Alike

/-- Lists whose items correspond still do after the items at one place were changed in corresponding ways. -/
theorem forall₂_modify {α β : Type} {R : α → β → Prop} {l : List α} {l' : List β} (h : List.Forall₂ R l l') (j : Nat)
    {f : α → α} {g : β → β} (hf : ∀ a b, R a b → R (f a) (g b)) : List.Forall₂ R (l.modify j f) (l'.modify j g) := by
  induction h generalizing j with
  | nil => cases j <;> exact .nil
  | cons hab hrest ih =>
    cases j with
    | zero => exact .cons (hf _ _ hab) hrest
    | succ j => exact .cons hab (ih j)

/-- At one place both lists have items, which correspond, or neither has one. -/
theorem forall₂_getElem?_cases {α β : Type} {R : α → β → Prop} {l : List α} {l' : List β} (h : List.Forall₂ R l l')
    (j : Nat) : l[j]? = none ∧ l'[j]? = none ∨ ∃ a b, l[j]? = some a ∧ l'[j]? = some b ∧ R a b := by
  induction h generalizing j with
  | nil => exact .inl ⟨rfl, rfl⟩
  | cons hab _ ih =>
    cases j with
    | zero => exact .inr ⟨_, _, rfl, rfl, hab⟩
    | succ j => exact ih j

/-! ### The bus -/

namespace Bus

/-- Two buses that differ at most in the encoders of clients, and in what happened on them before. -/
structure Alike (past past' : List BusEvent) (b b' : Bus) : Prop where
  broker : b'.broker = b.broker
  clients : List.Forall₂ Client.Alike b.clients b'.clients
  timers : b'.timers = b.timers
  clock : b'.clock = b.clock
  running : b'.running = b.running
  room : b'.room = b.room
  events : ∃ l, b.events = past ++ l ∧ b'.events = past' ++ l

variable {past past' : List BusEvent} {b b' : Bus}

/-- Two runs that answer the same, and leave buses that are alike. -/
def AlikeResults {α : Type} (past past' : List BusEvent) (r r' : α × Bus) : Prop :=
  r'.1 = r.1 ∧ Alike past past' r.2 r'.2

/-- Two runs that fail alike, or leave buses that are alike. -/
def AlikeOutcomes {ε : Type} (past past' : List BusEvent) (r r' : Except ε Bus) : Prop :=
  (∃ e, r = .error e ∧ r' = .error e) ∨ ∃ b b', r = .ok b ∧ r' = .ok b' ∧ Alike past past' b b'

namespace Alike

theorem request?_eq (h : Alike past past' b b') (j k : Nat) : b'.request? j k = b.request? j k := by
  unfold request?
  rcases forall₂_getElem?_cases h.clients j with ⟨hc, hc'⟩ | ⟨c, _, hc, hc', pool, rfl, -⟩
  · rw [hc, hc']
  · rw [hc, hc']
    rfl

/-! ### Small changes -/

theorem record (h : Alike past past' b b') (e : BusEvent) : Alike past past' (b.record e) (b'.record e) := by
  obtain ⟨l, hl, hl'⟩ := h.events
  refine ⟨h.broker, h.clients, h.timers, h.clock, h.running, h.room, l ++ [e], ?_, ?_⟩
  · rw [← List.append_assoc, ← hl]
    rfl
  · rw [← List.append_assoc, ← hl']
    rfl

theorem updateClient (h : Alike past past' b b') (j : Nat) {f g : Client → Client}
    (hf : ∀ c c', c.Alike c' → (f c).Alike (g c')) :
    Alike past past' (b.updateClient j f) (b'.updateClient j g) :=
  ⟨h.broker, forall₂_modify h.clients j hf, h.timers, h.clock, h.running, h.room, h.events⟩

theorem withBroker (h : Alike past past' b b') (broker : Broker Listener Watcher) :
    Alike past past' { b with broker := broker } { b' with broker := broker } :=
  ⟨rfl, h.clients, h.timers, h.clock, h.running, h.room, h.events⟩

theorem logAll {α : Type} (h : Alike past past' b b') (event : α → LogEvent) (l : List α) :
    Alike past past' (l.foldl (fun b a => b.record (.logged (event a))) b)
      (l.foldl (fun b a => b.record (.logged (event a))) b') := by
  induction l generalizing b b' with
  | nil => exact h
  | cons a l ih => exact ih (h.record _)

theorem tellWatchers (h : Alike past past' b b') (told : List (Watcher × LinkEvent)) :
    Alike past past' (b.tellWatchers told) (b'.tellWatchers told) := by
  induction told generalizing b b' with
  | nil => exact h
  | cons first rest ih =>
    obtain ⟨watcher, event⟩ := first
    cases watcher with
    | observer name => exact ih (h.record _)
    | journal client => cases event <;> exact ih (h.record _)

end Alike

/-! ### Delivery -/

/-- A message that is heard on two buses that are alike leaves them alike. -/
def HearsAlike (hear : Hearing) : Prop :=
  ∀ ⦃past past' : List BusEvent⦄ ⦃b b' : Bus⦄, Alike past past' b b' → ∀ client message,
    Alike past past' (hear client message b) (hear client message b')

/-- A message that is handed to a line on two buses that are alike has the same fate on both. -/
def SendsAlike (send : Sending) : Prop :=
  ∀ ⦃past past' : List BusEvent⦄ ⦃b b' : Bus⦄, Alike past past' b b' → ∀ line message,
    AlikeResults past past' (send line message b) (send line message b')

/-- A packet that is handled on two buses that are alike is handled alike. -/
structure HandlesAlike (x : Executor Bus) : Prop where
  errors : ∀ {past past' : List BusEvent} {b b' : Bus}, Alike past past' b b' → ∀ packet errors,
    Alike past past' (x.handleErrors packet errors b) (x.handleErrors packet errors b')
  payloads : ∀ {past past' : List BusEvent} {b b' : Bus}, Alike past past' b b' → ∀ packet payloads,
    AlikeResults past past' (x.handlePayloads packet payloads b) (x.handlePayloads packet payloads b')

theorem HearsAlike.deliver {hear : Hearing} (hhear : HearsAlike hear) (h : Alike past past' b b') (message : Outgoing)
    (listeners : List Listener) :
    Alike past past' (deliver hear message listeners b) (deliver hear message listeners b') := by
  induction listeners generalizing b b' with
  | nil => exact h
  | cons listener rest ih =>
    cases listener with
    | tap => exact ih (h.record _)
    | client id => exact ih (hhear h id message)

theorem HearsAlike.transmitFrom {hear : Hearing} (hhear : HearsAlike hear) (h : Alike past past' b b')
    (endpoint : Nat) (message : Outgoing) :
    AlikeResults past past' (transmitFrom hear endpoint message b) (transmitFrom hear endpoint message b') := by
  unfold Bus.transmitFrom
  rw [h.broker]
  cases b.broker.publish endpoint message.topic with
  | error e => exact ⟨rfl, h⟩
  | ok listeners => exact ⟨rfl, hhear.deliver h message listeners⟩

theorem HearsAlike.transmit {hear : Hearing} (hhear : HearsAlike hear) (client : Nat) :
    SendsAlike (transmit hear client) := by
  intro past past' b b' h line message
  cases line with
  | endpoint id => exact hhear.transmitFrom h id message
  | tape refusing => exact ⟨rfl, h.record _⟩

theorem SendsAlike.publishVia {send : Sending} (hsend : SendsAlike send) (h : Alike past past' b b') (client : Nat)
    (topic : List String) (packet : Option Packet) (codec : Option Codec) :
    AlikeResults past past' (publishVia send client topic packet codec b)
      (publishVia send client topic packet codec b') := by
  unfold Bus.publishVia
  rcases forall₂_getElem?_cases h.clients client with ⟨hc, hc'⟩ | ⟨c, c', hc, hc', halike⟩
  · rw [hc, hc']
    exact ⟨rfl, h⟩
  · obtain ⟨hline, hpool⟩ : c'.line = c.line ∧ c.encoders.Alike c'.encoders := by
      obtain ⟨pool, rfl, hpool⟩ := halike
      exact ⟨rfl, hpool⟩
    obtain ⟨hprepared, hleft⟩ := hpool.prepare topic packet codec
    have hupdated := h.updateClient client
      (f := fun c₁ => { c₁ with encoders := (c.encoders.prepare topic packet codec).2 })
      (g := fun c₁ => { c₁ with encoders := (c'.encoders.prepare topic packet codec).2 })
      fun _ _ hcs => hcs.setEncoders hleft
    rw [hc, hc']
    simp only [hprepared, hline]
    cases (c.encoders.prepare topic packet codec).1 with
    | error e => exact ⟨rfl, hupdated⟩
    | ok message =>
      obtain ⟨hverdict, hsent⟩ := hsend hupdated c.line message
      simp only
      generalize send c.line message (b.updateClient client _) = sent at hverdict hsent
      generalize send c.line message (b'.updateClient client _) = sent' at hverdict hsent
      obtain ⟨verdict, b₁⟩ := sent
      obtain ⟨verdict', b₁'⟩ := sent'
      obtain rfl : verdict' = verdict := hverdict
      cases verdict' <;> exact ⟨rfl, hsent⟩

/-! ### Handling -/

theorem Alike.logErrors (h : Alike past past' b b') (scopes : Scopes) (message : String)
    (fields : List (String × String)) (errors : List ErrorPayload) :
    Alike past past' (b.logErrors scopes message fields errors) (b'.logErrors scopes message fields errors) := by
  unfold Bus.logErrors
  exact h.logAll (fun e => ⟨.warn, message, fields ++ [("error", ErrorPayload.text e)],
    scopes.innermost.map Identity.text⟩) errors

theorem handlesAlike_reply (client serial : Nat) : HandlesAlike (replyExecutor client serial) where
  errors := by
    intro past past' b b' h packet errors
    simp only [replyExecutor, h.request?_eq]
    split
    · exact h.record _
    · exact h
  payloads := by
    intro past past' b b' h packet payloads
    simp only [replyExecutor, h.request?_eq]
    cases b.request? client serial with
    | none => exact ⟨rfl, h⟩
    | some r =>
      refine ⟨rfl, h.updateClient client fun c c' hcs => ?_⟩
      obtain ⟨pool, rfl, hpool⟩ := hcs
      exact ⟨pool, rfl, hpool⟩

/-- A result is reported after something else was done, unless that failed. -/
theorem AlikeResults.andReport {r r' : Except BusError Unit × Bus} (result : Except BusError Unit) :
    AlikeResults past past' r r' → AlikeResults past past'
      (match r with
        | (.error e, b) => (.error e, b)
        | (.ok (), b) => (result, b))
      (match r' with
        | (.error e, b) => (.error e, b)
        | (.ok (), b) => (result, b)) := by
  obtain ⟨verdict, b₁⟩ := r
  obtain ⟨verdict', b₁'⟩ := r'
  rintro ⟨hverdict, hleft⟩
  obtain rfl : verdict' = verdict := hverdict
  cases verdict' <;> exact ⟨rfl, hleft⟩

theorem handlesAlike_request {hear : Hearing} (hhear : HearsAlike hear) (scopes : Scopes) (client : Nat)
    (responder : Identity) (subject : Subject) (handler : RequestHandler) :
    HandlesAlike (requestExecutor hear scopes client responder subject handler) where
  errors h _ errors := h.logErrors scopes _ _ errors
  payloads := by
    intro past past' b b' h packet payloads
    simp only [requestExecutor]
    cases RequestHandler.accept subject packet with
    | error e => exact ⟨rfl, h⟩
    | ok request =>
      have hcalled := h.record (.handled client handler.name (.rpc request) payloads)
      simp only
      cases handler.run request payloads with
      | ok answer => exact .andReport _ ((hhear.transmit client).publishVia hcalled client _ _ _)
      | error e => exact .andReport _ ((hhear.transmit client).publishVia (hcalled.record _) client _ _ _)

theorem handlesAlike_notification (scopes : Scopes) (client : Nat) (subject : Subject)
    (handler : NotificationHandler) : HandlesAlike (notificationExecutor scopes client subject handler) where
  errors h _ errors := h.logErrors scopes _ _ errors
  payloads h _ _ := ⟨rfl, h.record _⟩

theorem handlesAlike_executorBy {hear : Hearing} (hhear : HearsAlike hear) (scopes : Scopes) (client : Nat)
    (owner : Identity) (route : Route) : HandlesAlike (executorBy hear scopes client owner route) := by
  cases route with
  | reply serial => exact handlesAlike_reply client serial
  | request subject handler => exact handlesAlike_request hhear scopes client owner subject handler
  | notification subject handler => exact handlesAlike_notification scopes client subject handler

theorem HandlesAlike.execute {x : Executor Bus} (hx : HandlesAlike x) (decoded : Option Payload)
    (h : Alike past past' b b') : AlikeResults past past' (x.execute decoded b) (x.execute decoded b') := by
  unfold Executor.execute
  cases decoded.bind Packet.ofPayload? with
  | none => exact ⟨rfl, h⟩
  | some packet =>
    have herrors : Alike past past' (if packet.errors.isEmpty then b else x.handleErrors packet packet.errors b)
        (if packet.errors.isEmpty then b' else x.handleErrors packet packet.errors b') := by
      split
      · exact h
      · exact hx.errors h packet packet.errors
    simp only
    generalize (if packet.errors.isEmpty then b else x.handleErrors packet packet.errors b) = b₀ at herrors
    generalize (if packet.errors.isEmpty then b' else x.handleErrors packet packet.errors b') = b₀' at herrors
    obtain ⟨hverdict, hleft⟩ := hx.payloads herrors packet packet.others
    generalize x.handlePayloads packet packet.others b₀ = handled at hverdict hleft
    generalize x.handlePayloads packet packet.others b₀' = handled' at hverdict hleft
    obtain ⟨verdict, b₁⟩ := handled
    obtain ⟨verdict', b₁'⟩ := handled'
    obtain rfl : verdict' = verdict := hverdict
    cases verdict' <;> exact ⟨rfl, hleft⟩

/-! ### Dispatching -/

theorem Alike.decodeFor (h : Alike past past' b b') (scopes : Scopes) (client : Nat) {c c' : Client}
    (hc : c.Alike c') (message : Outgoing) :
    AlikeResults past past' (decodeFor scopes client c message b) (decodeFor scopes client c' message b') := by
  obtain ⟨hdecoded, hleft⟩ := (show c.encoders.Alike c'.encoders by
    obtain ⟨pool, rfl, hpool⟩ := hc
    exact hpool).decodeDetected message.bytes
  have hupdated := h.updateClient client
    (f := fun c₁ => { c₁ with encoders := (c.encoders.decodeDetected message.bytes).2 })
    (g := fun c₁ => { c₁ with encoders := (c'.encoders.decodeDetected message.bytes).2 })
    fun _ _ hcs => hcs.setEncoders hleft
  unfold Bus.decodeFor
  simp only [hdecoded]
  cases (c.encoders.decodeDetected message.bytes).1 with
  | ok payload => exact ⟨rfl, hupdated⟩
  | error e => exact ⟨rfl, hupdated.record _⟩

theorem HearsAlike.dispatchBy {hear : Scopes → Hearing} (hhear : ∀ scopes, HearsAlike (hear scopes))
    (others : Scopes) (h : Alike past past' b b') (client : Nat) (message : Outgoing) :
    AlikeResults past past' (dispatchBy hear others client message b) (dispatchBy hear others client message b') := by
  unfold Bus.dispatchBy
  rcases forall₂_getElem?_cases h.clients client with ⟨hc, hc'⟩ | ⟨c, c', hc, hc', halike⟩
  · rw [hc, hc']
    exact ⟨rfl, h⟩
  · obtain ⟨htree, hidentity⟩ : c'.tree = c.tree ∧ c'.identity = c.identity := by
      obtain ⟨pool, rfl, -⟩ := halike
      exact ⟨rfl, rfl⟩
    rw [hc, hc']
    simp only [htree, hidentity]
    cases c.tree.get? (Topic.split message.topic) with
    | none => exact ⟨rfl, h⟩
    | some route =>
      obtain ⟨hdecoded, hafter⟩ := h.decodeFor (others.enter client c.identity) client halike message
      obtain ⟨herrors, hexecuted⟩ := (handlesAlike_executorBy (hhear (others.enter client c.identity))
        (others.enter client c.identity) client c.identity route).execute
          (Bus.decodeFor (others.enter client c.identity) client c message b).1 hafter
      simp only [hdecoded, herrors]
      exact ⟨rfl, hexecuted.logAll _ _⟩

/-- Clients that hear messages do so alike, however deep deliveries nest. -/
theorem hearsAlike_hear (room : Nat) (others : Scopes) : HearsAlike (hear room others) := by
  induction room generalizing others with
  | zero => exact fun _ _ _ _ h _ _ => h
  | succ room ih =>
    intro past past' b b' h client message
    unfold Bus.hear
    have hpresent : (b'.clients[client]?).any (·.present) = (b.clients[client]?).any (·.present) := by
      rcases forall₂_getElem?_cases h.clients client with ⟨hc, hc'⟩ | ⟨c, _, hc, hc', pool, rfl, -⟩ <;> rw [hc, hc']
      rfl
    rw [hpresent]
    split
    · exact (HearsAlike.dispatchBy ih others h client message).2
    · exact h

theorem sendsAlike_transmit (room client : Nat) : SendsAlike (transmit (hear room []) client) :=
  (hearsAlike_hear room []).transmit client

end Bus

end Switchboard
