import Switchboard.Proofs.Delivery.Dispatching
import Switchboard.Proofs.Delivery.Operation
import Switchboard.Proofs.Request.Ends

/-!
# Handlers and errors

Of the operations on a bus only those that publish or dispatch a message call handlers, and then by dispatching it. So
in no run is a handler called with an error (`Bus.sifted_performAll`).
-/

namespace Switchboard.Bus

variable {b b' : Bus}

/-! ### Operations that call no handler -/

theorem handlerCalls_tellWatchers (b : Bus) (told : List (Watcher × LinkEvent)) :
    (b.tellWatchers told).handlerCalls = b.handlerCalls := by
  induction told generalizing b with
  | nil => rfl
  | cons entry rest ih =>
    obtain ⟨watcher, event⟩ := entry
    cases watcher with
    | observer name =>
      rw [tellWatchers, ih, handlerCalls_record]
      exact List.append_nil _
    | journal client => cases event <;> rw [tellWatchers, ih, handlerCalls_log]

theorem handlerCalls_connect (b : Bus) (endpoint : Nat) : (b.connect endpoint).handlerCalls = b.handlerCalls :=
  handlerCalls_tellWatchers _ _

theorem handlerCalls_disconnect (b : Bus) (endpoint : Nat) : (b.disconnect endpoint).handlerCalls = b.handlerCalls :=
  handlerCalls_tellWatchers b _

theorem handlerCalls_lose (b : Bus) (endpoint : Nat) (cause : String) :
    (b.lose endpoint cause).handlerCalls = b.handlerCalls :=
  handlerCalls_tellWatchers _ _

theorem handlerCalls_of_subscribe {endpoint : Nat} {filters : List String}
    (h : b.subscribe endpoint filters = .ok b') :
    b'.handlerCalls = b.handlerCalls := by
  unfold subscribe at h
  cases hb : b.broker.subscribe endpoint filters with
  | error e => rw [hb] at h; cases h
  | ok broker => rw [hb] at h; cases h; rfl

theorem handlerCalls_of_unsubscribe {endpoint : Nat} {filters : List String}
    (h : b.unsubscribe endpoint filters = .ok b') : b'.handlerCalls = b.handlerCalls := by
  unfold unsubscribe at h
  cases hb : b.broker.unsubscribe endpoint filters with
  | error e => rw [hb] at h; cases h
  | ok broker => rw [hb] at h; cases h; rfl

/-- Where an operation fails nothing has happened. -/
theorem handlerCalls_toOption_getD {result : Except TransportError Bus}
    (h : ∀ b', result = .ok b' → b'.handlerCalls = b.handlerCalls) :
    (result.toOption.getD b).handlerCalls = b.handlerCalls := by
  cases result with
  | error e => rfl
  | ok b' => exact h b' rfl

theorem handlerCalls_attachTo (b : Bus) (client : Nat) (f : Client → Except BusError Client) :
    (b.attachTo client f).2.handlerCalls = b.handlerCalls := by
  rcases b.attachTo_cases client f with ⟨_, heq⟩ | ⟨_, _, -, -, heq⟩ <;> rw [heq]
  rfl

theorem handlerCalls_detachFrom (b : Bus) (client : Nat) (f : Client → Bool × Client) :
    (b.detachFrom client f).2.handlerCalls = b.handlerCalls := by
  rcases b.detachFrom_cases client f with ⟨-, heq⟩ | ⟨_, -, heq⟩ <;> rw [heq]
  rfl

theorem handlerCalls_addTap (b : Bus) (filters : List String) :
    (b.addTap filters).2.handlerCalls = b.handlerCalls := by
  unfold addTap
  simp only
  generalize hb : ({ b.createEndpoint.2 with
    broker := b.createEndpoint.2.broker.setListener b.createEndpoint.1 Listener.tap } : Bus).connect
      b.createEndpoint.1 = b₁
  have hconnected : b₁.handlerCalls = b.handlerCalls := by
    rw [← hb, handlerCalls_connect]
    rfl
  rw [← hconnected]
  exact handlerCalls_toOption_getD fun b₂ hsubscribe => handlerCalls_of_subscribe hsubscribe

theorem handlerCalls_of_join {identity : Identity} {encoders : EncoderPool} {line : Line} {client : Nat}
    (h : b.join identity encoders line = .ok (client, b')) : b'.handlerCalls = b.handlerCalls := by
  unfold join at h
  split at h
  · cases h
    rfl
  · cases h

theorem handlerCalls_openOn (b : Bus) (identity : Identity) (endpoint : Nat) (encoders : EncoderPool) :
    (b.openOn identity endpoint encoders).2.handlerCalls = b.handlerCalls := by
  unfold openOn
  split
  · rfl
  · rename_i client b₁ hjoin
    simp only
    generalize hb : ({ b₁.watch endpoint (.journal identity.text) with
      broker := (b₁.watch endpoint (.journal identity.text)).broker.setListener endpoint (.client client) } :
        Bus).connect endpoint = b₂
    have hconnected : b₂.handlerCalls = b.handlerCalls := by
      rw [← hb, handlerCalls_connect, ← handlerCalls_of_join hjoin]
      rfl
    split
    · exact hconnected
    · rename_i b₃ hsubscribe
      rw [handlerCalls_log, handlerCalls_of_subscribe hsubscribe, hconnected]

theorem handlerCalls_openWith (b : Bus) (settings : Settings)
    (transports : TransportRegistry (Broker Listener Watcher)) (types : TypeRegistry) :
    (b.openWith settings transports types).2.handlerCalls = b.handlerCalls := by
  unfold openWith
  split
  · rfl
  · rename_i identity _
    split
    · rfl
    · rename_i endpoint broker _
      have hopened := handlerCalls_openOn { b with broker := broker } identity endpoint
        (.empty types settings.codec settings.encoderPoolSize.toNat)
      simp only
      split <;> rename_i hopen <;> rw [hopen] at hopened <;> exact hopened

theorem handlerCalls_close (b : Bus) (client : Nat) : (b.close client).2.handlerCalls = b.handlerCalls := by
  unfold close
  split
  · rfl
  · split
    · rfl
    · split
      · split
        · rfl
        · rename_i hunsubscribe
          rw [handlerCalls_log, handlerCalls_disconnect, handlerCalls_of_unsubscribe hunsubscribe]
      · rfl

theorem handlerCalls_tellOutcome (b : Bus) (t : Timer) (scope : Identity) (o : RequestOutcome) :
    (b.tellOutcome t scope o).handlerCalls = b.handlerCalls := by
  obtain ⟨l, hl⟩ := b.exists_tellOutcome_eq t scope o
  rw [hl]
  simp [handlerCalls, List.filterMap_map, Function.comp_def, BusEvent.handlerCall?]

theorem handlerCalls_fire (b : Bus) (t : Timer) : (b.fire t).handlerCalls = b.handlerCalls := by
  unfold fire
  split
  · rfl
  · simp only
    split
    · rfl
    · exact handlerCalls_tellOutcome _ _ _ _

theorem handlerCalls_advance (b : Bus) (ms : Nat) : (b.advance ms).handlerCalls = b.handlerCalls := by
  have hfires : ∀ (ts : List Timer) (b : Bus), (ts.foldl fire b).handlerCalls = b.handlerCalls := by
    intro ts
    induction ts with
    | nil => exact fun _ => rfl
    | cons t ts ih => exact fun b => (ih _).trans (handlerCalls_fire b t)
  exact hfires _ _

/-! ### All operations -/

theorem callsOnly_publish (b : Bus) (client : Nat) (topic : List String) (packet : Option Packet)
    (codec : Option Codec) : CallsOnly HandlerCall.Sifted b (b.publish client topic packet codec).2 :=
  (callsOnly_hear b.room []).publishBy client topic packet codec b

theorem callsOnly_request (b : Bus) (client : Nat) (id : CorrelationId) (destination : Destination)
    (subject : Subject) (payloads : List Payload) (expected : ExpectedReplies) (timeoutMs : Nat) :
    CallsOnly HandlerCall.Sifted b (b.request client id destination subject payloads expected timeoutMs).2 := by
  unfold request requestVia
  split
  · exact .refl b
  · rename_i c hc
    simp only
    split
    · exact .refl b
    · rename_i prepared hprepared
      have hpublished := (callsOnly_hear b.room []).publishBy client (destination.topicFor c.identity subject)
        (some ⟨.rpc (.of subject c.identity destination id), payloads⟩) none (b.updateClient client fun _ => prepared)
      rw [publishBy] at hpublished
      split <;> rename_i hsent <;> rw [hsent] at hpublished
      · refine hpublished.trans (.of_eq ?_)
        rw [handlerCalls_log]
        rfl
      · exact hpublished

/-- One step: whatever is done on a bus, handlers are not called with errors. -/
theorem callsOnly_perform (b : Bus) (o : Operation) : CallsOnly HandlerCall.Sifted b (b.perform o) := by
  cases o with
  | create => exact .of_eq rfl
  | watch endpoint watcher => exact .of_eq rfl
  | connect endpoint => exact .of_eq (handlerCalls_connect b endpoint)
  | disconnect endpoint => exact .of_eq (handlerCalls_disconnect b endpoint)
  | lose endpoint cause => exact .of_eq (handlerCalls_lose b endpoint cause)
  | subscribe endpoint filters => exact .of_eq (handlerCalls_toOption_getD fun _ h => handlerCalls_of_subscribe h)
  | unsubscribe endpoint filters => exact .of_eq (handlerCalls_toOption_getD fun _ h => handlerCalls_of_unsubscribe h)
  | tap filters => exact .of_eq (handlerCalls_addTap b filters)
  | join identity types standard capacity line =>
    refine .of_eq ?_
    simp only [perform]
    cases h : b.join identity (.empty types standard capacity) line with
    | error e => rfl
    | ok joined => exact handlerCalls_of_join h
  | openOn identity endpoint types standard capacity => exact .of_eq (handlerCalls_openOn b identity endpoint _)
  | openWith settings types => exact .of_eq (handlerCalls_openWith b settings _ types)
  | close client => exact .of_eq (handlerCalls_close b client)
  | forget client => exact .of_eq rfl
  | register client subject h => exact .of_eq (handlerCalls_attachTo b client _)
  | unregister client subject name => exact .of_eq (handlerCalls_detachFrom b client _)
  | listen client subject h => exact .of_eq (handlerCalls_attachTo b client _)
  | unlisten client subject name => exact .of_eq (handlerCalls_detachFrom b client _)
  | publish client topic packet codec => exact callsOnly_publish b client topic packet codec
  | notify client destination subject payloads =>
    simp only [perform, notify]
    split
    · exact .refl b
    · exact callsOnly_publish b client _ _ _
  | inject endpoint message => exact (callsOnly_hear b.room []).transmitFrom endpoint message b
  | dispatch client message => exact callsOnly_dispatchBy (callsOnly_hear b.room) [] client message b
  | request client id destination subject payloads expected timeoutMs =>
    exact callsOnly_request b client id destination subject payloads expected timeoutMs
  | advance ms => exact .of_eq (handlerCalls_advance b ms)

/-- No handler is ever called with an error. -/
theorem sifted_performAll (room : Nat) (operations : List Operation) :
    ∀ call ∈ ((empty room).performAll operations).handlerCalls, call.Sifted := by
  have hall : ∀ b : Bus, CallsOnly HandlerCall.Sifted b (b.performAll operations) := by
    induction operations with
    | nil => exact fun b => .refl b
    | cons o operations ih => exact fun b => (callsOnly_perform b o).trans (ih _)
  obtain ⟨l, hl, hsifted⟩ := hall (empty room)
  intro call hcall
  rw [hl] at hcall
  exact hsifted call hcall

end Switchboard.Bus
