import Switchboard.Proofs.Executor
import Switchboard.Proofs.Request.Run

/-!
# What leaves requests alone

A bus changes quietly if the requester keeps its identity, its tree, its line and its requests, no timer is set or
fires, the clock stands still, and no sender is told of replies. Logging is quiet, and so are the handlers of requests
and notifications, which on a tape only record what they publish.
-/

namespace Switchboard

/-- Two states of a client that differ at most in the encoders it has at hand. -/
structure SameBooks (c c' : Client) : Prop where
  identity : c'.identity = c.identity
  tree : c'.tree = c.tree
  line : c'.line = c.line
  requests : c'.requests = c.requests

theorem SameBooks.refl (c : Client) : SameBooks c c := ⟨rfl, rfl, rfl, rfl⟩

theorem SameBooks.trans {c c' c'' : Client} (h : SameBooks c c') (h' : SameBooks c' c'') : SameBooks c c'' :=
  ⟨h'.identity.trans h.identity, h'.tree.trans h.tree, h'.line.trans h.line, h'.requests.trans h.requests⟩

namespace Bus

theorem repliesTold_record (b : Bus) (e : BusEvent) (k : Nat) :
    (b.record e).repliesTold k = b.repliesTold k ++ (e.replies? k).toList := by
  cases h : e.replies? k <;> simp [repliesTold, record, h]

structure Quiet (b b' : Bus) : Prop where
  clients : ∀ {c}, b.clients = [c] → ∃ c', b'.clients = [c'] ∧ SameBooks c c'
  timers : b'.timers = b.timers
  clock : b'.clock = b.clock
  told : ∀ k, b'.repliesTold k = b.repliesTold k

theorem Quiet.refl (b : Bus) : Quiet b b := ⟨fun h => ⟨_, h, .refl _⟩, rfl, rfl, fun _ => rfl⟩

theorem Quiet.trans {b b' b'' : Bus} (h : Quiet b b') (h' : Quiet b' b'') : Quiet b b'' := by
  refine ⟨fun hc => ?_, h'.timers.trans h.timers, h'.clock.trans h.clock, fun k => (h'.told k).trans (h.told k)⟩
  obtain ⟨c', hc', hsame⟩ := h.clients hc
  obtain ⟨c'', hc'', hsame'⟩ := h'.clients hc'
  exact ⟨c'', hc'', hsame.trans hsame'⟩

/-! ### Events -/

theorem quiet_record (b : Bus) {e : BusEvent} (he : ∀ k, e.replies? k = none) : Quiet b (b.record e) :=
  ⟨fun h => ⟨_, h, .refl _⟩, rfl, rfl, fun k => by rw [repliesTold_record, he]; simp⟩

theorem quiet_log (b : Bus) (scope : Option Identity) (level : LogLevel) (message : String)
    (fields : List (String × String)) : Quiet b (b.log scope level message fields) := quiet_record b fun _ => rfl

theorem quiet_logErrors (b : Bus) (scopes : Scopes) (message : String) (fields : List (String × String))
    (errors : List ErrorPayload) : Quiet b (b.logErrors scopes message fields errors) := by
  unfold logErrors
  induction errors generalizing b with
  | nil => exact .refl b
  | cons e r ih => exact (quiet_log b _ _ _ _).trans (ih _)

/-! ### Encoders -/

theorem quiet_updateEncoders (b : Bus) (encoders : EncoderPool) :
    Quiet b (b.updateClient 0 fun c => { c with encoders := encoders }) := by
  refine ⟨fun {c} h => ⟨{ c with encoders := encoders }, ?_, rfl, rfl, rfl, rfl⟩, rfl, rfl, fun _ => rfl⟩
  simp [updateClient, h]

/-- On a tape publishing is quiet. -/
theorem quiet_publishBy {b : Bus} {c : Client} (hc : b.clients = [c]) {refusing : Bool}
    (hline : c.line = .tape refusing) (hear : Hearing) (topic : List String) (packet : Option Packet)
    (codec : Option Codec) : Quiet b (publishBy hear 0 topic packet codec b).2 := by
  have hget : b.clients[0]? = some c := by rw [hc]; rfl
  simp only [publishBy, publishVia, hget, hline]
  cases hp : c.encoders.prepare topic packet codec with
  | mk result encoders =>
    cases result with
    | error e => exact quiet_updateEncoders b encoders
    | ok message =>
      have htaped : ∀ b : Bus, Quiet b (b.record (.taped 0 message)) := fun b => quiet_record b fun _ => rfl
      simp only [transmit]
      cases refusing
      · exact (quiet_updateEncoders b encoders).trans (htaped _)
      · exact (quiet_updateEncoders b encoders).trans (htaped _)

/-! ### Handlers -/

/-- An executor that changes the bus quietly. -/
structure QuietExecutor (b : Bus) (x : Executor Bus) : Prop where
  errors : ∀ {b'}, Quiet b b' → ∀ packet errors, Quiet b' (x.handleErrors packet errors b')
  payloads : ∀ {b'}, Quiet b b' → ∀ packet payloads, Quiet b' (x.handlePayloads packet payloads b').2

theorem QuietExecutor.execute {b : Bus} {x : Executor Bus} (h : QuietExecutor b x) (decoded : Option Payload) :
    Quiet b (x.execute decoded b).2 := by
  rw [Executor.execute_snd]
  cases decoded.bind Packet.ofPayload? with
  | none => exact .refl b
  | some packet =>
    have herrors : Quiet b (if packet.errors.isEmpty then b else x.handleErrors packet packet.errors b) := by
      split
      · exact .refl b
      · exact h.errors (.refl b) _ _
    exact herrors.trans (h.payloads herrors packet packet.others)

theorem quietExecutor_request {b : Bus} {c : Client} (hc : b.clients = [c]) {refusing : Bool}
    (hline : c.line = .tape refusing) (hear : Hearing) (scopes : Scopes) (responder : Identity) (subject : Subject)
    (h : RequestHandler) : QuietExecutor b (requestExecutor hear scopes 0 responder subject h) where
  errors _ _ _ := quiet_logErrors _ _ _ _ _
  payloads := by
    intro b' hb packet payloads
    simp only [requestExecutor]
    split
    · exact .refl b'
    · rename_i request _
      have hhandled : Quiet b' (b'.record (.handled 0 h.name (.rpc request) payloads)) :=
        quiet_record b' fun _ => rfl
      have hpublish : ∀ {b₁ b₂ : Bus} {reply : Option Packet} {result : Except BusError Unit}, Quiet b' b₁ →
          publishBy hear 0 request.replyTopic reply none b₁ = (result, b₂) → Quiet b' b₂ := by
        intro b₁ b₂ reply result hb₁ hpublished
        obtain ⟨c', hc', hsame⟩ := (hb.trans hb₁).clients hc
        have hquiet := quiet_publishBy hc' (hsame.line.trans hline) hear request.replyTopic reply none
        rw [hpublished] at hquiet
        exact hb₁.trans hquiet
      -- whether the answer gets out or not, the bus is the one that `publishBy` leaves
      cases h.run request payloads with
      | ok answer =>
        generalize hpublished : publishBy hear 0 request.replyTopic _ none _ = published
        obtain ⟨result, b''⟩ := published
        cases result <;> exact hpublish hhandled hpublished
      | error e =>
        have hlogged := hhandled.trans (quiet_log _ scopes.innermost .warn "request handler failed"
          [("subject", subject.text), ("packet_id", request.packetId), ("error", e.message)])
        generalize hpublished : publishBy hear 0 request.replyTopic _ none _ = published
        obtain ⟨result, b''⟩ := published
        cases result <;> exact hpublish hlogged hpublished

theorem quietExecutor_notification (b : Bus) (scopes : Scopes) (subject : Subject) (h : NotificationHandler) :
    QuietExecutor b (notificationExecutor scopes 0 subject h) where
  errors _ _ _ := quiet_logErrors _ _ _ _ _
  payloads _ _ _ := quiet_record _ fun _ => rfl

end Bus

end Switchboard
