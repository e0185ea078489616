import Switchboard.Bus.Connection
import Switchboard.Proofs.Codec.Pool

/-!
# What a delivery leaves alone

While messages are delivered, clients change only in the encoders they have at hand and in what their requests have
counted (`Bus.Changed`); the broker, the timers and the clock stay. A relation between the requests before and after
says what was counted. If nothing was, and nothing was published, the bus is still (`Bus.Still`).
-/

namespace Switchboard

/-- What may become of the requests of all clients, each known by its client and its number. -/
abbrev RequestChange := Nat → Nat → Request → Request → Prop

/-- Two states of the client with a number, between which its requests changed as a relation says. -/
structure Client.Changed (ρ : RequestChange) (client : Nat) (c c' : Client) : Prop where
  identity : c'.identity = c.identity
  encoders : c.encoders.SameDesk c'.encoders
  tree : c'.tree = c.tree
  count : c'.requests.length = c.requests.length
  requests : ∀ {k r}, c.requests[k]? = some r → ∃ r', c'.requests[k]? = some r' ∧ ρ client k r r'
  timeoutMs : c'.timeoutMs = c.timeoutMs
  line : c'.line = c.line
  present : c'.present = c.present

/-- Two states of a bus between which only the requests changed, as a relation says, and the encoders. -/
structure Bus.Changed (ρ : RequestChange) (b b' : Bus) : Prop where
  broker : b'.broker = b.broker
  timers : b'.timers = b.timers
  clock : b'.clock = b.clock
  running : b'.running = b.running
  room : b'.room = b.room
  count : b'.clients.length = b.clients.length
  clients : ∀ {j : Nat} {c : Client}, b.clients[j]? = some c → ∃ c', b'.clients[j]? = some c' ∧ c.Changed ρ j c'

/-- The requests stay as they are. -/
def RequestChange.none : RequestChange := fun _ _ r r' => r' = r

theorem RequestChange.none_refl (j k : Nat) (r : Request) : none j k r r := rfl

variable {ρ ρ' ρ'' : RequestChange}

/-! ### One change after the other -/

theorem Client.Changed.refl (hρ : ∀ j k r, ρ j k r r) (j : Nat) (c : Client) : c.Changed ρ j c :=
  ⟨rfl, .refl _, rfl, rfl, fun hr => ⟨_, hr, hρ _ _ _⟩, rfl, rfl, rfl⟩

theorem Client.Changed.trans (hρ : ∀ j k r r' r'', ρ j k r r' → ρ' j k r' r'' → ρ'' j k r r'') {j : Nat}
    {c c' c'' : Client} (h : c.Changed ρ j c') (h' : c'.Changed ρ' j c'') : c.Changed ρ'' j c'' where
  identity := h'.identity.trans h.identity
  encoders := h.encoders.trans h'.encoders
  tree := h'.tree.trans h.tree
  count := h'.count.trans h.count
  requests := by
    intro k r hr
    obtain ⟨r', hr', hfirst⟩ := h.requests hr
    obtain ⟨r'', hr'', hsecond⟩ := h'.requests hr'
    exact ⟨r'', hr'', hρ _ _ _ _ _ hfirst hsecond⟩
  timeoutMs := h'.timeoutMs.trans h.timeoutMs
  line := h'.line.trans h.line
  present := h'.present.trans h.present

namespace Bus

variable {b b' b'' : Bus}

theorem Changed.refl (hρ : ∀ j k r, ρ j k r r) (b : Bus) : Changed ρ b b :=
  ⟨rfl, rfl, rfl, rfl, rfl, rfl, fun hc => ⟨_, hc, .refl hρ _ _⟩⟩

theorem Changed.trans (hρ : ∀ j k r r' r'', ρ j k r r' → ρ' j k r' r'' → ρ'' j k r r'') (h : Changed ρ b b')
    (h' : Changed ρ' b' b'') : Changed ρ'' b b'' where
  broker := h'.broker.trans h.broker
  timers := h'.timers.trans h.timers
  clock := h'.clock.trans h.clock
  running := h'.running.trans h.running
  room := h'.room.trans h.room
  count := h'.count.trans h.count
  clients := by
    intro j c hc
    obtain ⟨c', hc', hfirst⟩ := h.clients hc
    obtain ⟨c'', hc'', hsecond⟩ := h'.clients hc'
    exact ⟨c'', hc'', hfirst.trans hρ hsecond⟩

/-- Only what may become of the requests that there are has to be known. -/
theorem Changed.mono_of_request? (hρ : ∀ j k r r', b.request? j k = some r → ρ j k r r' → ρ' j k r r')
    (h : Changed ρ b b') : Changed ρ' b b' := by
  refine ⟨h.broker, h.timers, h.clock, h.running, h.room, h.count, fun {j c} hc => ?_⟩
  obtain ⟨c', hc', hchanged⟩ := h.clients hc
  refine ⟨c', hc', { hchanged with requests := fun {k r} hr => ?_ }⟩
  obtain ⟨r', hr', hrel⟩ := hchanged.requests hr
  exact ⟨r', hr', hρ _ _ _ _ (Option.bind_eq_some_iff.2 ⟨c, hc, hr⟩) hrel⟩

theorem Changed.mono (hρ : ∀ j k r r', ρ j k r r' → ρ' j k r r') (h : Changed ρ b b') : Changed ρ' b b' :=
  h.mono_of_request? fun j k r r' _ => hρ j k r r'

/-- What is a client afterwards was one before. -/
theorem Changed.exists_before (h : Changed ρ b b') {j : Nat} {c' : Client} (hc' : b'.clients[j]? = some c') :
    ∃ c, b.clients[j]? = some c ∧ c.Changed ρ j c' := by
  have hlt : j < b.clients.length := by
    rw [← h.count]
    exact (List.getElem?_eq_some_iff.1 hc').1
  obtain ⟨c'', hc'', hchanged⟩ := h.clients (List.getElem?_eq_getElem hlt)
  obtain rfl : c'' = c' := Option.some.inj (hc''.symm.trans hc')
  exact ⟨_, List.getElem?_eq_getElem hlt, hchanged⟩

/-! ### Small changes -/

theorem clients_updateClient (b : Bus) (id : Nat) (f : Client → Client) (j : Nat) :
    (b.updateClient id f).clients[j]? = if id = j then (b.clients[j]?).map f else b.clients[j]? := by
  unfold updateClient
  rw [List.getElem?_modify]
  split <;> simp_all

theorem clients_updateClient_self {id : Nat} {c : Client} (hc : b.clients[id]? = some c) (f : Client → Client) :
    (b.updateClient id f).clients[id]? = some (f c) := by
  rw [clients_updateClient, if_pos rfl, hc]
  rfl

theorem clients_updateClient_of_ne {id j : Nat} (hj : id ≠ j) (b : Bus) (f : Client → Client) :
    (b.updateClient id f).clients[j]? = b.clients[j]? := by
  rw [clients_updateClient, if_neg hj]

/-- A client is replaced by what it has become. -/
theorem updateClient_const {id : Nat} {c : Client} (hc : b.clients[id]? = some c) (f : Client → Client) :
    (b.updateClient id fun _ => f c) = b.updateClient id f := by
  unfold updateClient
  congr 1
  refine List.ext_getElem? fun j => ?_
  rw [List.getElem?_modify, List.getElem?_modify]
  by_cases hj : id = j
  · subst hj
    simp [hc]
  · simp [hj]

theorem updateClient_eq_self {client : Nat} {c : Client} (hc : b.clients[client]? = some c) :
    (b.updateClient client fun _ => c) = b := by
  refine (updateClient_const hc id).trans ?_
  unfold updateClient
  rw [List.modify_id]

/-- A client is replaced by what it may become. -/
theorem changed_updateClient (hρ : ∀ j k r, ρ j k r r) (b : Bus) {id : Nat} {f : Client → Client}
    (hf : ∀ c, b.clients[id]? = some c → c.Changed ρ id (f c)) : Changed ρ b (b.updateClient id f) := by
  refine ⟨rfl, rfl, rfl, rfl, rfl, by simp [updateClient], fun {j c} hc => ?_⟩
  rw [clients_updateClient]
  split
  · rename_i hj
    subst hj
    exact ⟨f c, by rw [hc]; rfl, hf c hc⟩
  · exact ⟨c, hc, .refl hρ j c⟩

/-- Nothing changes, or what a client binds is all that does. -/
theorem attachTo_cases (b : Bus) (client : Nat) (f : Client → Except BusError Client) :
    (∃ result, b.attachTo client f = (result, b)) ∨
      ∃ c c', b.clients[client]? = some c ∧ f c = .ok c' ∧
        b.attachTo client f = (.ok (), b.updateClient client fun _ => c') := by
  unfold attachTo
  cases hc : b.clients[client]? with
  | none => exact .inl ⟨_, rfl⟩
  | some c =>
    simp only
    cases hf : f c with
    | error e => exact .inl ⟨_, rfl⟩
    | ok c' => exact .inr ⟨c, c', rfl, hf, rfl⟩

/-- There is no such client, or what it releases is all that changes. -/
theorem detachFrom_cases (b : Bus) (client : Nat) (f : Client → Bool × Client) :
    (b.clients[client]? = none ∧ b.detachFrom client f = (false, b)) ∨
      ∃ c, b.clients[client]? = some c ∧
        b.detachFrom client f = ((f c).1, b.updateClient client fun _ => (f c).2) := by
  unfold detachFrom
  cases hc : b.clients[client]? with
  | none => exact .inl ⟨rfl, rfl⟩
  | some c => exact .inr ⟨c, rfl, rfl⟩

end Bus

/-! ### Stillness -/

/-- The event stays inside: nothing is published, and no sender is told anything. -/
def BusEvent.IsInner : BusEvent → Prop
  | .logged _ | .handled _ _ _ _ => True
  | _ => False

namespace Bus

variable {b b' b'' : Bus}

/-- Handlers may have been called and things been logged, but nothing was published, and no reply was counted. -/
structure Still (b b' : Bus) : Prop where
  changed : Changed .none b b'
  events : ∃ l, b'.events = b.events ++ l ∧ ∀ e ∈ l, e.IsInner

theorem Changed.refl_none (b : Bus) : Changed .none b b := .refl RequestChange.none_refl b

theorem Changed.none_trans (h : Changed .none b b') (h' : Changed ρ b' b'') : Changed ρ b b'' := by
  refine h.trans ?_ h'
  intro j k r r' r'' hfirst hsecond
  rwa [hfirst] at hsecond

theorem Changed.trans_none (h : Changed ρ b b') (h' : Changed .none b' b'') : Changed ρ b b'' := by
  refine h.trans ?_ h'
  intro j k r r' r'' hfirst hsecond
  rwa [hsecond]

theorem changed_record (b : Bus) (e : BusEvent) : Changed .none b (b.record e) :=
  ⟨rfl, rfl, rfl, rfl, rfl, rfl, fun hc => ⟨_, hc, .refl RequestChange.none_refl _ _⟩⟩

theorem Still.refl (b : Bus) : Still b b := ⟨.refl_none b, [], by simp, by simp⟩

theorem Still.trans (h : Still b b') (h' : Still b' b'') : Still b b'' := by
  obtain ⟨l, hl, hinner⟩ := h.events
  obtain ⟨l', hl', hinner'⟩ := h'.events
  refine ⟨h.changed.none_trans h'.changed, l ++ l', by rw [hl', hl, List.append_assoc], fun e he => ?_⟩
  rcases List.mem_append.1 he with he | he
  · exact hinner e he
  · exact hinner' e he

theorem still_record (b : Bus) {e : BusEvent} (he : e.IsInner) : Still b (b.record e) := by
  refine ⟨changed_record b e, [e], rfl, ?_⟩
  intro e' he'
  rw [List.mem_singleton.1 he']
  exact he

theorem still_log (b : Bus) (scope : Option Identity) (level : LogLevel) (message : String)
    (fields : List (String × String)) : Still b (b.log scope level message fields) := still_record b trivial

theorem still_logErrors (b : Bus) (scopes : Scopes) (message : String) (fields : List (String × String))
    (errors : List ErrorPayload) : Still b (b.logErrors scopes message fields errors) := by
  unfold logErrors
  induction errors generalizing b with
  | nil => exact .refl b
  | cons e r ih => exact (still_log b _ _ _ _).trans (ih _)

/-- A client takes its encoders back. -/
theorem still_updateEncoders {c : Client} {id : Nat} (hc : b.clients[id]? = some c) {encoders : EncoderPool}
    (h : c.encoders.SameDesk encoders) :
    Still b (b.updateClient id fun c => { c with encoders := encoders }) := by
  refine ⟨changed_updateClient RequestChange.none_refl b fun c' hc' => ?_, [], by simp [updateClient], by simp⟩
  obtain rfl : c = c' := Option.some.inj (hc.symm.trans hc')
  exact ⟨rfl, h, rfl, rfl, fun hr => ⟨_, hr, rfl⟩, rfl, rfl, rfl⟩

end Bus

end Switchboard
