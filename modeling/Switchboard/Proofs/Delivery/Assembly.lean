import Mathlib.Data.List.Nodup
import Switchboard.Proofs.Delivery.Gathering
import Switchboard.Proofs.Delivery.Soundness
import Switchboard.Proofs.Topic.Subscription

/-!
# Who is reached

On a bus where all who listen are open connections (`Bus.Assembly`), a message reaches those connections whose filters
accept its topic, each of them once. What a request gathers while the message is passed to them is what the message
makes them answer, in the order in which it reaches them (`Bus.Changed.deliver_gathers`).
-/

namespace Switchboard

/-- The client that listens. -/
def Listener.client? : Listener → Option Nat
  | client j => some j
  | tap => none

namespace Bus

/-- The client listens on an endpoint that is online, to the topics that it answers to and to no others. -/
structure ConnectedAt (b : Bus) (j : Nat) (c : Client) (e : Nat) : Prop where
  client : b.clients[j]? = some c
  present : c.present = true
  line : c.line = .endpoint e
  online : e ∈ b.broker.online
  listener : (b.broker.endpoint e).listener = some (.client j)
  filters : ∀ f, f ∈ (b.broker.endpoint e).filters ↔ f ∈ c.identity.filters

/-- The client is an open connection. -/
def Connected (b : Bus) (j : Nat) (c : Client) : Prop := ∃ e, b.ConnectedAt j c e

/-- Whoever listens is an open connection, unless it has been forgotten. All connections belong to one application,
and none of them takes the name that stands for everyone. -/
structure Assembly (b : Bus) : Prop where
  listeners : ∀ {e j}, e ∈ b.broker.online → (b.broker.endpoint e).listener = some (.client j) →
    ∃ c, b.clients[j]? = some c ∧ (c.present = true → b.ConnectedAt j c e)
  valid : ∀ {j c}, b.Connected j c → c.identity.Valid
  unreserved : ∀ {j c}, b.Connected j c →
    c.identity.group ≠ Segment.broadcast ∧ c.identity.client ≠ Segment.broadcast
  shared : ∀ {j c j' c'}, b.Connected j c → b.Connected j' c' → c.identity.SharesApp c'.identity

variable {b b' : Bus} {j : Nat} {c c' : Client} {topic : String}

theorem Connected.client (h : b.Connected j c) : b.clients[j]? = some c := by
  obtain ⟨e, he⟩ := h
  exact he.client

theorem Connected.unique (h : b.Connected j c) (h' : b.Connected j c') : c = c' :=
  Option.some.inj (h.client.symm.trans h'.client)

theorem ConnectedAt.accepts {e : Nat} (h : b.ConnectedAt j c e) (topic : String) :
    (b.broker.endpoint e).accepts topic = c.identity.filters.any (Filter.covering · topic) := by
  rw [Endpoint.accepts, Bool.eq_iff_iff, List.any_eq_true, List.any_eq_true]
  constructor
  · rintro ⟨f, hf, hcovering⟩
    exact ⟨f, (h.filters f).1 hf, hcovering⟩
  · rintro ⟨f, hf, hcovering⟩
    exact ⟨f, (h.filters f).2 hf, hcovering⟩

/-- The clients that a message on a topic reaches, one after the other. -/
def reachedClients (b : Bus) (topic : String) : List Nat := (b.broker.reached topic).filterMap Listener.client?

theorem mem_reachedClients : j ∈ b.reachedClients topic ↔
    ∃ e ∈ b.broker.online, (b.broker.endpoint e).accepts topic = true ∧
      (b.broker.endpoint e).listener = some (.client j) := by
  have hclient : ∀ listener : Listener, listener.client? = some j ↔ listener = .client j := by
    intro listener
    cases listener <;> simp [Listener.client?]
  simp only [reachedClients, Broker.reached, List.mem_filterMap, Option.ite_none_right_eq_some, hclient]
  constructor
  · rintro ⟨listener, ⟨e, he, haccepts, hlistener⟩, rfl⟩
    exact ⟨e, he, haccepts, hlistener⟩
  · rintro ⟨e, he, haccepts, hlistener⟩
    exact ⟨_, ⟨e, he, haccepts, hlistener⟩, rfl⟩

namespace Assembly

/-- Of the clients that are present, a message reaches the connections that listen to its topic. -/
theorem mem_reachedClients_iff (h : b.Assembly) (hc : b.clients[j]? = some c) (hpresent : c.present = true) :
    j ∈ b.reachedClients topic ↔
      b.Connected j c ∧ c.identity.filters.any (Filter.covering · topic) = true := by
  rw [mem_reachedClients]
  constructor
  · rintro ⟨e, he, haccepts, hlistener⟩
    obtain ⟨c', hc', hconnected⟩ := h.listeners he hlistener
    obtain rfl : c = c' := Option.some.inj (hc.symm.trans hc')
    exact ⟨⟨e, hconnected hpresent⟩, (hconnected hpresent).accepts topic ▸ haccepts⟩
  · rintro ⟨⟨e, hconnected⟩, hcovering⟩
    exact ⟨e, hconnected.online, (hconnected.accepts topic).trans hcovering, hconnected.listener⟩

/-- It reaches each of them once. -/
theorem nodup_filter_reachedClients (h : b.Assembly) (hsound : b.broker.Sound) (topic : String) {p : Nat → Bool}
    (hp : ∀ j c, p j = true → b.clients[j]? = some c → c.present = true) :
    ((b.reachedClients topic).filter p).Nodup := by
  unfold reachedClients Broker.reached
  rw [List.filterMap_filterMap, List.filter_filterMap, List.Nodup, List.pairwise_filterMap]
  refine List.Pairwise.imp_of_mem ?_ hsound.nodup
  intro e e' he he' hne j hj j' hj' heq
  subst heq
  -- a client that is present listens on its own line
  have hline : ∀ {e : Nat}, e ∈ b.broker.online →
      Option.filter p (((if (b.broker.endpoint e).accepts topic then (b.broker.endpoint e).listener else none)).bind
        Listener.client?) = some j → ∃ c, b.clients[j]? = some c ∧ c.line = .endpoint e := by
    intro e he hfiltered
    obtain ⟨hbind, hpj⟩ := Option.filter_eq_some_iff.1 hfiltered
    obtain ⟨listener, hlistener, hclient⟩ := Option.bind_eq_some_iff.1 hbind
    rw [Option.ite_none_right_eq_some] at hlistener
    obtain ⟨-, hlistener⟩ := hlistener
    cases listener with
    | tap => cases hclient
    | client i =>
      cases hclient
      obtain ⟨c, hc, hconnected⟩ := h.listeners he hlistener
      exact ⟨c, hc, (hconnected (hp j c hpj hc)).line⟩
  obtain ⟨c, hc, hat⟩ := hline he hj
  obtain ⟨c', hc', hat'⟩ := hline he' hj'
  obtain rfl : c = c' := Option.some.inj (hc.symm.trans hc')
  exact hne (Line.endpoint.inj (hat.symm.trans hat'))

end Assembly

/-! ### When one client changes -/

section Update

variable {s : Nat} {asker asker' : Client}

/-- Connections stay connections when a client changes in what others do not see of it. -/
theorem connectedAt_updateClient (hs : b.clients[s]? = some asker) (hidentity : asker'.identity = asker.identity)
    (hline : asker'.line = asker.line) (hpresent : asker'.present = asker.present) {c' : Client} {e : Nat} :
    (b.updateClient s fun _ => asker').ConnectedAt j c' e ↔
      ∃ c, b.ConnectedAt j c e ∧ c' = if j = s then asker' else c := by
  have hclients := b.clients_updateClient s (fun _ => asker') j
  constructor
  · intro h
    have hclient := hclients.symm.trans h.client
    by_cases hj : j = s
    · subst hj
      rw [if_pos rfl, hs] at hclient
      obtain rfl : asker' = c' := Option.some.inj hclient
      refine ⟨asker, ⟨hs, hpresent ▸ h.present, hline ▸ h.line, h.online, h.listener, ?_⟩, (if_pos rfl).symm⟩
      rw [← hidentity]
      exact h.filters
    · rw [if_neg (Ne.symm hj)] at hclient
      exact ⟨c', ⟨hclient, h.present, h.line, h.online, h.listener, h.filters⟩, (if_neg hj).symm⟩
  · rintro ⟨c, h, rfl⟩
    by_cases hj : j = s
    · subst hj
      obtain rfl : asker = c := Option.some.inj (hs.symm.trans h.client)
      rw [if_pos rfl]
      refine ⟨?_, hpresent.trans h.present, hline.trans h.line, h.online, h.listener, ?_⟩
      · rw [hclients, if_pos rfl, hs]
        rfl
      · rw [hidentity]
        exact h.filters
    · rw [if_neg hj]
      refine ⟨?_, h.present, h.line, h.online, h.listener, h.filters⟩
      rw [hclients, if_neg (Ne.symm hj)]
      exact h.client

theorem connected_updateClient (hs : b.clients[s]? = some asker) (hidentity : asker'.identity = asker.identity)
    (hline : asker'.line = asker.line) (hpresent : asker'.present = asker.present) {c' : Client} :
    (b.updateClient s fun _ => asker').Connected j c' ↔
      ∃ c, b.Connected j c ∧ c' = if j = s then asker' else c := by
  unfold Connected
  simp only [connectedAt_updateClient hs hidentity hline hpresent]
  constructor
  · rintro ⟨e, c, hat, hc'⟩
    exact ⟨c, ⟨e, hat⟩, hc'⟩
  · rintro ⟨c, ⟨e, hat⟩, hc'⟩
    exact ⟨e, c, hat, hc'⟩

theorem Assembly.updateClient (h : b.Assembly) (hs : b.clients[s]? = some asker)
    (hidentity : asker'.identity = asker.identity) (hline : asker'.line = asker.line)
    (hpresent : asker'.present = asker.present) : (b.updateClient s fun _ => asker').Assembly := by
  -- all that is asked of a connection is asked of its identity
  have hsame : ∀ {j c'}, (b.updateClient s fun _ => asker').Connected j c' →
      ∃ c, b.Connected j c ∧ c'.identity = c.identity := by
    intro j c' h'
    obtain ⟨c, hc, rfl⟩ := (connected_updateClient hs hidentity hline hpresent).1 h'
    refine ⟨c, hc, ?_⟩
    split
    · rename_i hj
      subst hj
      obtain rfl : asker = c := Option.some.inj (hs.symm.trans hc.client)
      exact hidentity
    · rfl
  refine ⟨fun {e j} he hlistener => ?_, fun h' => ?_, fun h' => ?_, fun h₁ h₂ => ?_⟩
  · obtain ⟨c, hc, hat⟩ := h.listeners he hlistener
    refine ⟨if j = s then asker' else c, ?_, fun hp => ?_⟩
    · rw [clients_updateClient, hc]
      by_cases hj : j = s
      · simp [hj]
      · simp [hj, Ne.symm hj]
    · refine (connectedAt_updateClient hs hidentity hline hpresent).2 ⟨c, hat ?_, rfl⟩
      split at hp
      · rename_i hj
        subst hj
        obtain rfl : asker = c := Option.some.inj (hs.symm.trans hc)
        exact hpresent ▸ hp
      · exact hp
  · obtain ⟨c, hc, heq⟩ := hsame h'
    exact heq ▸ h.valid hc
  · obtain ⟨c, hc, heq⟩ := hsame h'
    exact heq ▸ h.unreserved hc
  · obtain ⟨c₁, hc₁, heq₁⟩ := hsame h₁
    obtain ⟨c₂, hc₂, heq₂⟩ := hsame h₂
    rw [heq₁, heq₂]
    exact h.shared hc₁ hc₂

end Update

/-! ### Passing a message on -/

/-- What a request gathers while a message is passed to listeners, if each client makes it gather at most one
packet. -/
theorem Changed.deliver_gathers {client serial : Nat} {b₀ : Bus} {hear : Hearing} {message : Outgoing}
    {answer : Nat → Option Packet} {listeners : List Listener}
    (hhear : ∀ j ∈ listeners.filterMap Listener.client?, ∀ l b, Changed (.gathers client serial l) b₀ b →
      Changed (.gathers client serial (l ++ (answer j).toList)) b₀ (hear j message b))
    {l : List Packet} (h : Changed (.gathers client serial l) b₀ b) :
    Changed (.gathers client serial (l ++ (listeners.filterMap Listener.client?).filterMap answer)) b₀
      (Bus.deliver hear message listeners b) := by
  induction listeners generalizing b l with
  | nil =>
    rw [List.filterMap_nil, List.filterMap_nil, List.append_nil]
    exact h
  | cons listener rest ih =>
    cases listener with
    | tap => exact ih (fun j hj => hhear j hj) (h.trans_none (changed_record b _))
    | client j =>
      have hfirst := hhear j (by simp [Listener.client?]) l b h
      have hrest := ih (fun j' hj' => hhear j' (by simp [Listener.client?, hj'])) hfirst
      rw [List.append_assoc] at hrest
      have hanswers : ((Listener.client j :: rest).filterMap Listener.client?).filterMap answer =
          (answer j).toList ++ (rest.filterMap Listener.client?).filterMap answer := by
        simp only [List.filterMap_cons, Listener.client?]
        cases answer j <;> rfl
      rw [hanswers]
      exact hrest

end Bus

end Switchboard
