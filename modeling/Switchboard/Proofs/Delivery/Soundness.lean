import Switchboard.Bus.Clock
import Switchboard.Proofs.DispatchTree
import Switchboard.Proofs.Delivery.Change
import Switchboard.Proofs.Request.Books

/-!
# Sound buses

On a sound bus the tree of a client belongs to the client, and each reply route in it leads to a request that waits on
the path of this route; every timer has a request; and the endpoints that are online are those that are connected,
each once. Clients stay sound whatever they bind, release, request or end.
-/

namespace Switchboard

/-! ### Clients -/

theorem Client.exists_tree_of_attach {c c' : Client} {subject : Subject} {route : Route}
    (h : c.attach subject route = .ok c') :
    ∃ tree, c.tree.add subject.segments route = .ok tree ∧ c' = { c with tree := tree } := by
  unfold attach at h
  split at h
  · rename_i tree htree
    cases h
    exact ⟨tree, htree, rfl⟩
  · cases h
  · cases h

theorem Client.exists_tree_of_prepareRequest {c c' : Client} {header : RpcHeader} {id : CorrelationId}
    {expected : ExpectedReplies} (h : c.prepareRequest header id expected = .ok c') :
    ∃ tree, c.tree.add (c.replyPath id) (.reply c.requests.length) = .ok tree ∧
      c' = { c with tree := tree, requests := c.requests ++ [⟨.of header id expected, none⟩] } := by
  unfold prepareRequest at h
  cases htree : c.tree.add (c.replyPath id) (.reply c.requests.length) with
  | error e =>
    rw [htree] at h
    cases h
  | ok tree =>
    rw [htree] at h
    cases h
    exact ⟨tree, rfl, rfl⟩

/-- The tree and the encoders of a client are its own, and its reply routes lead to its requests. -/
structure Client.Sound (c : Client) : Prop where
  owner : c.tree.owner = c.identity
  wellFormed : c.tree.WellFormed
  encoders : c.encoders.Sound
  routes : ∀ {path k}, c.tree.get? path = some (.reply k) →
    ∃ r, c.requests[k]? = some r ∧ c.identity.relative path = r.collector.id.route

namespace Client.Sound

variable {c c' : Client} {ρ : RequestChange}

theorem of (identity : Identity) {encoders : EncoderPool} (h : encoders.Sound) (line : Line) :
    (Client.of identity encoders line).Sound where
  owner := rfl
  wellFormed := DispatchTree.wellFormed_empty identity
  encoders := h
  routes := by
    intro path k hroute
    have hnone : (DispatchTree.empty identity : DispatchTree Route).get? path = none := by
      rw [(DispatchTree.wellFormed_empty identity).get?_eq]
      exact DispatchNode.find?_vacant _
    cases hnone.symm.trans hroute

/-- Paths with the same relative form lead to the same place. -/
theorem get?_congr (h : c.Sound) {p q : List String} (hpq : c.identity.relative p = c.identity.relative q) :
    c.tree.get? p = c.tree.get? q := by
  rw [h.wellFormed.get?_eq, h.wellFormed.get?_eq, h.owner, hpq]

theorem changed (h : c.Sound) (hρ : ∀ j k r r', ρ j k r r' → r'.collector.id = r.collector.id) {j : Nat}
    (hchanged : c.Changed ρ j c') : c'.Sound where
  owner := by rw [hchanged.tree, hchanged.identity, h.owner]
  wellFormed := by
    rw [hchanged.tree]
    exact h.wellFormed
  encoders := hchanged.encoders.sound h.encoders
  routes := by
    intro path k hroute
    rw [hchanged.tree] at hroute
    obtain ⟨r, hr, hpath⟩ := h.routes hroute
    obtain ⟨r', hr', hrel⟩ := hchanged.requests hr
    exact ⟨r', hr', by rw [hchanged.identity, hpath, hρ _ _ _ _ hrel]⟩

/-! ### Binding and releasing -/

theorem attach (h : c.Sound) {subject : Subject} {route : Route} (hroute : ∀ k, route ≠ .reply k)
    (ha : c.attach subject route = .ok c') : c'.Sound ∧ c'.identity = c.identity ∧ c'.requests = c.requests := by
  obtain ⟨tree, htree, rfl⟩ := exists_tree_of_attach ha
  refine ⟨⟨(h.wellFormed.owner_of_add htree).trans h.owner, h.wellFormed.add htree, h.encoders, ?_⟩, rfl, rfl⟩
  intro path k hget
  have hget' : tree.get? path = some (.reply k) := hget
  rw [h.wellFormed.get?_add htree] at hget'
  split at hget'
  · exact absurd (Option.some.inj hget') (hroute k)
  · exact h.routes hget'

/-- Routes may be taken away from the tree. -/
theorem removeIf (h : c.Sound) (path : List String) (chosen : Route → Bool) :
    ({ c with tree := (c.tree.removeIf path chosen).2 } : Client).Sound := by
  refine ⟨(h.wellFormed.owner_of_removeIf _ _).trans h.owner, h.wellFormed.removeIf _ _, h.encoders, ?_⟩
  intro q k hget
  have hget' : (c.tree.removeIf path chosen).2.get? q = some (.reply k) := hget
  rw [h.wellFormed.get?_removeIf] at hget'
  split at hget'
  · rename_i hq
    rw [h.owner] at hq
    obtain ⟨hp, -⟩ := Option.filter_eq_some_iff.1 hget'
    rw [h.get?_congr hq] at hp
    exact h.routes hp
  · exact h.routes hget'

theorem detach (h : c.Sound) (subject : Subject) (chosen : Route → Bool) : (c.detach subject chosen).2.Sound :=
  h.removeIf subject.segments chosen

/-! ### Requests -/

theorem prepareRequest (h : c.Sound) {header : RpcHeader} {id : CorrelationId} {expected : ExpectedReplies}
    (hp : c.prepareRequest header id expected = .ok c') :
    c'.Sound ∧ c'.identity = c.identity ∧ c'.line = c.line ∧ c'.encoders = c.encoders ∧ c'.present = c.present ∧
      c'.requests = c.requests ++ [⟨.of header id expected, none⟩] ∧
      ∀ path, c'.tree.get? path =
        if id.route = c.identity.relative path then some (.reply c.requests.length) else c.tree.get? path := by
  obtain ⟨tree, ha, rfl⟩ := exists_tree_of_prepareRequest hp
  have hget : ∀ path, tree.get? path =
      if id.route = c.identity.relative path then some (.reply c.requests.length) else c.tree.get? path := by
    intro path
    rw [h.wellFormed.get?_add ha, h.owner, c.relative_replyPath]
  refine ⟨⟨(h.wellFormed.owner_of_add ha).trans h.owner, h.wellFormed.add ha, h.encoders, ?_⟩, rfl, rfl, rfl, rfl,
    rfl, hget⟩
  intro path k hroute
  have hroute' : tree.get? path = some (.reply k) := hroute
  rw [hget] at hroute'
  split at hroute'
  · rename_i hpath
    cases hroute'
    exact ⟨_, List.getElem?_concat_length, hpath.symm⟩
  · obtain ⟨r, hr, hpath⟩ := h.routes hroute'
    have hlt : k < c.requests.length := (List.getElem?_eq_some_iff.1 hr).1
    exact ⟨r, (List.getElem?_append_left hlt).trans hr, hpath⟩

/-- The request that was entered last may be taken back. -/
theorem withdrawRequest (h : c.Sound) {serial : Nat} {r : Request} (hcount : c.requests.length = serial + 1)
    (hr : c.requests[serial]? = some r) : (c.withdrawRequest serial r.collector.id).Sound := by
  have hdetached := h.removeIf (c.replyPath r.collector.id) (·.isReplyTo serial)
  refine ⟨hdetached.owner, hdetached.wellFormed, hdetached.encoders, ?_⟩
  intro path k hroute
  have hroute' : (c.tree.removeIf (c.replyPath r.collector.id) (·.isReplyTo serial)).2.get? path =
    some (.reply k) := hroute
  have hk : k ≠ serial := by
    rintro rfl
    -- the only path that led to the request leads nowhere any more
    obtain ⟨r', hr', hpath⟩ := hdetached.routes hroute
    obtain rfl : r = r' := Option.some.inj (hr.symm.trans hr')
    rw [h.wellFormed.get?_removeIf, h.owner, c.relative_replyPath, if_pos hpath.symm] at hroute'
    obtain ⟨-, hchosen⟩ := Option.filter_eq_some_iff.1 hroute'
    simp [Route.isReplyTo] at hchosen
  obtain ⟨r', hr', hpath⟩ := hdetached.routes hroute
  have hlt : k < serial := by
    have hbound : k < c.requests.length := (List.getElem?_eq_some_iff.1 hr').1
    omega
  refine ⟨r', ?_, hpath⟩
  change (c.requests.eraseIdx serial)[k]? = some r'
  rw [List.getElem?_eraseIdx_of_lt hlt]
  exact hr'

theorem updateCollector (h : c.Sound) (serial : Nat) {f : ReplyCollector → ReplyCollector}
    (hf : ∀ collector, (f collector).id = collector.id) : (c.updateCollector serial f).Sound := by
  refine ⟨h.owner, h.wellFormed, h.encoders, ?_⟩
  intro path k hroute
  obtain ⟨r, hr, hpath⟩ := h.routes hroute
  refine ⟨if serial = k then { r with collector := f r.collector } else r, ?_, ?_⟩
  · simp only [Client.updateCollector, List.getElem?_modify, hr, Option.map_eq_map, Option.map_some]
  · split
    · exact hpath.trans (congrArg CorrelationId.route (hf _).symm)
    · exact hpath

end Client.Sound

/-- What becomes of a request when its timer fires: it ends, if it has not ended already. -/
def Request.fired (r : Request) : Request := if r.collector.isClosed then r else r.ended

@[simp] theorem Request.id_fired (r : Request) : r.fired.collector.id = r.collector.id := by
  unfold fired
  split <;> rfl

@[simp] theorem Request.fired_fired (r : Request) : r.fired.fired = r.fired := by
  by_cases hclosed : r.collector.isClosed = true
  · simp [fired, hclosed]
  · have hended : r.ended.collector.isClosed = true := rfl
    simp [fired, hclosed, hended]

theorem Client.requests_endRequest (c : Client) (serial : Nat) :
    (c.endRequest serial).2.requests = c.requests.modify serial Request.fired := by
  unfold endRequest
  cases hr : c.requests[serial]? with
  | none =>
    refine (List.ext_getElem? fun k => ?_).symm
    rw [List.getElem?_modify]
    by_cases hk : serial = k
    · subst hk
      simp [hr]
    · simp [hk]
  | some r =>
    by_cases hclosed : r.collector.isClosed = true
    · have hsame : c.requests.modify serial Request.fired = c.requests := by
        refine List.ext_getElem? fun k => ?_
        rw [List.getElem?_modify]
        by_cases hk : serial = k
        · subst hk
          simp [hr, Request.fired, hclosed]
        · simp [hk]
      simp only [ReplyCollector.finish, hclosed]
      rw [hsame]
      rfl
    · have hmodify : c.requests.modify serial Request.fired = c.requests.modify serial fun _ => r.ended := by
        refine List.ext_getElem? fun k => ?_
        rw [List.getElem?_modify, List.getElem?_modify]
        by_cases hk : serial = k
        · subst hk
          simp [hr, Request.fired, hclosed]
        · simp [hk]
      simp only [ReplyCollector.finish, hclosed]
      rw [hmodify]
      rfl

theorem Client.identity_endRequest (c : Client) (serial : Nat) : (c.endRequest serial).2.identity = c.identity := by
  unfold endRequest
  cases c.requests[serial]? with
  | none => rfl
  | some r => by_cases hclosed : r.collector.isClosed = true <;> simp only [ReplyCollector.finish, hclosed] <;> rfl

theorem Client.encoders_endRequest (c : Client) (serial : Nat) : (c.endRequest serial).2.encoders = c.encoders := by
  unfold endRequest
  cases c.requests[serial]? with
  | none => rfl
  | some r => by_cases hclosed : r.collector.isClosed = true <;> simp only [ReplyCollector.finish, hclosed] <;> rfl

theorem Client.line_endRequest (c : Client) (serial : Nat) : (c.endRequest serial).2.line = c.line := by
  unfold endRequest
  cases c.requests[serial]? with
  | none => rfl
  | some r => by_cases hclosed : r.collector.isClosed = true <;> simp only [ReplyCollector.finish, hclosed] <;> rfl

/-- The route of the request is taken away, if it is there still. -/
theorem Client.tree_endRequest {c : Client} {serial : Nat} {r : Request} (hr : c.requests[serial]? = some r) :
    (c.endRequest serial).2.tree = (c.tree.removeIf (c.replyPath r.collector.id) (·.isReplyTo serial)).2 := by
  unfold endRequest
  rw [hr]
  by_cases hclosed : r.collector.isClosed = true <;> simp only [ReplyCollector.finish, hclosed] <;> rfl

/-- At most the route of the request is taken away. -/
theorem Client.exists_tree_endRequest (c : Client) (serial : Nat) :
    ∃ path, (c.endRequest serial).2.tree = (c.tree.removeIf path (·.isReplyTo serial)).2 := by
  cases hr : c.requests[serial]? with
  | none =>
    -- at the root there is nothing to take away
    refine ⟨[], ?_⟩
    have hroot : c.tree.owner.relative [] = [] := by simp [Identity.relative, Identity.ownedLength?]
    simp [endRequest, hr, DispatchTree.removeIf, hroot]
  | some r => exact ⟨_, tree_endRequest hr⟩

theorem Client.Sound.endRequest {c : Client} (h : c.Sound) (serial : Nat) : (c.endRequest serial).2.Sound := by
  obtain ⟨path, htree⟩ := c.exists_tree_endRequest serial
  have hremoved := h.removeIf path (·.isReplyTo serial)
  refine ⟨?_, ?_, ?_, ?_⟩
  · rw [htree, c.identity_endRequest]
    exact hremoved.owner
  · rw [htree]
    exact hremoved.wellFormed
  · rw [c.encoders_endRequest]
    exact h.encoders
  · intro q k hroute
    rw [htree] at hroute
    obtain ⟨r, hr, hpath⟩ := hremoved.routes hroute
    have hr' : c.requests[k]? = some r := hr
    rw [c.identity_endRequest, c.requests_endRequest, List.getElem?_modify, hr']
    by_cases hk : serial = k
    · exact ⟨r.fired, by simp [hk], by rw [Request.id_fired]; exact hpath⟩
    · exact ⟨r, by simp [hk], hpath⟩

/-! ### The broker -/

/-- The endpoints that are online are those that are connected, each once. -/
structure Broker.Sound {L W : Type} (b : Broker L W) : Prop where
  nodup : b.online.Nodup
  online : ∀ id, id ∈ b.online ↔ b.isConnected id = true

namespace Broker.Sound

variable {L W : Type} {b : Broker L W}

theorem empty : (Broker.empty : Broker L W).Sound := ⟨List.nodup_nil, by simp [Broker.empty, isConnected, endpoint,
  Endpoint.fresh]⟩

theorem endpoint_update (b : Broker L W) (id : Nat) (f : Endpoint L W → Endpoint L W) (id' : Nat) :
    (b.update id f).endpoint id' =
      if id = id' ∧ id < b.endpoints.length then f (b.endpoint id') else b.endpoint id' := by
  unfold Broker.endpoint update
  simp only [List.getElem?_modify]
  by_cases hid : id = id'
  · subst hid
    by_cases hlt : id < b.endpoints.length
    · simp [hlt]
    · simp [hlt]
  · simp [hid]

/-- A new endpoint is as fresh as a number that was never given. -/
theorem endpoint_create (b : Broker L W) (id : Nat) : b.create.2.endpoint id = b.endpoint id := by
  unfold endpoint Broker.create
  rcases Nat.lt_or_ge id b.endpoints.length with hlt | hge
  · rw [List.getElem?_append_left hlt]
  · rw [List.getElem?_append_right hge, List.getElem?_eq_none hge, List.getElem?_singleton]
    split <;> rfl

/-- An endpoint may change in all but its connection. -/
theorem update (h : b.Sound) (id : Nat) {f : Endpoint L W → Endpoint L W}
    (hf : ∀ e, (f e).connected = e.connected) : (b.update id f).Sound := by
  refine ⟨h.nodup, fun id' => ?_⟩
  rw [isConnected, endpoint_update]
  split
  · rw [hf]
    exact h.online id'
  · exact h.online id'

theorem create (h : b.Sound) : b.create.2.Sound := by
  refine ⟨h.nodup, fun id => ?_⟩
  rw [isConnected, endpoint_create]
  exact h.online id

theorem connect (h : b.Sound) (id : Nat) : (b.connect id).2.Sound := by
  unfold Broker.connect
  split
  · exact h
  · rename_i hnew
    rw [not_or, Nat.not_le] at hnew
    refine ⟨?_, fun id' => ?_⟩
    · have hnot : id ∉ b.online := fun hmem => hnew.1 ((h.online id).1 hmem)
      exact List.nodup_append.2 ⟨h.nodup, List.pairwise_singleton _ _, by
        intro x hx y hy hxy
        rw [List.mem_singleton] at hy
        subst hxy hy
        exact hnot hx⟩
    · change id' ∈ b.online ++ [id] ↔
        ((b.update id fun e => { e with connected := true }).endpoint id').connected = true
      rw [endpoint_update, List.mem_append, List.mem_singleton, h.online]
      by_cases hid : id = id'
      · subst hid
        simp [hnew.2]
      · simp [hid, Ne.symm hid, isConnected]

theorem takeOff (h : b.Sound) (id : Nat) : (b.takeOff id).Sound := by
  refine ⟨h.nodup.sublist List.filter_sublist, fun id' => ?_⟩
  change id' ∈ b.online.filter (· != id) ↔
    ((b.update id fun e => { e with connected := false }).endpoint id').connected = true
  rw [endpoint_update, List.mem_filter, h.online]
  by_cases hid : id = id'
  · subst hid
    by_cases hlt : id < b.endpoints.length
    · simp [hlt]
    · simp [hlt, isConnected, Broker.endpoint, Endpoint.fresh]
  · simp [hid, Ne.symm hid, isConnected]

theorem disconnect (h : b.Sound) (id : Nat) : (b.disconnect id).2.Sound := by
  unfold Broker.disconnect
  split
  · exact h.takeOff id
  · exact h

theorem lose (h : b.Sound) (id : Nat) (cause : String) : (b.lose id cause).2.Sound := by
  unfold Broker.lose
  split
  · exact h.takeOff id
  · exact h

theorem subscribe (h : b.Sound) {b' : Broker L W} {id : Nat} {filters : List String}
    (hb : b.subscribe id filters = .ok b') : b'.Sound := by
  unfold Broker.subscribe requireConnected at hb
  split at hb
  · cases hb
    exact h.update id fun _ => rfl
  · cases hb

theorem unsubscribe (h : b.Sound) {b' : Broker L W} {id : Nat} {filters : List String}
    (hb : b.unsubscribe id filters = .ok b') : b'.Sound := by
  unfold Broker.unsubscribe requireConnected at hb
  split at hb
  · cases hb
    exact h.update id fun _ => rfl
  · cases hb

/-- A message of a connected endpoint reaches the listeners of all endpoints that accept its topic. -/
theorem publish_eq_ok (h : b.Sound) {id : Nat} (hid : id ∈ b.online) (topic : String) :
    b.publish id topic = .ok (b.reached topic) := by
  unfold publish requireConnected
  rw [if_pos ((h.online id).1 hid)]
  rfl

end Broker.Sound

/-! ### The bus -/

/-- The clients, the broker and the timers of a bus fit together. -/
structure Bus.Sound (b : Bus) : Prop where
  clients : ∀ {j : Nat} {c : Client}, b.clients[j]? = some c → c.Sound
  broker : b.broker.Sound
  timers : ∀ t ∈ b.timers, ∃ c, b.clients[t.client]? = some c ∧ t.request < c.requests.length

theorem Bus.sound_empty (room : Nat) : (empty room).Sound := ⟨by simp [empty], Broker.Sound.empty, by simp [empty]⟩

end Switchboard
