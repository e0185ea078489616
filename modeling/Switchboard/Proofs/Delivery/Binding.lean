import Switchboard.Proofs.Delivery.Routes

/-!
# How long a handler stays bound

A handler that is bound to a subject is found on every topic that addresses the client about it, whatever else is done
on the bus, until it is released (`Bus.found_until_released`). Subjects and topics lose a prefix of the client alike,
but one prefix only: a subject that starts with a prefix of its own is bound without it, and is not found behind
another one.

* (clients) routes come and go, but what is taken away besides replies was to be released (`Client.Keeps`);
* (step) an operation that releases no handler keeps all that there are (`Bus.Keeps.perform`), and the others keep all
  but the one that they release (`Bus.Finds.perform`);
* (run) by induction over the operations a handler that is not released stays (`Bus.Finds.performAll`).
-/

namespace Switchboard

/-! ### Clients -/

namespace Client

/-- Two states of a client between which no handler was released. -/
structure Keeps (c c' : Client) : Prop where
  identity : c'.identity = c.identity
  handlers : ∀ {path : List String} {route : Route}, (∀ k, route ≠ .reply k) → c.tree.get? path = some route →
    c'.tree.get? path = some route

variable {c c' c'' : Client}

theorem Keeps.of_tree_eq (hidentity : c'.identity = c.identity) (htree : c'.tree = c.tree) : c.Keeps c' :=
  ⟨hidentity, fun _ hget => htree ▸ hget⟩

theorem Keeps.refl (c : Client) : c.Keeps c := .of_tree_eq rfl rfl

theorem Keeps.trans (h : c.Keeps c') (h' : c'.Keeps c'') : c.Keeps c'' :=
  ⟨h'.identity.trans h.identity, fun hroute hget => h'.handlers hroute (h.handlers hroute hget)⟩

/-- A route is added only where there was none. -/
theorem Keeps.of_add (hc : c.Sound) {path : List String} {route : Route} (hidentity : c'.identity = c.identity)
    (htree : c.tree.add path route = .ok c'.tree) : c.Keeps c' := by
  refine ⟨hidentity, fun {q bound} _ hget => ?_⟩
  rw [hc.wellFormed.get?_add htree]
  split
  · rename_i hq
    obtain ⟨-, hnone, -⟩ := hc.wellFormed.add_eq_ok htree
    rw [hc.owner] at hq
    rw [hc.get?_congr hq, hget] at hnone
    cases hnone
  · exact hget

/-- The route of a request is no handler. -/
theorem Keeps.of_removeIf (hc : c.Sound) {path : List String} {serial : Nat} (hidentity : c'.identity = c.identity)
    (htree : c'.tree = (c.tree.removeIf path (·.isReplyTo serial)).2) : c.Keeps c' := by
  refine ⟨hidentity, fun {q bound} hbound hget => ?_⟩
  have hkept : bound.isReplyTo serial = false := by
    cases bound with
    | reply k => exact absurd rfl (hbound k)
    | request _ _ => rfl
    | notification _ _ => rfl
  rw [htree, hc.wellFormed.get?_removeIf]
  split
  · rename_i hq
    rw [hc.owner] at hq
    rw [hc.get?_congr hq, hget, Option.filter_some_pos (by simp [hkept])]
  · exact hget

theorem Keeps.attach (hc : c.Sound) {subject : Subject} {route : Route} (ha : c.attach subject route = .ok c') :
    c.Keeps c' := by
  obtain ⟨tree, htree, rfl⟩ := exists_tree_of_attach ha
  exact .of_add hc rfl htree

theorem Keeps.prepareRequest (hc : c.Sound) {header : RpcHeader} {id : CorrelationId} {expected : ExpectedReplies}
    (hp : c.prepareRequest header id expected = .ok c') : c.Keeps c' := by
  obtain ⟨tree, htree, rfl⟩ := exists_tree_of_prepareRequest hp
  exact .of_add hc rfl htree

theorem Keeps.withdrawRequest (hc : c.Sound) (serial : Nat) (id : CorrelationId) :
    c.Keeps (c.withdrawRequest serial id) := .of_removeIf hc rfl rfl

theorem Keeps.endRequest (hc : c.Sound) (serial : Nat) : c.Keeps (c.endRequest serial).2 := by
  obtain ⟨path, htree⟩ := c.exists_tree_endRequest serial
  exact .of_removeIf hc (c.identity_endRequest serial) htree

end Client

/-! ### What all other operations keep -/

/-- The handler that an operation releases, if there is one: of which client, on which subject, and chosen how. -/
def Operation.released? : Operation → Option (Nat × Subject × (Route → Bool))
  | .unregister client subject name => some (client, subject, (·.isRequestHandler name))
  | .unlisten client subject name => some (client, subject, (·.isNotificationHandler name))
  | _ => none

namespace Bus

variable {b b' b'' : Bus}

/-- Two states of a bus between which no handler was released. -/
structure Keeps (b b' : Bus) : Prop where
  clients : ∀ {j : Nat} {c : Client}, b.clients[j]? = some c → ∃ c', b'.clients[j]? = some c' ∧ c.Keeps c'

namespace Keeps

theorem of_eq (h : b'.clients = b.clients) : b.Keeps b' := ⟨fun hc => ⟨_, h ▸ hc, .refl _⟩⟩

theorem refl (b : Bus) : b.Keeps b := .of_eq rfl

theorem trans (h : b.Keeps b') (h' : b'.Keeps b'') : b.Keeps b'' := by
  refine ⟨fun hc => ?_⟩
  obtain ⟨c', hc', hkeeps⟩ := h.clients hc
  obtain ⟨c'', hc'', hkeeps'⟩ := h'.clients hc'
  exact ⟨c'', hc'', hkeeps.trans hkeeps'⟩

theorem of_changed {ρ : RequestChange} (h : Changed ρ b b') : b.Keeps b' := by
  refine ⟨fun hc => ?_⟩
  obtain ⟨c', hc', hchanged⟩ := h.clients hc
  exact ⟨c', hc', .of_tree_eq hchanged.identity hchanged.tree⟩

theorem of_sameRoutes (h : b.SameRoutes b') : b.Keeps b' := by
  refine ⟨fun hc => ?_⟩
  obtain ⟨c', hc', hsame⟩ := h.clients hc
  exact ⟨c', hc', .of_tree_eq hsame.identity hsame.tree⟩

theorem updateClient {j : Nat} {f : Client → Client} (hf : ∀ c, b.clients[j]? = some c → c.Keeps (f c)) :
    b.Keeps (b.updateClient j f) := by
  refine ⟨fun {i c} hc => ?_⟩
  rw [clients_updateClient]
  split
  · rename_i hi
    subst hi
    exact ⟨f c, by rw [hc]; rfl, hf c hc⟩
  · exact ⟨c, hc, .refl c⟩

theorem replaceClient {j : Nat} {c c' : Client} (hc : b.clients[j]? = some c) (h : c.Keeps c') :
    b.Keeps (b.updateClient j fun _ => c') := by
  refine .updateClient fun c₁ hc₁ => ?_
  obtain rfl : c = c₁ := Option.some.inj (hc.symm.trans hc₁)
  exact h

/-! ### Handlers and requests -/

theorem attachTo (hb : b.Sound) (client : Nat) (subject : Subject) (route : Route) :
    b.Keeps (b.attachTo client (·.attach subject route)).2 := by
  rcases b.attachTo_cases client (·.attach subject route) with ⟨_, heq⟩ | ⟨c, c', hc, ha, heq⟩ <;> rw [heq]
  · exact .refl b
  · exact .replaceClient hc (.attach (hb.clients hc) ha)

theorem request (hb : b.Sound) (client : Nat) (id : CorrelationId) (destination : Destination) (subject : Subject)
    (payloads : List Payload) (expected : ExpectedReplies) (timeoutMs : Nat) :
    b.Keeps (b.request client id destination subject payloads expected timeoutMs).2 := by
  rcases request_cases hb (sparing_none b) client id destination subject payloads expected timeoutMs
    (fun _ _ => trivial) with ⟨e, heq⟩ | ⟨c, prepared, b', hc, hp, hheard, hpublished⟩
  · rw [heq]
    exact .refl b
  · have hprepared : b.Keeps (b.updateClient client fun _ => prepared) :=
      .replaceClient hc (.prepareRequest (hb.clients hc) hp)
    have hpublishing : b.Keeps b' := hprepared.trans (.of_changed hheard)
    rcases hpublished with ⟨e, event, heq⟩ | heq <;> rw [heq]
    · -- what was heard in the meantime has left the clients sound
      have hentered : Evolved (fun _ _ => False) b (b.updateClient client fun _ => prepared) := .prepare hb hc hp
      have hsound := (Evolved.of_changed hentered.sound hheard).sound
      refine (hpublishing.trans (.updateClient fun c' hc' => ?_)).trans (.of_eq rfl)
      exact .withdrawRequest (hsound.clients hc') _ _
    · refine (hpublishing.trans (.updateClient fun c' _ => ?_)).trans (.of_eq rfl)
      exact .of_tree_eq rfl rfl

theorem fire (hb : b.Sound) (t : Timer) : b.Keeps (b.fire t) := by
  obtain ⟨hclients, -⟩ := b.fire_fields t
  exact .trans (.updateClient fun c hc => .endRequest (hb.clients hc) t.request) (.of_eq hclients)

theorem fires (hb : b.Sound) (ts : List Timer) : b.Keeps (ts.foldl Bus.fire b) := by
  induction ts generalizing b with
  | nil => exact .refl b
  | cons t ts ih => exact .trans (.fire hb t) (ih ((fired_fire b t).sound hb))

theorem advance (hb : b.Sound) (ms : Nat) : b.Keeps (b.advance ms) := by
  have hlater : b.Keeps (b.later ms) := .of_eq rfl
  exact hlater.trans (.fires (hb.later ms) _)

/-- An operation that releases no handler keeps them all. -/
theorem perform (hb : b.Sound) {o : Operation} (ho : o.released? = none) : b.Keeps (b.perform o) := by
  by_cases hroutes : Reroutes o
  · cases o with
    | register client subject handler => exact .attachTo hb client subject _
    | unregister client subject name => cases ho
    | listen client subject handler => exact .attachTo hb client subject _
    | unlisten client subject name => cases ho
    | request client id destination subject payloads expected timeoutMs =>
      exact .request hb client id destination subject payloads expected timeoutMs
    | advance ms => exact .advance hb ms
    | _ => exact hroutes.elim
  · exact .of_sameRoutes (.perform hb hroutes)

end Keeps

end Bus

/-! ### One handler -/

/-- What a client finds behind its prefixes it finds on all paths with the same relative form. -/
theorem Client.Sound.get?_of_relative {c : Client} (hc : c.Sound) {key path : List String} {found : Option Route}
    (hfound : ∀ front, c.identity.Owns front → c.tree.get? (front ++ key) = found)
    (hpath : c.identity.relative path = key) : c.tree.get? path = found := by
  have howns := c.identity.owns_address
  rw [← hfound _ howns]
  apply hc.get?_congr
  rw [hpath, Identity.relative_append howns]

/-- Whether an operation releases a route that a client has under a relative path. -/
def Operation.Releases (client : Nat) (owner : Identity) (key : List String) (route : Route) (o : Operation) : Prop :=
  ∃ subject chosen, o.released? = some (client, subject, chosen) ∧ owner.relative subject.segments = key ∧
    chosen route = true

namespace Bus

/-- What the client with a number finds on the topics on which it is addressed about a relative path. -/
def Finds (b : Bus) (client : Nat) (owner : Identity) (key : List String) (found : Option Route) : Prop :=
  ∃ c, b.clients[client]? = some c ∧ c.identity = owner ∧
    ∀ front, owner.Owns front → c.tree.get? (front ++ key) = found

variable {b b' : Bus} {client : Nat} {c : Client} {owner : Identity} {key : List String} {route : Route}
  {subject : Subject} {chosen : Route → Bool}

/-- What is bound successfully is found. -/
theorem finds_attachTo (hb : b.Sound) (hc : b.clients[client]? = some c)
    (hok : (b.attachTo client (·.attach subject route)).1 = .ok ()) :
    (b.attachTo client (·.attach subject route)).2.Finds client c.identity (c.identity.relative subject.segments)
      (some route) := by
  have hsound := hb.clients hc
  unfold attachTo at hok ⊢
  rw [hc] at hok ⊢
  simp only at hok ⊢
  cases ha : c.attach subject route with
  | error e =>
    rw [ha] at hok
    cases hok
  | ok c' =>
    obtain ⟨tree, htree, rfl⟩ := Client.exists_tree_of_attach ha
    refine ⟨_, clients_updateClient_self hc _, rfl, fun front hfront => ?_⟩
    change tree.get? _ = _
    rw [hsound.wellFormed.get?_add htree, hsound.owner, Identity.relative_append hfront, if_pos rfl]

namespace Finds

/-- What is bound on a path changes nothing about what is found on another. -/
theorem attachTo_of_ne {found : Option Route} (hb : b.Sound) (h : b.Finds client owner key found)
    (hne : owner.relative subject.segments ≠ key) :
    (b.attachTo client (·.attach subject route)).2.Finds client owner key found := by
  rcases b.attachTo_cases client (·.attach subject route) with ⟨_, heq⟩ | ⟨c₁, c', hc₁, ha, heq⟩ <;> rw [heq]
  · exact h
  · obtain ⟨c, hc, hidentity, hfound⟩ := h
    obtain rfl : c = c₁ := Option.some.inj (hc.symm.trans hc₁)
    obtain ⟨tree, htree, rfl⟩ := Client.exists_tree_of_attach ha
    refine ⟨_, clients_updateClient_self hc _, hidentity, fun front hfront => ?_⟩
    change tree.get? _ = _
    rw [(hb.clients hc).wellFormed.get?_add htree, (hb.clients hc).owner, hidentity, Identity.relative_append hfront,
      if_neg hne]
    exact hfound front hfront

theorem keeps (h : b.Finds client owner key (some route)) (hroute : ∀ k, route ≠ .reply k) (hkeeps : b.Keeps b') :
    b'.Finds client owner key (some route) := by
  obtain ⟨c, hc, hidentity, hfound⟩ := h
  obtain ⟨c', hc', hkept⟩ := hkeeps.clients hc
  exact ⟨c', hc', hkept.identity.trans hidentity, fun front hfront => hkept.handlers hroute (hfound front hfront)⟩

/-- What a client releases on another path, or what was not chosen, is found still. -/
theorem detachFrom (hb : b.Sound) (h : b.Finds client owner key (some route)) {client' : Nat}
    (hother : ¬(client' = client ∧ owner.relative subject.segments = key ∧ chosen route = true)) :
    (b.detachFrom client' (·.detach subject chosen)).2.Finds client owner key (some route) := by
  unfold Bus.detachFrom
  cases hc' : b.clients[client']? with
  | none => exact h
  | some c' =>
    obtain ⟨c, hc, hidentity, hfound⟩ := h
    by_cases hsame : client' = client
    · subst hsame
      obtain rfl : c = c' := Option.some.inj (hc.symm.trans hc')
      refine ⟨_, clients_updateClient_self hc _, hidentity, fun front hfront => ?_⟩
      change (c.tree.removeIf subject.segments chosen).2.get? _ = _
      rw [(hb.clients hc).wellFormed.get?_removeIf, (hb.clients hc).owner, hidentity,
        Identity.relative_append hfront]
      split
      · rename_i hkey
        -- the route is on the path, so it was not chosen
        have hkept : chosen route = false := by
          simpa [hkey] using hother
        have hsubject : c.tree.get? subject.segments = some route := by
          subst hidentity
          exact (hb.clients hc).get?_of_relative hfound hkey
        rw [hsubject, Option.filter_some_pos (by simp [hkept])]
      · exact hfound front hfront
    · exact ⟨c, (clients_updateClient_of_ne hsame b _).trans hc, hidentity, hfound⟩

/-- What is released was bound, and is not found any more. -/
theorem release (hb : b.Sound) (h : b.Finds client owner key (some route))
    (hkey : owner.relative subject.segments = key) (hchosen : chosen route = true) :
    (b.detachFrom client (·.detach subject chosen)).1 = true ∧
      (b.detachFrom client (·.detach subject chosen)).2.Finds client owner key none := by
  obtain ⟨c, hc, hidentity, hfound⟩ := h
  have hsound := hb.clients hc
  have hsubject : c.tree.get? subject.segments = some route := by
    subst hidentity
    exact hsound.get?_of_relative hfound hkey
  unfold Bus.detachFrom
  rw [hc]
  constructor
  · change (c.tree.removeIf subject.segments chosen).1.isSome = true
    rw [hsound.wellFormed.removeIf_fst, hsubject, Option.filter_some_pos hchosen]
    rfl
  · refine ⟨_, clients_updateClient_self hc _, hidentity, fun front hfront => ?_⟩
    change (c.tree.removeIf subject.segments chosen).2.get? _ = _
    rw [hsound.wellFormed.get?_removeIf, hsound.owner, hidentity, Identity.relative_append hfront, if_pos hkey,
      hsubject, Option.filter_some_neg (by simp [hchosen])]

/-- An operation keeps a handler that it does not release. -/
theorem perform (hb : b.Sound) (h : b.Finds client owner key (some route)) (hroute : ∀ k, route ≠ .reply k)
    {o : Operation} (ho : ¬o.Releases client owner key route) :
    (b.perform o).Finds client owner key (some route) := by
  cases hreleased : o.released? with
  | none => exact h.keeps hroute (.perform hb hreleased)
  | some released =>
    obtain ⟨client', subject, chosen⟩ := released
    have hother : ¬(client' = client ∧ owner.relative subject.segments = key ∧ chosen route = true) := by
      rintro ⟨rfl, hkey, hchosen⟩
      exact ho ⟨subject, chosen, hreleased, hkey, hchosen⟩
    cases o <;> cases hreleased <;> exact h.detachFrom hb hother

/-- Operations keep a handler that none of them releases. -/
theorem performAll (hb : b.Sound) (h : b.Finds client owner key (some route)) (hroute : ∀ k, route ≠ .reply k)
    {operations : List Operation} (ho : ∀ o ∈ operations, ¬o.Releases client owner key route) :
    (b.performAll operations).Finds client owner key (some route) := by
  induction operations generalizing b with
  | nil => exact h
  | cons o operations ih =>
    rw [List.forall_mem_cons] at ho
    exact ih (hb.perform o) (h.perform hb hroute ho.1) ho.2

/-- A handler is found from when it was bound successfully until it is released, and not afterwards. -/
theorem until_released (hb : b.Sound) (hc : b.clients[client]? = some c) (hroute : ∀ k, route ≠ .reply k)
    (hchosen : chosen route = true) (hok : (b.attachTo client (·.attach subject route)).1 = .ok ())
    {operations : List Operation}
    (ho : ∀ o ∈ operations, ¬o.Releases client c.identity (c.identity.relative subject.segments) route) :
    let b' := (b.attachTo client (·.attach subject route)).2.performAll operations
    let released := b'.detachFrom client (·.detach subject chosen)
    b'.Finds client c.identity (c.identity.relative subject.segments) (some route) ∧
      released.1 = true ∧ released.2.Finds client c.identity (c.identity.relative subject.segments) none := by
  intro b' released
  have hbound : (b.attachTo client (·.attach subject route)).2.Sound :=
    (Evolved.attachTo (W := fun _ _ => False) hb client hroute).sound
  have hfinds : b'.Finds client c.identity (c.identity.relative subject.segments) (some route) :=
    (finds_attachTo hb hc hok).performAll hbound hroute ho
  exact ⟨hfinds, hfinds.release (hbound.performAll operations) rfl hchosen⟩

end Finds

/-- A handler that is bound successfully is found on all topics on which the client is addressed about the subject,
until it is released; then nothing is found there. Of a subject that starts with what the client takes for a prefix of
its own, this is said of what stands behind it: on topics with two such prefixes the same is found as before. -/
theorem found_until_released (room : Nat) (before after : List Operation)
    (hc : ((empty room).performAll before).clients[client]? = some c) (subject : Subject) :
    let b := (empty room).performAll before
    let key := c.identity.relative subject.segments
    ((∀ front, c.identity.Owns front → ¬front <+: subject.segments) → key = subject.segments) ∧
    (∀ front rest, c.identity.Owns front → subject.segments = front ++ rest → key = rest) ∧
    (∀ h, (b.register client subject h).1 = .ok () →
      (∀ o ∈ after, ¬o.Releases client c.identity key (.request subject h)) →
      let b' := (b.register client subject h).2.performAll after
      let released := b'.unregister client subject h.name
      b'.Finds client c.identity key (some (.request subject h)) ∧
        released.1 = true ∧ released.2.Finds client c.identity key none) ∧
    (∀ h, (b.listen client subject h).1 = .ok () →
      (∀ o ∈ after, ¬o.Releases client c.identity key (.notification subject h)) →
      let b' := (b.listen client subject h).2.performAll after
      let released := b'.unlisten client subject h.name
      b'.Finds client c.identity key (some (.notification subject h)) ∧
        released.1 = true ∧ released.2.Finds client c.identity key none) ∧
    ∀ front rest found, c.identity.Owns front → subject.segments = front ++ rest →
      b.Finds client c.identity subject.segments found →
      (∀ h, (b.register client subject h).2.Finds client c.identity subject.segments found) ∧
        ∀ h, (b.listen client subject h).2.Finds client c.identity subject.segments found := by
  intro b key
  have hb : b.Sound := sound_performAll room before
  refine ⟨fun hbare => Identity.relative_of_not_owned hbare, fun front rest hfront hsubject => ?_,
    fun h hok ho => ?_, fun h hok ho => ?_, fun front rest found hfront hsubject hfound => ?_⟩
  · simp only [key, hsubject]
    exact Identity.relative_append hfront rest
  · have hroute : ∀ k, Route.request subject h ≠ .reply k := nofun
    exact Finds.until_released hb hc hroute (by simp [Route.isRequestHandler]) hok ho
  · have hroute : ∀ k, Route.notification subject h ≠ .reply k := nofun
    exact Finds.until_released hb hc hroute (by simp [Route.isNotificationHandler]) hok ho
  · have hne : c.identity.relative subject.segments ≠ subject.segments := by
      rw [hsubject, Identity.relative_append hfront]
      exact fun h => hfront.ne_nil (List.append_left_eq_self.1 h.symm)
    exact ⟨fun h => hfound.attachTo_of_ne hb hne, fun h => hfound.attachTo_of_ne hb hne⟩

private def rig : Identity := ⟨["lab"], "sim", "plant", "c1"⟩

/-- A subject that starts with the prefix of everyone in the application of the client. -/
private def stepOfAll : Subject := ⟨["lab", "sim", "_all", "_all", "step"]⟩

private def stepping : RequestHandler := ⟨"stepping", fun _ _ => .ok [.integer 1]⟩

private def rigJoins : List Operation := [.join rig .standard .json 4 (.tape false)]

/-- The handler of a subject with a prefix is found on the topics for what stands behind the prefix, after another
handler was released and the clock moved. -/
theorem found_until_released_stepOfAll :
    let b' := ((empty.performAll rigJoins).register 0 stepOfAll stepping).2.performAll
      [.register 0 ⟨["stop"]⟩ stepping, .unregister 0 ⟨["stop"]⟩ "stepping", .advance 5]
    b'.Finds 0 rig ["step"] (some (.request stepOfAll stepping)) ∧
      (b'.unregister 0 stepOfAll "stepping").1 = true := by
  have hc : (empty.performAll rigJoins).clients[0]? = some (.of rig (.empty .standard .json 4) (.tape false)) := rfl
  have ho : ∀ o ∈ [Operation.register 0 ⟨["stop"]⟩ stepping, .unregister 0 ⟨["stop"]⟩ "stepping", .advance 5],
      ¬o.Releases 0 rig ["step"] (.request stepOfAll stepping) := by
    intro o hmem
    simp only [List.mem_cons, List.not_mem_nil, or_false] at hmem
    rintro ⟨subject, chosen, hreleased, hkey, -⟩
    rcases hmem with rfl | rfl | rfl
    · cases hreleased
    · cases hreleased
      exact absurd hkey (by decide)
    · cases hreleased
  obtain ⟨-, -, hrequests, -⟩ := found_until_released usualRoom rigJoins
    [.register 0 ⟨["stop"]⟩ stepping, .unregister 0 ⟨["stop"]⟩ "stepping", .advance 5] hc stepOfAll
  obtain ⟨hfinds, hreleased, -⟩ := hrequests stepping rfl ho
  exact ⟨hfinds, hreleased⟩

/-- The same handler is not found on the topic for the subject as it was given, behind the address of the client. -/
theorem not_found_behind_two_prefixes :
    (Identity.of? ["lab"] "sim" "plant" "c1" = .ok rig ∧ Subject.parse "lab.sim._all._all.step" = .ok stepOfAll) ∧
      ((empty.performAll rigJoins).register 0 stepOfAll stepping).1 = .ok () ∧
      ∃ c, ((empty.performAll rigJoins).register 0 stepOfAll stepping).2.clients[0]? = some c ∧ c.identity = rig ∧
        c.tree.get? (rig.topicFor stepOfAll) = none := by
  refine ⟨⟨rfl, rfl⟩, rfl, _, rfl, rfl, rfl⟩

end Bus

end Switchboard
