import Switchboard.Proofs.DispatchListing
import Switchboard.Proofs.Delivery.Routes

/-!
# What is bound

A ledger notes what is bound by a client and what it releases, the requests it has sent, and when they end
(`Bus.ledger`). What was noted as attached and not noted as detached since is standing (`RouteNote.standing`). The
routes of a client are what is standing in its ledger, each once (`Bus.Tallies`), after any operations and between any
two timers that fire (`Bus.routes_as_noted`).

The proof goes note by note: each operation, and each timer that fires, changes the routes as it is noted.
-/

namespace Switchboard

/-! ### Notes -/

/-- What happens to the routes of a client: a handler is bound or released, a request was sent or has ended. -/
inductive RouteNote
  | bound (key : List String) (route : Route)
  | released (key : List String) (chosen : Route → Bool)
  | sent (serial : Nat) (id : CorrelationId)
  | ended (serial : Nat)

namespace RouteNote

/-- The relative path and the route that are attached: the replies to a request come in under its id. -/
def entry? : RouteNote → Option (List String × Route)
  | bound key route => some (key, route)
  | sent serial id => some (id.route, .reply serial)
  | _ => none

/-- Whether a route under a relative path is detached. -/
def undoes : RouteNote → List String × Route → Bool
  | released key chosen, e => e.1 == key && chosen e.2
  | ended serial, e => e.2.isReplyTo serial
  | _, _ => false

/-- All that was attached at some note, and not detached at a later one. -/
def standing : List RouteNote → List (List String × Route)
  | [] => []
  | n :: later => (n.entry?.filter fun e => !later.any (·.undoes e)).toList ++ standing later

/-- A new note strikes out what it undoes, and adds what it attaches. -/
theorem standing_concat (l : List RouteNote) (n : RouteNote) :
    standing (l ++ [n]) = (standing l).filter (!n.undoes ·) ++ n.entry?.toList := by
  induction l with
  | nil => cases h : n.entry? <;> simp [standing, h]
  | cons m l ih =>
    rw [List.cons_append, standing, standing, ih, List.filter_append, List.append_assoc]
    congr 1
    cases m.entry? with
    | none => rfl
    | some e =>
      rcases Bool.eq_false_or_eq_true (l.any (·.undoes e)) with hundone | hundone <;>
        rcases Bool.eq_false_or_eq_true (n.undoes e) with hn | hn <;>
        simp only [Option.filter, List.any_append, List.any_cons, List.any_nil, hundone, hn] <;> simp [hn]

end RouteNote

/-! ### Clients -/

/-- A client that releases nothing stays as it is. -/
theorem Client.Sound.detach_eq_self {c : Client} (hc : c.Sound) {subject : Subject} {chosen : Route → Bool}
    (h : (c.detach subject chosen).1 = false) : (c.detach subject chosen).2 = c := by
  unfold Client.detach at h ⊢
  rcases hc.wellFormed.removeIf_cases subject.segments chosen with ⟨-, he⟩ | ⟨route, root, -, -, -, -, he⟩
  · rw [he]
  · rw [he] at h
    cases h

/-- The end of a request strikes out its own route and no other. -/
theorem Client.Sound.lists_endRequest {c : Client} (hc : c.Sound) {l : List (List String × Route)}
    (hl : c.tree.Lists l) (serial : Nat) :
    (c.endRequest serial).2.tree.Lists (l.filter (!·.2.isReplyTo serial)) := by
  -- reply routes lead to requests, and stand under the ids of these
  have hreply : ∀ e ∈ l, e.2.isReplyTo serial = true →
      ∃ r, c.requests[serial]? = some r ∧ e.1 = r.collector.id.route := by
    rintro ⟨key, route⟩ hmem hroute
    cases route with
    | reply k =>
      obtain rfl : k = serial := by simpa [Route.isReplyTo] using hroute
      obtain ⟨r, hr, hpath⟩ := hc.routes (hl.get?_of_mem hmem)
      rw [hc.owner, Identity.relative_append c.identity.owns_address] at hpath
      exact ⟨r, hr, hpath⟩
    | request subject handler => cases hroute
    | notification subject handler => cases hroute
  cases hr : c.requests[serial]? with
  | none =>
    rw [List.filter_eq_self.2 fun e he => ?_]
    · simpa [Client.endRequest, hr] using hl
    · by_contra hstruck
      obtain ⟨r, hr', -⟩ := hreply e he (by simpa using hstruck)
      rw [hr] at hr'
      cases hr'
  | some r =>
    have hremoved := hl.removeIf hc.wellFormed (c.replyPath r.collector.id) (·.isReplyTo serial)
    rw [hc.owner, c.relative_replyPath] at hremoved
    rw [tree_endRequest hr]
    convert hremoved using 1
    refine List.filter_congr fun e he => ?_
    cases hroute : e.2.isReplyTo serial with
    | false => simp
    | true =>
      obtain ⟨r', hr', hkey⟩ := hreply e he hroute
      obtain rfl : r = r' := Option.some.inj (hr.symm.trans hr')
      simp [hkey]

theorem Client.Sound.get?_endRequest {c : Client} (hc : c.Sound) {l : List (List String × Route)}
    (hl : c.tree.Lists l) (serial : Nat) (path : List String) :
    (c.endRequest serial).2.tree.get? path = (c.tree.get? path).filter (!·.isReplyTo serial) := by
  have howner : (c.endRequest serial).2.tree.owner = c.tree.owner := by
    rw [(hc.endRequest serial).owner, c.identity_endRequest, hc.owner]
  refine Option.ext fun route => ?_
  rw [(hc.lists_endRequest hl serial).get?_iff, howner, List.mem_filter, ← hl.get?_iff, Option.filter_eq_some_iff]

/-! ### The ledger -/

/-- The request that a timer ends: its client and its number. -/
def Timer.ends (t : Timer) : Nat × Nat := (t.client, t.request)

namespace Bus

/-- A handler is noted as bound if its client was told so. -/
def bindingNotes (b : Bus) (client : Nat) (subject : Subject) (route : Route) : List RouteNote :=
  match b.clients[client]? with
  | none => []
  | some c =>
    if (b.attachTo client (·.attach subject route)).1.isOk then [.bound (c.identity.relative subject.segments) route]
    else []

/-- Handlers are noted as released if their client was told so. -/
def releasingNotes (b : Bus) (client : Nat) (subject : Subject) (chosen : Route → Bool) : List RouteNote :=
  match b.clients[client]? with
  | none => []
  | some c =>
    if (b.detachFrom client (·.detach subject chosen)).1 then
      [.released (c.identity.relative subject.segments) chosen]
    else []

/-- What is noted about a client when timers fire. -/
def endings (client : Nat) (ts : List Timer) : List RouteNote :=
  (ts.filter (·.client == client)).map (.ended ·.request)

theorem endings_append (client : Nat) (ts ts' : List Timer) :
    endings client (ts ++ ts') = endings client ts ++ endings client ts' := by
  simp [endings]

/-- The timers that are due when the clock has moved. -/
def dueIn (b : Bus) (ms : Nat) : List Timer := ({ b with clock := b.clock + ms } : Bus).due

/-- What is noted about a client in an operation. -/
def notes (b : Bus) (client : Nat) : Operation → List RouteNote
  | .register i subject h => if i = client then b.bindingNotes i subject (.request subject h) else []
  | .listen i subject h => if i = client then b.bindingNotes i subject (.notification subject h) else []
  | .unregister i subject name => if i = client then b.releasingNotes i subject (·.isRequestHandler name) else []
  | .unlisten i subject name => if i = client then b.releasingNotes i subject (·.isNotificationHandler name) else []
  | .request i id destination subject payloads expected timeoutMs =>
    if i = client then
      match (b.request i id destination subject payloads expected timeoutMs).1 with
      | .ok serial => [.sent serial id]
      | .error _ => []
    else []
  | .advance ms => endings client (b.dueIn ms)
  | _ => []

/-- What is noted about a client in one operation after the other. -/
def ledger (b : Bus) (client : Nat) : List Operation → List RouteNote
  | [] => []
  | o :: r => b.notes client o ++ (b.perform o).ledger client r

/-- The routes of a client are what is standing in its ledger. Its reply routes are those of the requests that have a
timer among those that have not fired, one each. -/
structure Tallies (b : Bus) (client : Nat) (pending : List Timer) (l : List RouteNote) : Prop where
  lists : ∀ {c}, b.clients[client]? = some c → c.tree.Lists (RouteNote.standing l)
  waiting : ∀ k, (∃ key, (key, Route.reply k) ∈ RouteNote.standing l) ↔ (client, k) ∈ pending.map Timer.ends
  distinct : (pending.map Timer.ends).Nodup
  absent : b.clients[client]? = none → l = []

variable {b b' : Bus} {client : Nat} {pending rest : List Timer} {l : List RouteNote} {t : Timer}

theorem attachTo_fields (b : Bus) (i : Nat) (f : Client → Except BusError Client) :
    (b.attachTo i f).2.timers = b.timers ∧
      ∀ {j : Nat}, i ≠ j → (b.attachTo i f).2.clients[j]? = b.clients[j]? := by
  rcases b.attachTo_cases i f with ⟨_, heq⟩ | ⟨_, _, -, -, heq⟩ <;> rw [heq]
  · exact ⟨rfl, fun _ => rfl⟩
  · exact ⟨rfl, fun hj => clients_updateClient_of_ne hj b _⟩

theorem detachFrom_fields (b : Bus) (i : Nat) (f : Client → Bool × Client) :
    (b.detachFrom i f).2.timers = b.timers ∧
      ∀ {j : Nat}, i ≠ j → (b.detachFrom i f).2.clients[j]? = b.clients[j]? := by
  rcases b.detachFrom_cases i f with ⟨-, heq⟩ | ⟨_, -, heq⟩ <;> rw [heq]
  · exact ⟨rfl, fun _ => rfl⟩
  · exact ⟨rfl, fun hj => clients_updateClient_of_ne hj b _⟩

theorem tallies_empty (room client : Nat) : (empty room).Tallies client [] [] :=
  ⟨nofun, by simp [RouteNote.standing], by simp, fun _ => rfl⟩

namespace Tallies

/-! ### What leaves the ledger as it is -/

/-- Only the tree of the client matters. -/
theorem congr (h : b.Tallies client pending l)
    (htree : (b'.clients[client]?).map (·.tree) = (b.clients[client]?).map (·.tree)) :
    b'.Tallies client pending l := by
  refine ⟨fun {c'} hc' => ?_, h.waiting, h.distinct, fun hnone => h.absent ?_⟩
  · rw [hc', Option.map_some] at htree
    obtain ⟨c, hc, hsame⟩ := Option.map_eq_some_iff.1 htree.symm
    exact hsame ▸ h.lists hc
  · rw [hnone] at htree
    exact Option.map_eq_none_iff.1 htree.symm

theorem perm (h : b.Tallies client pending l) {pending' : List Timer} (hperm : pending'.Perm pending) :
    b.Tallies client pending' l := by
  refine ⟨h.lists, fun k => ?_, (hperm.map _).nodup_iff.2 h.distinct, h.absent⟩
  rw [h.waiting, (hperm.map _).mem_iff]

theorem sameRoutes (h : b.Tallies client pending l) (hsame : b.SameRoutes b') : b'.Tallies client pending l := by
  cases hc : b.clients[client]? with
  | some c =>
    obtain ⟨c', hc', hkept⟩ := hsame.clients hc
    exact h.congr (by rw [hc, hc', Option.map_some, Option.map_some, hkept.tree])
  | none =>
    refine ⟨fun {c'} hc' => ?_, h.waiting, h.distinct, fun _ => h.absent hc⟩
    rcases hsame.new hc' with ⟨c, hc₁⟩ | ⟨htree, -⟩
    · rw [hc] at hc₁
      cases hc₁
    · rw [htree, h.absent hc]
      exact DispatchTree.lists_empty _

/-! ### Handlers -/

/-- The routes of the client change as it is noted, and those for replies not at all. -/
theorem note (h : b.Tallies client pending l) {c : Client} {n : RouteNote}
    (hlists : c.tree.Lists (RouteNote.standing (l ++ [n])))
    (hwaiting : ∀ k key, (key, Route.reply k) ∈ RouteNote.standing (l ++ [n]) ↔
      (key, Route.reply k) ∈ RouteNote.standing l)
    (hc' : b'.clients[client]? = some c) : b'.Tallies client pending (l ++ [n]) := by
  refine ⟨fun {c₁} hc₁ => ?_, fun k => ?_, h.distinct, fun hnone => ?_⟩
  · obtain rfl : c = c₁ := Option.some.inj (hc'.symm.trans hc₁)
    exact hlists
  · simp only [hwaiting, h.waiting]
  · rw [hnone] at hc'
    cases hc'

theorem attachTo (h : b.Tallies client pending l) (hb : b.Sound) (i : Nat) (subject : Subject) {route : Route}
    (hroute : ∀ k, route ≠ .reply k) :
    (b.attachTo i (·.attach subject route)).2.Tallies client pending
      (l ++ if i = client then b.bindingNotes i subject route else []) := by
  split
  case isFalse hi =>
    rw [List.append_nil]
    exact h.congr (by rw [(b.attachTo_fields i _).2 hi])
  rename_i hi
  subst hi
  cases hc : b.clients[i]? with
  | none => simpa [bindingNotes, Bus.attachTo, hc] using h
  | some c =>
    cases ha : c.attach subject route with
    | error e => simpa [bindingNotes, Bus.attachTo, hc, ha, Except.isOk, Except.toBool] using h
    | ok c' =>
      obtain ⟨tree, htree, rfl⟩ := Client.exists_tree_of_attach ha
      have hsound := hb.clients hc
      have hadded := (h.lists hc).add hsound.wellFormed htree
      rw [hsound.owner] at hadded
      have hstanding := RouteNote.standing_concat l (.bound (c.identity.relative subject.segments) route)
      simp only [bindingNotes, Bus.attachTo, hc, ha, Except.isOk, Except.toBool, if_true]
      refine h.note ?_ (fun k key => ?_) (clients_updateClient_self hc _)
      · simpa [hstanding, RouteNote.undoes, RouteNote.entry?] using hadded
      · simp [hstanding, RouteNote.undoes, RouteNote.entry?, Ne.symm (hroute k)]

theorem detachFrom (h : b.Tallies client pending l) (hb : b.Sound) (i : Nat) (subject : Subject)
    {chosen : Route → Bool} (hchosen : ∀ k, chosen (.reply k) = false) :
    (b.detachFrom i (·.detach subject chosen)).2.Tallies client pending
      (l ++ if i = client then b.releasingNotes i subject chosen else []) := by
  split
  case isFalse hi =>
    rw [List.append_nil]
    exact h.congr (by rw [(b.detachFrom_fields i _).2 hi])
  rename_i hi
  subst hi
  cases hc : b.clients[i]? with
  | none => simpa [releasingNotes, Bus.detachFrom, hc] using h
  | some c =>
    have hsound := hb.clients hc
    cases hreleased : (c.detach subject chosen).1 with
    | false =>
      simp only [releasingNotes, Bus.detachFrom, hc, hreleased, Bool.false_eq_true, if_false, List.append_nil]
      refine h.congr ?_
      rw [clients_updateClient_self hc, hsound.detach_eq_self hreleased, hc]
    | true =>
      have hremoved : (c.detach subject chosen).2.tree.Lists _ :=
        (h.lists hc).removeIf hsound.wellFormed subject.segments chosen
      rw [hsound.owner] at hremoved
      have hstanding := RouteNote.standing_concat l (.released (c.identity.relative subject.segments) chosen)
      simp only [releasingNotes, Bus.detachFrom, hc, hreleased, if_true]
      refine h.note ?_ (fun k key => ?_) (clients_updateClient_self hc _)
      · simpa [hstanding, RouteNote.undoes, RouteNote.entry?] using hremoved
      · simp [hstanding, RouteNote.undoes, RouteNote.entry?, hchosen]

/-! ### Requests -/

theorem request (h : b.Tallies client b.timers l) (hb : b.Sound) (hpruned : b.Pruned) (i : Nat) (id : CorrelationId)
    (destination : Destination) (subject : Subject) (payloads : List Payload) (expected : ExpectedReplies)
    (timeoutMs : Nat) :
    let o := Operation.request i id destination subject payloads expected timeoutMs
    (b.perform o).Tallies client (b.perform o).timers (l ++ b.notes client o) := by
  intro o
  change (b.request i id destination subject payloads expected timeoutMs).2.Tallies client
    (b.request i id destination subject payloads expected timeoutMs).2.timers _
  rcases request_outcome hb hpruned i id destination subject payloads expected timeoutMs with
    ⟨e, he, hsame⟩ | ⟨serial, hserial, hrequested⟩
  · have hnone : b.notes client o = [] := by simp [o, notes, he]
    rw [hnone, List.append_nil, hsame.timers]
    exact h.sameRoutes hsame
  · obtain ⟨c, c', hc, hc', hidentity, rfl, hadd, -⟩ := hrequested.asker
    rw [hrequested.timers]
    have hnew : (i, c.requests.length) ∉ b.timers.map Timer.ends := by
      intro hmem
      obtain ⟨t, ht, heq⟩ := List.mem_map.1 hmem
      obtain ⟨rfl, hrequest⟩ := Prod.mk.inj heq
      obtain ⟨c₁, hc₁, hlt⟩ := hb.timers t ht
      obtain rfl : c = c₁ := Option.some.inj (hc.symm.trans hc₁)
      exact absurd hrequest (Nat.ne_of_lt hlt)
    have hdistinct :
        ((b.timers ++ [(⟨b.clock + timeoutMs, i, c.requests.length⟩ : Timer)]).map Timer.ends).Nodup := by
      rw [List.map_append, List.map_singleton]
      simpa [Timer.ends] using h.distinct.concat hnew
    by_cases hi : i = client
    · subst hi
      have hnote : b.notes i o = [.sent c.requests.length id] := by simp [o, notes, hserial]
      have hsound := hb.clients hc
      have hadded := (h.lists hc).add hsound.wellFormed hadd
      rw [hsound.owner, c.relative_replyPath] at hadded
      have hstanding := RouteNote.standing_concat l (.sent c.requests.length id)
      rw [hnote]
      refine ⟨fun {c₁} hc₁ => ?_, fun k => ?_, hdistinct, fun hnone => ?_⟩
      · obtain rfl : c' = c₁ := Option.some.inj (hc'.symm.trans hc₁)
        simpa [hstanding, RouteNote.undoes, RouteNote.entry?] using hadded
      · rw [List.map_append, List.mem_append, ← h.waiting k]
        simp [hstanding, RouteNote.undoes, RouteNote.entry?, exists_or, Timer.ends]
      · rw [hnone] at hc'
        cases hc'
    · have hnone : b.notes client o = [] := by simp [o, notes, hi]
      rw [hnone, List.append_nil]
      have hothers : b.Tallies client (b.timers ++ [⟨b.clock + timeoutMs, i, c.requests.length⟩]) l :=
        ⟨h.lists, fun k => by simp [h.waiting, Timer.ends, Ne.symm hi], hdistinct, h.absent⟩
      refine hothers.congr ?_
      cases hc₁ : b.clients[client]? with
      | none =>
        rw [List.getElem?_eq_none_iff, ← hrequested.count, ← List.getElem?_eq_none_iff] at hc₁
        rw [hc₁]
      | some c₁ =>
        obtain ⟨c₂, hc₂, hkept⟩ := hrequested.others hi hc₁
        rw [hc₂, Option.map_some, Option.map_some, hkept.tree]

/-! ### Timers -/

theorem fire (h : b.Tallies client (t :: rest) l) (hb : b.Sound) :
    (b.fire t).Tallies client rest (l ++ endings client [t]) := by
  obtain ⟨hclients, -⟩ := b.fire_fields t
  have hdistinct := h.distinct
  rw [List.map_cons, List.nodup_cons] at hdistinct
  by_cases ht : t.client = client
  · subst ht
    have hnote : endings t.client [t] = [.ended t.request] := by simp [endings]
    have hstanding := RouteNote.standing_concat l (.ended t.request)
    rw [hnote]
    refine ⟨fun {c'} hc' => ?_, fun k => ?_, hdistinct.2, fun hnone => ?_⟩
    · rw [hclients, clients_updateClient, if_pos rfl] at hc'
      obtain ⟨c, hc, rfl⟩ := Option.map_eq_some_iff.1 hc'
      simpa [hstanding, RouteNote.undoes, RouteNote.entry?] using
        (hb.clients hc).lists_endRequest (h.lists hc) t.request
    · have hold := h.waiting k
      rw [List.map_cons, List.mem_cons] at hold
      by_cases hk : k = t.request
      · subst hk
        simpa [hstanding, RouteNote.undoes, RouteNote.entry?, Route.isReplyTo, Timer.ends] using hdistinct.1
      · have hne : (t.client, k) ≠ t.ends := fun heq => hk (Prod.mk.inj heq).2
        simpa [hstanding, RouteNote.undoes, RouteNote.entry?, Route.isReplyTo, hk, hne] using hold
    · -- a client that does not exist has no timer
      rw [hclients, clients_updateClient, if_pos rfl, Option.map_eq_none_iff] at hnone
      obtain ⟨key, hkey⟩ := (h.waiting t.request).2 List.mem_cons_self
      rw [h.absent hnone] at hkey
      cases hkey
  · have hnone : endings client [t] = [] := by simp [endings, ht]
    rw [hnone, List.append_nil]
    have hothers : b.Tallies client rest l := by
      refine ⟨h.lists, fun k => ?_, hdistinct.2, h.absent⟩
      have hne : (client, k) ≠ t.ends := fun heq => ht (Prod.mk.inj heq).1.symm
      rw [h.waiting, List.map_cons, List.mem_cons, or_iff_right hne]
    refine hothers.congr ?_
    rw [hclients, clients_updateClient_of_ne ht]

theorem fires {ts : List Timer} (h : b.Tallies client (ts ++ rest) l) (hb : b.Sound) :
    (ts.foldl Bus.fire b).Tallies client rest (l ++ endings client ts) := by
  induction ts generalizing b l with
  | nil => simpa [endings] using h
  | cons t ts ih =>
    have hfired := ih (h.fire hb) ((fired_fire b t).sound hb)
    rw [List.append_assoc, ← endings_append] at hfired
    exact hfired

/-- The clock moves: some timers are due then, and the others are left. -/
theorem later (h : b.Tallies client b.timers l) (ms : Nat) :
    (b.later ms).Tallies client (b.dueIn ms ++ (b.later ms).timers) l := by
  have hdue : (b.dueIn ms).Perm (b.timers.filter (·.due ≤ b.clock + ms)) := List.mergeSort_perm _ _
  have hleft : (b.later ms).timers = b.timers.filter (fun t => !decide (t.due ≤ b.clock + ms)) :=
    List.filter_congr fun t _ => by simp only [← decide_not, Nat.not_le]
  have hperm : (b.dueIn ms ++ (b.later ms).timers).Perm b.timers := by
    rw [hleft]
    exact (hdue.append_right _).trans (List.filter_append_perm _ _)
  exact Tallies.congr (h.perm hperm) rfl

theorem advance (h : b.Tallies client b.timers l) (hb : b.Sound) (ms : Nat) :
    (b.advance ms).Tallies client (b.advance ms).timers (l ++ endings client (b.dueIn ms)) := by
  have hfired := (h.later ms).fires (hb.later ms)
  have htimers : (b.advance ms).timers = (b.later ms).timers := (fired_fires (b.dueIn ms) (b.later ms)).timers
  rw [htimers]
  exact hfired

/-! ### Runs -/

/-- Each operation changes the routes of the client as it is noted. -/
theorem perform (h : b.Tallies client b.timers l) (hb : b.Sound) (hpruned : b.Pruned) (o : Operation) :
    (b.perform o).Tallies client (b.perform o).timers (l ++ b.notes client o) := by
  by_cases ho : Reroutes o
  · cases o with
    | register i subject handler =>
      rw [show (b.perform (.register i subject handler)).timers = b.timers from (b.attachTo_fields i _).1]
      exact h.attachTo hb i subject nofun
    | unregister i subject name =>
      rw [show (b.perform (.unregister i subject name)).timers = b.timers from (b.detachFrom_fields i _).1]
      exact h.detachFrom hb i subject fun _ => rfl
    | listen i subject handler =>
      rw [show (b.perform (.listen i subject handler)).timers = b.timers from (b.attachTo_fields i _).1]
      exact h.attachTo hb i subject nofun
    | unlisten i subject name =>
      rw [show (b.perform (.unlisten i subject name)).timers = b.timers from (b.detachFrom_fields i _).1]
      exact h.detachFrom hb i subject fun _ => rfl
    | request i id destination subject payloads expected timeoutMs =>
      exact h.request hb hpruned i id destination subject payloads expected timeoutMs
    | advance ms => exact h.advance hb ms
    | _ => exact ho.elim
  · have hsame : b.SameRoutes (b.perform o) := .perform hb ho
    have hnone : b.notes client o = [] := by
      cases o <;> first | rfl | exact absurd trivial ho
    rw [hnone, List.append_nil, hsame.timers]
    exact h.sameRoutes hsame

theorem performAll (h : b.Tallies client b.timers l) (hb : b.Sound) (hpruned : b.Pruned)
    (operations : List Operation) :
    (b.performAll operations).Tallies client (b.performAll operations).timers (l ++ b.ledger client operations) := by
  induction operations generalizing b l with
  | nil => simpa [ledger, Bus.performAll] using h
  | cons o operations ih =>
    have hrest := ih (h.perform hb hpruned o) (hb.perform o) (hpruned.perform hb o)
    rw [List.append_assoc] at hrest
    exact hrest

/-- A timer that fires takes the route of its own request away, and no other. -/
theorem get?_fire (h : b.Tallies client pending l) (hb : b.Sound) {c : Client} (hc : b.clients[client]? = some c)
    (t : Timer) :
    ∃ c', (b.fire t).clients[client]? = some c' ∧ ∀ path, c'.tree.get? path =
      (c.tree.get? path).filter fun route => !(t.client == client && route.isReplyTo t.request) := by
  obtain ⟨hclients, -⟩ := b.fire_fields t
  by_cases ht : t.client = client
  · subst ht
    refine ⟨_, by rw [hclients, clients_updateClient_self hc], fun path => ?_⟩
    rw [(hb.clients hc).get?_endRequest (h.lists hc)]
    simp
  · refine ⟨c, by rw [hclients, clients_updateClient_of_ne ht, hc], fun path => ?_⟩
    cases c.tree.get? path <;> simp [Option.filter, ht]

end Tallies

/-- No route leaks. Whatever was done, the routes of a client are those that stand in its ledger: one for each handler
that was bound and not released since, and one under the id of each request that was sent and has not ended. They are
as many as the tree counts. The same holds at any time while the clock moves, when some of the timers that are due
have fired; and the next timer takes at most the route of its own request away. -/
theorem routes_as_noted (room : Nat) (operations : List Operation) (client : Nat) :
    let b := (empty room).performAll operations
    let l := (empty room).ledger client operations
    b.Tallies client b.timers l ∧
    ∀ ms ts t rest, b.dueIn ms = ts ++ t :: rest →
      let now := ts.foldl fire (b.later ms)
      now.Tallies client (t :: rest ++ now.timers) (l ++ endings client ts) ∧
      ∀ c, now.clients[client]? = some c → ∃ c', (now.fire t).clients[client]? = some c' ∧
        ∀ path, c'.tree.get? path =
          (c.tree.get? path).filter fun route => !(t.client == client && route.isReplyTo t.request) := by
  intro b l
  have hb : b.Sound := sound_performAll room operations
  have htallies : b.Tallies client b.timers l :=
    (tallies_empty room client).performAll (sound_empty room) (pruned_empty room) operations
  refine ⟨htallies, fun ms ts t rest hdue => ?_⟩
  intro now
  have hlater := htallies.later ms
  rw [hdue, List.append_assoc] at hlater
  have hfired := fired_fires ts (b.later ms)
  have hnow : now.Tallies client (t :: rest ++ now.timers) (l ++ endings client ts) := by
    rw [hfired.timers]
    exact hlater.fires (hb.later ms)
  exact ⟨hnow, fun c hc => hnow.get?_fire (hfired.sound (hb.later ms)) hc t⟩

private def gate : Identity := ⟨["demo"], "canal", "lock", "gate"⟩

private def passage : CorrelationId := ⟨"0190b5a4-7c1e-7000-8000-000000000020"⟩

private def retreat : CorrelationId := ⟨"0190b5a4-7c1e-7000-8000-000000000021"⟩

private def lowering : RequestHandler := ⟨"lowering", fun _ _ => .ok []⟩

private def ringing : NotificationHandler := ⟨"ringing", fun _ _ => .ok ()⟩

/-- A client binds a handler where the replies to a request would come in, so only another request can be made; a
handler is not released under the name of the other one, and the line is closed while the request is under way. -/
private def canal : List Operation :=
  [.join gate .standard .messagePack 4 (.tape false), .register 0 ⟨passage.route⟩ lowering,
    .listen 0 ⟨["flood"]⟩ ringing, .request 0 passage .all ⟨["depth"]⟩ [] .unlimited 100,
    .request 0 retreat .all ⟨["depth"]⟩ [] .unlimited 200, .unlisten 0 ⟨["flood"]⟩ "lowering", .close 0]

/-- Two handlers and one route for replies are standing. When the timer of the request fires, all routes but its own
stay. -/
theorem routes_as_noted_canal :
    let b := empty.performAll canal
    let l := empty.ledger 0 canal
    (RouteNote.standing l).map (·.1) = [passage.route, ["flood"], retreat.route] ∧
      ∃ c c', b.clients[0]? = some c ∧ c.tree.count = 3 ∧
        ((b.later 200).fire ⟨200, 0, 0⟩).clients[0]? = some c' ∧
        (∀ path, c'.tree.get? path = (c.tree.get? path).filter (!·.isReplyTo 0)) := by
  have hstanding : (RouteNote.standing (empty.ledger 0 canal)).map (·.1) =
      [passage.route, ["flood"], retreat.route] := by
    decide +kernel
  have hclient : ((empty.performAll canal).clients[0]?).isSome = true := by decide +kernel
  have hdue : (empty.performAll canal).dueIn 200 = [] ++ ⟨200, 0, 0⟩ :: [] := by decide +kernel
  obtain ⟨htallies, hfires⟩ := routes_as_noted usualRoom canal 0
  obtain ⟨-, hfired⟩ := hfires 200 [] ⟨200, 0, 0⟩ [] hdue
  -- nothing need be computed from here on
  generalize empty.performAll canal = b at *
  obtain ⟨c, hc⟩ := Option.isSome_iff_exists.1 hclient
  obtain ⟨c', hc', hroutes⟩ := hfired c hc
  refine ⟨hstanding, c, c', hc, ?_, hc', hroutes⟩
  rw [(htallies.lists hc).count, ← List.length_map (·.1), hstanding]
  rfl

end Bus

end Switchboard
