import Switchboard.Proofs.DispatchTree
import Switchboard.Proofs.Request.Frame

/-!
# The books of a requester

The tree of a requester holds a reply route exactly for each request that is open, at the reply path of its id
(`Books`). All that a requester does keeps its books, provided that no id is used twice:

* (arrivals) a message that comes in is counted by the open request that it replies to, and by no other;
* (requests) a new request opens its route, and takes it back if the line refuses it;
* (handlers) binding and releasing a handler touches no reply route;
* (ends) a request that ends gives up its route.
-/

namespace Switchboard

variable {i : Identity} {past : List CorrelationId} {b : Bus} {c c' : Client}

/-- The request after an arrival: while it is open it counts a reply that is for it. -/
def Request.hear (owner : Identity) (r : Request) (a : Arrival) : Request :=
  match r.outcome, a.replyTo? owner r.collector.id with
  | none, some p =>
    { r with collector := { r.collector with replies := r.collector.replies ++ [p], phase := .accumulating } }
  | _, _ => r

/-- What the books say about a request: its id, whether anything has come of it, and whether it is closed. -/
def Request.entry (r : Request) : CorrelationId × Bool × Bool :=
  (r.collector.id, r.outcome.isSome, r.collector.isClosed)

/-- The request after its end. -/
def Request.ended (r : Request) : Request :=
  ⟨{ r.collector with phase := .detached r.collector.completion, replies := [] }, some r.collector.outcome⟩

/-- The path on which the replies to a request come in, without the prefix of the client. -/
def CorrelationId.route (id : CorrelationId) : List String := [Segment.reply, id.text]

theorem CorrelationId.route_inj {id id' : CorrelationId} : id.route = id'.route ↔ id = id' := by
  obtain ⟨text⟩ := id
  obtain ⟨text'⟩ := id'
  simp [route]

theorem Client.relative_replyPath (c : Client) (id : CorrelationId) :
    c.identity.relative (c.replyPath id) = id.route :=
  Identity.relative_append (Identity.owns_address c.identity) _

/-- The books of a requester are in order. -/
structure Books (i : Identity) (past : List CorrelationId) (c : Client) : Prop where
  identity : c.identity = i
  owner : c.tree.owner = i
  taped : ∃ refusing, c.line = .tape refusing
  wellFormed : c.tree.WellFormed
  distinct : (c.requests.map (·.collector.id)).Nodup
  known : ∀ r ∈ c.requests, r.collector.id ∈ past
  closed : ∀ r ∈ c.requests, r.collector.isClosed = r.outcome.isSome
  routes : ∀ path k, c.tree.get? path = some (.reply k) ↔
    ∃ r, c.requests[k]? = some r ∧ r.outcome = none ∧ i.relative path = r.collector.id.route

namespace Books

theorem fresh (i : Identity) (encoders : EncoderPool) (refusing : Bool) :
    Books i [] (.of i encoders (.tape refusing)) where
  identity := rfl
  owner := rfl
  taped := ⟨refusing, rfl⟩
  wellFormed := DispatchTree.wellFormed_empty i
  distinct := List.nodup_nil
  known := by simp [Client.of]
  closed := by simp [Client.of]
  routes path k := by
    have hnone : (DispatchTree.empty i : DispatchTree Route).get? path = none := by
      rw [(DispatchTree.wellFormed_empty i).get?_eq]
      exact DispatchNode.find?_vacant _
    simp [Client.of, hnone]

/-- Paths with the same relative form lead to the same place. -/
theorem get?_congr (h : Books i past c) {p q : List String} (hpq : i.relative p = i.relative q) :
    c.tree.get? p = c.tree.get? q := by
  rw [h.wellFormed.get?_eq, h.wellFormed.get?_eq, h.owner, hpq]

/-- The books do not depend on what is in the requests beyond their entries. -/
theorem congr (h : Books i past c) (hidentity : c'.identity = c.identity) (htree : c'.tree = c.tree)
    (hline : c'.line = c.line) (hentries : c'.requests.map Request.entry = c.requests.map Request.entry) :
    Books i past c' := by
  have hids : c'.requests.map (·.collector.id) = c.requests.map (·.collector.id) := by
    have := congrArg (List.map Prod.fst) hentries
    simpa [Request.entry, Function.comp_def] using this
  have hget : ∀ k, (c'.requests[k]?).map Request.entry = (c.requests[k]?).map Request.entry := fun k => by
    rw [← List.getElem?_map, hentries, List.getElem?_map]
  refine ⟨hidentity.trans h.identity, htree ▸ h.owner, hline ▸ h.taped, htree ▸ h.wellFormed, hids ▸ h.distinct,
    fun r hr => ?_, fun r hr => ?_, fun path k => ?_⟩
  · have hmem : r.collector.id ∈ c.requests.map (·.collector.id) := hids ▸ List.mem_map_of_mem hr
    obtain ⟨r', hr', hid⟩ := List.mem_map.1 hmem
    exact hid ▸ h.known r' hr'
  · have hmem : r.entry ∈ c.requests.map Request.entry := hentries ▸ List.mem_map_of_mem hr
    obtain ⟨r', hr', he⟩ := List.mem_map.1 hmem
    have hclosed := h.closed r' hr'
    simp only [Request.entry, Prod.mk.injEq] at he
    rw [← he.2.1, ← he.2.2, hclosed]
  · rw [htree, h.routes]
    have hk := hget k
    constructor
    · rintro ⟨r, hr, ho, hp⟩
      rw [hr, Option.map_some, Option.map_eq_some_iff] at hk
      obtain ⟨r', hr', he⟩ := hk
      simp only [Request.entry, Prod.mk.injEq] at he
      exact ⟨r', hr', by simpa [ho] using he.2.1, by rw [he.1, hp]⟩
    · rintro ⟨r, hr, ho, hp⟩
      rw [hr, Option.map_some, eq_comm, Option.map_eq_some_iff] at hk
      obtain ⟨r', hr', he⟩ := hk
      simp only [Request.entry, Prod.mk.injEq] at he
      exact ⟨r', hr', by simpa [ho] using he.2.1, by rw [he.1, hp]⟩

theorem sameBooks (h : Books i past c) (hsame : SameBooks c c') : Books i past c' :=
  h.congr hsame.identity hsame.tree hsame.line (by rw [hsame.requests])

/-- Requests with one id are one request. -/
theorem eq_of_id (h : Books i past c) {j k : Nat} {r r' : Request} (hj : c.requests[j]? = some r)
    (hk : c.requests[k]? = some r') (hid : r.collector.id = r'.collector.id) : j = k := by
  have hlt : j < (c.requests.map (·.collector.id)).length := by
    rw [List.length_map]
    exact (List.getElem?_eq_some_iff.1 hj).1
  refine (List.getElem?_inj hlt h.distinct).1 ?_
  rw [List.getElem?_map, List.getElem?_map, hj, hk]
  exact congrArg some hid

/-- Without the route of an open request its reply path leads nowhere, and all others lead where they did. -/
theorem get?_detachRequest (h : Books i past c) {k : Nat} {r : Request} (hk : c.requests[k]? = some r)
    (ho : r.outcome = none) (path : List String) :
    (c.detachRequest k r.collector.id).tree.get? path =
      if r.collector.id.route = i.relative path then none else c.tree.get? path := by
  have hroute : i.relative (c.replyPath r.collector.id) = r.collector.id.route :=
    h.identity ▸ c.relative_replyPath r.collector.id
  have hget := (h.routes (c.replyPath r.collector.id) k).2 ⟨r, hk, ho, hroute⟩
  simp only [Client.detachRequest]
  rw [h.wellFormed.get?_removeIf, h.owner, hroute, hget]
  simp [Option.filter, Route.isReplyTo]

end Books

/-! ### Arrivals -/

theorem Request.hear_of_none {owner : Identity} {r : Request} {a : Arrival}
    (h : a.replyTo? owner r.collector.id = none) : r.hear owner a = r := by
  unfold hear
  rw [h]
  split
  · rename_i hp; cases hp
  · rfl

theorem Request.hear_of_ended {owner : Identity} {r : Request} {o : RequestOutcome} (h : r.outcome = some o)
    (a : Arrival) : r.hear owner a = r := by
  unfold hear
  rw [h]

@[simp] theorem Request.entry_hear (owner : Identity) (r : Request) (a : Arrival)
    (h : r.collector.isClosed = r.outcome.isSome) : (r.hear owner a).entry = r.entry := by
  unfold hear
  split
  · rename_i ho _
    have hopen : r.collector.isClosed = false := by rw [h, ho]; rfl
    simp only [entry, hopen]
    rfl
  · rfl

/-- An open request receives what comes in on its reply path. -/
theorem Request.hear_eq_receive {owner : Identity} {r : Request} {a : Arrival} {packet : Packet}
    (ho : r.outcome = none) (hopen : r.collector.isClosed = false)
    (hpath : owner.relative a.path = r.collector.id.route)
    (hpacket : a.decoded.bind Packet.ofPayload? = some packet) :
    r.hear owner a = { r with collector := (r.collector.receive packet).2 } := by
  have hpath' : owner.relative a.path = [Segment.reply, r.collector.id.text] := hpath
  unfold hear ReplyCollector.receive ReplyCollector.check Arrival.replyTo?
  rw [ho, hpacket, if_pos hpath', hopen]
  cases hh : packet.header with
  | plain h => simp [hh, PacketHeader.rpc?, Option.filter, ← ho]
  | rpc h =>
    by_cases hid : h.packetId = r.collector.id.text
    · simp [hh, PacketHeader.rpc?, Option.filter, hid]
    · simp [hh, PacketHeader.rpc?, Option.filter, hid, ← ho]

/-- What arrivals change: the requests count the replies that are for them. -/
structure Bus.Heard (owner : Identity) (l : List Arrival) (b b' : Bus) : Prop where
  clients : ∀ {c}, b.clients = [c] → ∃ c', b'.clients = [c'] ∧ c'.identity = c.identity ∧ c'.tree = c.tree ∧
    c'.line = c.line ∧ c'.requests = c.requests.map fun r => l.foldl (Request.hear owner) r
  timers : b'.timers = b.timers
  clock : b'.clock = b.clock
  told : ∀ k, b'.repliesTold k = b.repliesTold k

namespace Bus

theorem Quiet.heard {b b' : Bus} (h : Quiet b b') (owner : Identity) : Heard owner [] b b' := by
  refine ⟨fun hc => ?_, h.timers, h.clock, h.told⟩
  obtain ⟨c', hc', hsame⟩ := h.clients hc
  exact ⟨c', hc', hsame.identity, hsame.tree, hsame.line, by simp [hsame.requests]⟩

theorem Heard.trans {owner : Identity} {l l' : List Arrival} {b b' b'' : Bus} (h : Heard owner l b b')
    (h' : Heard owner l' b' b'') : Heard owner (l ++ l') b b'' := by
  refine ⟨fun hc => ?_, h'.timers.trans h.timers, h'.clock.trans h.clock, fun k => (h'.told k).trans (h.told k)⟩
  obtain ⟨c', hc', hi, ht, hl, hr⟩ := h.clients hc
  obtain ⟨c'', hc'', hi', ht', hl', hr'⟩ := h'.clients hc'
  refine ⟨c'', hc'', hi'.trans hi, ht'.trans ht, hl'.trans hl, ?_⟩
  rw [hr', hr, List.map_map]
  simp [Function.comp_def]

/-- An arrival that none of the requests is concerned with. -/
theorem Quiet.heard_of_none {b b' : Bus} (h : Quiet b b') (hc : b.clients = [c]) {owner : Identity} {a : Arrival}
    (hnone : ∀ r ∈ c.requests, r.hear owner a = r) : Heard owner [a] b b' := by
  refine ⟨fun hc' => ?_, h.timers, h.clock, h.told⟩
  obtain rfl : c = _ := by simpa [hc] using hc'
  obtain ⟨c', hc', hsame⟩ := h.clients hc
  refine ⟨c', hc', hsame.identity, hsame.tree, hsame.line, ?_⟩
  have hmap : (c.requests.map fun r => [a].foldl (Request.hear owner) r) = c.requests.map id :=
    List.map_congr_left fun r hr => hnone r hr
  rw [hsame.requests, hmap, List.map_id]

end Bus

/-- What does not come in on the route of a request does not concern any. -/
theorem Books.hear_eq_self (h : Books i past c) {a : Arrival}
    (hroute : ∀ k, c.tree.get? a.path ≠ some (.reply k)) : ∀ r ∈ c.requests, r.hear i a = r := by
  intro r hr
  cases ho : r.outcome with
  | some o => exact Request.hear_of_ended ho a
  | none =>
    obtain ⟨k, hk⟩ := List.mem_iff_getElem?.1 hr
    refine Request.hear_of_none (if_neg fun hpath => hroute k ?_)
    exact (h.routes a.path k).2 ⟨r, hk, ho, hpath⟩

/-- A packet on the route of a request is received by it and by no other. -/
theorem Books.modify_receive (h : Books i past c) {a : Arrival} {k : Nat} {r : Request} {packet : Packet}
    (hk : c.requests[k]? = some r) (ho : r.outcome = none) (hpath : i.relative a.path = r.collector.id.route)
    (hpacket : a.decoded.bind Packet.ofPayload? = some packet) :
    (c.requests.modify k fun r' => { r' with collector := (r.collector.receive packet).2 }) =
      c.requests.map (·.hear i a) := by
  refine List.ext_getElem? fun j => ?_
  rw [List.getElem?_modify, List.getElem?_map]
  by_cases hjk : k = j
  · subst hjk
    have hopen : r.collector.isClosed = false := by rw [h.closed r (List.mem_of_getElem? hk), ho]; rfl
    simp [hk, Request.hear_eq_receive ho hopen hpath hpacket]
  · simp only [if_neg hjk]
    cases hj : c.requests[j]? with
    | none => rfl
    | some r' =>
      -- another request has another id, so the packet did not come in on its route
      have hne : i.relative a.path ≠ r'.collector.id.route := by
        rw [hpath, Ne, CorrelationId.route_inj]
        exact fun hid => hjk (h.eq_of_id hk hj hid)
      exact congrArg some (Request.hear_of_none (if_neg hne)).symm

namespace Bus

theorem request?_of_clients (hc : b.clients = [c]) (k : Nat) : b.request? 0 k = c.requests[k]? := by
  simp [request?, hc]

/-- Reporting errors to the sender of a request is quiet. -/
theorem quiet_replyErrors (b : Bus) (k : Nat) (packet : Packet) (errors : List ErrorPayload) :
    Quiet b ((replyExecutor 0 k).handleErrors packet errors b) := by
  simp only [replyExecutor]
  split
  · rename_i call hcall
    refine quiet_record b fun j => ?_
    obtain ⟨r, -, hr⟩ := Option.bind_eq_some_iff.1 hcall
    unfold ReplyCollector.reportErrors at hr
    split at hr
    · cases hr
    · split at hr
      · cases hr
      · cases hr
        rfl
  · exact .refl b

theorem heard_replyPayloads (hc : b.clients = [c]) (h : Books i past c) {a : Arrival} {k : Nat} {r : Request}
    {packet : Packet} (hk : c.requests[k]? = some r) (ho : r.outcome = none)
    (hpath : i.relative a.path = r.collector.id.route)
    (hpacket : a.decoded.bind Packet.ofPayload? = some packet) :
    Heard i [a] b ((replyExecutor 0 k).handlePayloads packet packet.others b).2 := by
  simp only [replyExecutor, request?_of_clients hc, hk]
  refine ⟨fun hc' => ?_, rfl, rfl, fun _ => rfl⟩
  obtain rfl : c = _ := by simpa [hc] using hc'
  refine ⟨c.updateCollector k fun _ => (r.collector.receive packet).2, ?_, rfl, rfl, rfl, ?_⟩
  · simp [updateClient, hc]
  · exact h.modify_receive hk ho hpath hpacket

/-- An arrival is counted by the open request that it replies to. -/
theorem heard_arrive (hc : b.clients = [c]) (h : Books i past c) (a : Arrival) :
    Heard i [a] b (b.arrive a) := by
  have hget : b.clients[0]? = some c := by rw [hc]; rfl
  simp only [arrive, hget]
  cases hroute : c.tree.get? a.path with
  | none => exact (Quiet.refl b).heard_of_none hc (h.hear_eq_self fun k => by simp [hroute])
  | some route =>
    cases route with
    | reply k =>
      obtain ⟨r, hk, ho, hpath⟩ := (h.routes a.path k).1 hroute
      simp only [executor, executorBy]
      rw [Executor.execute_snd]
      cases hpacket : a.decoded.bind Packet.ofPayload? with
      | none =>
        refine (Quiet.refl b).heard_of_none hc fun r' _ => Request.hear_of_none ?_
        simp [Arrival.replyTo?, hpacket]
      | some packet =>
        -- errors are reported before the packet is counted
        have herrors : Quiet b (if packet.errors.isEmpty then b
            else (replyExecutor 0 k).handleErrors packet packet.errors b) := by
          split
          · exact .refl b
          · exact quiet_replyErrors b k packet packet.errors
        obtain ⟨c', hc', hsame⟩ := herrors.clients hc
        exact (herrors.heard i).trans
          (heard_replyPayloads hc' (h.sameBooks hsame) (hsame.requests ▸ hk) ho hpath hpacket)
    | request subject handler =>
      obtain ⟨refusing, hline⟩ := h.taped
      exact ((quietExecutor_request hc hline _ _ _ _ _).execute _).heard_of_none hc
        (h.hear_eq_self fun k => by simp [hroute])
    | notification subject handler =>
      exact ((quietExecutor_notification b _ _ _).execute _).heard_of_none hc
        (h.hear_eq_self fun k => by simp [hroute])

end Bus

theorem Books.hear (h : Books i past c) (l : List Arrival) (hidentity : c'.identity = c.identity)
    (htree : c'.tree = c.tree) (hline : c'.line = c.line)
    (hrequests : c'.requests = c.requests.map fun r => l.foldl (Request.hear i) r) : Books i past c' := by
  refine h.congr hidentity htree hline ?_
  rw [hrequests, List.map_map]
  refine List.map_congr_left fun r hr => ?_
  have hclosed := h.closed r hr
  clear hr hrequests
  -- an open request stays open and a closed one closed, arrival by arrival
  induction l generalizing r with
  | nil => rfl
  | cons a l ih =>
    have hentry := Request.entry_hear i r a hclosed
    have hnext : (r.hear i a).collector.isClosed = (r.hear i a).outcome.isSome := by
      simp only [Request.entry, Prod.mk.injEq] at hentry
      rw [hentry.2.1, hentry.2.2, hclosed]
    exact (ih _ hnext).trans hentry

/-- The books are in order after any number of arrivals. -/
theorem Bus.heard_arrivals (hc : b.clients = [c]) (h : Books i past c) (l : List Arrival) :
    Bus.Heard i l b (l.foldl Bus.arrive b) := by
  induction l generalizing b c with
  | nil => exact (Bus.Quiet.refl b).heard i
  | cons a l ih =>
    have hfirst := Bus.heard_arrive hc h a
    obtain ⟨c', hc', hi, ht, hl, hr⟩ := hfirst.clients hc
    exact hfirst.trans (ih hc' (h.hear [a] hi ht hl hr))

/-! ### Keeping the books -/

theorem Books.weaken (h : Books i past c) (id : CorrelationId) : Books i (id :: past) c :=
  { h with known := fun r hr => List.mem_cons_of_mem _ (h.known r hr) }

/-- The books are kept, and nothing becomes of the requests but that they count the replies among some arrivals. -/
structure Bus.Kept (i : Identity) (past : List CorrelationId) (c : Client) (l : List Arrival) (b b' : Bus) :
    Prop where
  clients : ∃ c', b'.clients = [c'] ∧ Books i past c' ∧
    c'.requests = c.requests.map fun r => l.foldl (Request.hear i) r
  timers : b'.timers = b.timers
  clock : b'.clock = b.clock
  told : ∀ k, b'.repliesTold k = b.repliesTold k

theorem Bus.kept_arrive (hc : b.clients = [c]) (h : Books i past c) (a : Arrival) :
    Kept i past c [a] b (b.arrive a) := by
  have heard := heard_arrive hc h a
  obtain ⟨c', hc', hi, ht, hl, hr⟩ := heard.clients hc
  exact ⟨⟨c', hc', h.hear [a] hi ht hl hr, hr⟩, heard.timers, heard.clock, heard.told⟩

/-! ### Handlers -/

namespace Books

/-- The tree may change as long as the reply routes stay. -/
private theorem retree (h : Books i past c) {tree : DispatchTree Route} (howner : tree.owner = c.tree.owner)
    (hwell : tree.WellFormed)
    (hroutes : ∀ path k, tree.get? path = some (.reply k) ↔ c.tree.get? path = some (.reply k)) :
    Books i past { c with tree := tree } :=
  { h with
    owner := howner.trans h.owner
    wellFormed := hwell
    routes := fun path k => (hroutes path k).trans (h.routes path k) }

theorem attach (h : Books i past c) {subject : Subject} {route : Route} (hroute : ∀ k, route ≠ .reply k)
    (ha : c.attach subject route = .ok c') : Books i past c' ∧ c'.requests = c.requests := by
  unfold Client.attach at ha
  split at ha
  · rename_i tree htree
    cases ha
    refine ⟨h.retree (h.wellFormed.owner_of_add htree) (h.wellFormed.add htree) fun path k => ?_, rfl⟩
    rw [h.wellFormed.get?_add htree]
    split
    · rename_i hpath
      -- the path was free, so no reply route was at any form of it
      have hfree := (h.wellFormed.add_eq_ok htree).2.1
      rw [h.get?_congr (h.owner ▸ hpath)] at hfree
      simp [hfree, hroute k]
    · rfl
  · cases ha
  · cases ha

theorem detach (h : Books i past c) (subject : Subject) {chosen : Route → Bool}
    (hchosen : ∀ k, chosen (.reply k) = false) : Books i past (c.detach subject chosen).2 := by
  have hdetach : (c.detach subject chosen).2 = { c with tree := (c.tree.removeIf subject.segments chosen).2 } := rfl
  rw [hdetach]
  refine h.retree (h.wellFormed.owner_of_removeIf _ _) (h.wellFormed.removeIf _ _) fun path k => ?_
  rw [h.wellFormed.get?_removeIf]
  split
  · rename_i hpath
    rw [h.get?_congr (h.owner ▸ hpath), Option.filter_eq_some_iff]
    simp [hchosen k]
  · rfl

end Books

namespace Bus

theorem kept_attachTo (hc : b.clients = [c]) (h : Books i past c) {subject : Subject} {route : Route}
    (hroute : ∀ k, route ≠ .reply k) : Kept i past c [] b (b.attachTo 0 (·.attach subject route)).2 := by
  have hget : b.clients[0]? = some c := by rw [hc]; rfl
  simp only [attachTo, hget]
  cases ha : c.attach subject route with
  | error e => exact ⟨⟨c, hc, h, by simp⟩, rfl, rfl, fun _ => rfl⟩
  | ok c' =>
    obtain ⟨hbooks, hrequests⟩ := h.attach hroute ha
    exact ⟨⟨c', by simp [updateClient, hc], hbooks, by simpa using hrequests⟩, rfl, rfl, fun _ => rfl⟩

theorem kept_detachFrom (hc : b.clients = [c]) (h : Books i past c) (subject : Subject) {chosen : Route → Bool}
    (hchosen : ∀ k, chosen (.reply k) = false) : Kept i past c [] b (b.detachFrom 0 (·.detach subject chosen)).2 := by
  have hget : b.clients[0]? = some c := by rw [hc]; rfl
  simp only [detachFrom, hget]
  exact ⟨⟨_, by simp [updateClient, hc], h.detach subject hchosen, by simp [Client.detach]⟩, rfl, rfl, fun _ => rfl⟩

end Bus

end Switchboard
