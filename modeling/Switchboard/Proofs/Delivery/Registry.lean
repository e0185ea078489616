import Switchboard.Proofs.Delivery.Ledger

/-!
# The handler registry of a client

A client binds request handlers and notification handlers in one tree, which also holds the routes of its requests.
The registry is a list of these routes under their relative paths (`RouteBoard`): a binding is put on it unless its
path is empty or taken, and a release strikes out the binding of that very handler.

Whatever handlers a client binds and releases, on whatever bus, its tree holds what is on the list, at most one route
for each relative path, and it answers as the list does (`Bus.registry_laws`). One call is refused without a trace, or
does what it says and nothing else (`Bus.RegistryLaws`).
-/

namespace Switchboard

/-! ### Handlers of both kinds -/

/-- A handler of either kind. -/
inductive Handler
  | request (h : RequestHandler)
  | notification (h : NotificationHandler)

namespace Handler

/-- The route to a handler that is bound to a subject. -/
def route (subject : Subject) : Handler → Route
  | request h => .request subject h
  | notification h => .notification subject h

/-- The handlers are of the same kind and are one handler. -/
def Same : Handler → Handler → Prop
  | request h, request h' => h.name = h'.name
  | notification h, notification h' => h.name = h'.name
  | _, _ => False

/-- Whether a route leads to this very handler. -/
def isAt : Handler → Route → Bool
  | request h => (·.isRequestHandler h.name)
  | notification h => (·.isNotificationHandler h.name)

theorem isAt_iff {h : Handler} {route : Route} :
    h.isAt route = true ↔ ∃ subject h', route = h'.route subject ∧ h.Same h' := by
  constructor
  · intro hat
    cases h <;> cases route <;> simp only [isAt, Route.isRequestHandler, Route.isNotificationHandler, beq_iff_eq,
      Bool.false_eq_true] at hat
    · rename_i h subject h'
      exact ⟨subject, .request h', rfl, hat.symm⟩
    · rename_i h subject h'
      exact ⟨subject, .notification h', rfl, hat.symm⟩
  · rintro ⟨subject, h', rfl, hsame⟩
    cases h <;> cases h' <;> first | exact hsame.elim | exact beq_iff_eq.2 hsame.symm

theorem route_ne_reply (h : Handler) (subject : Subject) (k : Nat) : h.route subject ≠ .reply k := by
  cases h <;> nofun

end Handler

/-- A handler is to be bound to a subject, or released from it. -/
inductive RegistryCall
  | bind (subject : Subject) (h : Handler)
  | release (subject : Subject) (h : Handler)

inductive RegistryAnswer
  | bound (result : Except BusError Unit)
  | released (was : Bool)

/-! ### The list -/

/-- The routes of a client, each under a relative path. -/
abbrev RouteBoard := List (List String × Route)

namespace RouteBoard

def call (owner : Identity) (l : RouteBoard) : RegistryCall → RegistryAnswer × RouteBoard
  | .bind subject h =>
    if owner.relative subject.segments = [] then (.bound (.error (.dispatch .rootPath)), l)
    else if (l.lookup (owner.relative subject.segments)).isSome then
      (.bound (.error (.duplicateHandler subject.text)), l)
    else (.bound (.ok ()), l ++ [(owner.relative subject.segments, h.route subject)])
  | .release subject h =>
    (.released ((l.lookup (owner.relative subject.segments)).any h.isAt),
      l.filter fun e => !(e.1 == owner.relative subject.segments && h.isAt e.2))

/-- The answers to calls, and the list after them. -/
def calls (owner : Identity) (l : RouteBoard) : List RegistryCall → List RegistryAnswer × RouteBoard
  | [] => ([], l)
  | k :: rest =>
    ((l.call owner k).1 :: ((l.call owner k).2.calls owner rest).1, ((l.call owner k).2.calls owner rest).2)

end RouteBoard

/-- A listing is looked up as the tree is. -/
theorem DispatchTree.Lists.lookup_eq {H : Type} {t : DispatchTree H} {l : List (List String × H)} (hl : t.Lists l)
    (path : List String) : l.lookup (t.owner.relative path) = t.get? path := by
  refine Option.ext fun h => ?_
  rw [hl.get?_iff, List.lookup_eq_some_iff]
  constructor
  · rintro ⟨front, back, rfl, -⟩
    simp
  · intro hmem
    obtain ⟨front, back, rfl⟩ := List.append_of_mem hmem
    refine ⟨front, back, rfl, fun e he => ?_⟩
    have hnodup := hl.nodup
    rw [List.map_append, List.nodup_append] at hnodup
    have hne := hnodup.2.2 e.1 (List.mem_map_of_mem he) _ List.mem_cons_self
    simpa using Ne.symm hne

/-! ### One call -/

namespace Bus

def bindHandler (b : Bus) (client : Nat) (subject : Subject) : Handler → Except BusError Unit × Bus
  | .request h => b.register client subject h
  | .notification h => b.listen client subject h

def releaseHandler (b : Bus) (client : Nat) (subject : Subject) : Handler → Bool × Bus
  | .request h => b.unregister client subject h.name
  | .notification h => b.unlisten client subject h.name

def registryCall (b : Bus) (client : Nat) : RegistryCall → RegistryAnswer × Bus
  | .bind subject h => (.bound (b.bindHandler client subject h).1, (b.bindHandler client subject h).2)
  | .release subject h => (.released (b.releaseHandler client subject h).1, (b.releaseHandler client subject h).2)

/-- The answers to calls made one after the other, and the bus after them. -/
def registryCalls (b : Bus) (client : Nat) : List RegistryCall → List RegistryAnswer × Bus
  | [] => ([], b)
  | k :: rest =>
    ((b.registryCall client k).1 :: ((b.registryCall client k).2.registryCalls client rest).1,
      ((b.registryCall client k).2.registryCalls client rest).2)

variable {b : Bus} {client : Nat} {c : Client} {l : RouteBoard} {subject : Subject} {h : Handler}

theorem bindHandler_eq_attachTo (b : Bus) (client : Nat) (subject : Subject) (h : Handler) :
    b.bindHandler client subject h = b.attachTo client (·.attach subject (h.route subject)) := by
  cases h <;> rfl

theorem releaseHandler_eq_detachFrom (b : Bus) (client : Nat) (subject : Subject) (h : Handler) :
    b.releaseHandler client subject h = b.detachFrom client (·.detach subject h.isAt) := by
  cases h <;> rfl

/-- A binding is refused at the root and where there is a route, and is made elsewhere. -/
theorem Sound.bindHandler_cases (hb : b.Sound) (hc : b.clients[client]? = some c) (subject : Subject) (h : Handler) :
    (c.identity.relative subject.segments = [] ∧
      b.bindHandler client subject h = (.error (.dispatch .rootPath), b)) ∨
    (c.identity.relative subject.segments ≠ [] ∧ (c.tree.get? subject.segments).isSome = true ∧
      b.bindHandler client subject h = (.error (.duplicateHandler subject.text), b)) ∨
    (c.identity.relative subject.segments ≠ [] ∧ c.tree.get? subject.segments = none ∧
      ∃ tree, c.tree.add subject.segments (h.route subject) = .ok tree ∧
        b.bindHandler client subject h = (.ok (), b.updateClient client fun _ => { c with tree := tree })) := by
  have hcases := (hb.clients hc).wellFormed.add_cases subject.segments (h.route subject)
  rw [(hb.clients hc).owner] at hcases
  rw [bindHandler_eq_attachTo, attachTo, hc]
  simp only [Client.attach]
  rcases hcases with ⟨hroot, hadd⟩ | ⟨hroot, htaken, hadd⟩ | ⟨hroot, hfree, root, -, hadd⟩
  · exact .inl ⟨hroot, by rw [hadd]⟩
  · exact .inr (.inl ⟨hroot, htaken, by rw [hadd]⟩)
  · exact .inr (.inr ⟨hroot, hfree, _, hadd, by rw [hadd]⟩)

/-- A release takes away the route on the path if it leads to that very handler, and says whether it did. -/
theorem Sound.releaseHandler_eq (hb : b.Sound) (hc : b.clients[client]? = some c) (subject : Subject) (h : Handler) :
    b.releaseHandler client subject h = ((c.tree.get? subject.segments).any h.isAt,
      b.updateClient client fun _ => { c with tree := (c.tree.removeIf subject.segments h.isAt).2 }) := by
  rw [releaseHandler_eq_detachFrom, detachFrom, hc]
  simp only [Client.detach, (hb.clients hc).wellFormed.removeIf_fst, Option.isSome_filter]

/-- One call is answered as by the list, and the tree holds what is on the list afterwards. -/
theorem Sound.registryCall (hb : b.Sound) (hc : b.clients[client]? = some c) (hl : c.tree.Lists l)
    (k : RegistryCall) :
    (b.registryCall client k).1 = (l.call c.identity k).1 ∧ (b.registryCall client k).2.Sound ∧
      ∃ c', (b.registryCall client k).2.clients[client]? = some c' ∧ c'.identity = c.identity ∧
        c'.tree.Lists (l.call c.identity k).2 := by
  have hsound := hb.clients hc
  cases k with
  | bind subject h =>
    have hafter : (b.bindHandler client subject h).2.Sound := by
      rw [bindHandler_eq_attachTo]
      exact (Evolved.attachTo (W := fun _ _ => False) hb client (h.route_ne_reply subject)).sound
    have hlookup := hl.lookup_eq subject.segments
    rw [hsound.owner] at hlookup
    simp only [Bus.registryCall, RouteBoard.call, hlookup]
    rcases hb.bindHandler_cases hc subject h with
      ⟨hroot, hbind⟩ | ⟨hroot, htaken, hbind⟩ | ⟨hroot, hfree, tree, hadd, hbind⟩
    · rw [hbind, if_pos hroot]
      exact ⟨rfl, hb, c, hc, rfl, hl⟩
    · rw [hbind, if_neg hroot, if_pos htaken]
      exact ⟨rfl, hb, c, hc, rfl, hl⟩
    · rw [hbind] at hafter
      rw [hbind, if_neg hroot, hfree, if_neg (by simp)]
      refine ⟨rfl, hafter, _, clients_updateClient_self hc _, rfl, ?_⟩
      rw [← hsound.owner]
      exact hl.add hsound.wellFormed hadd
  | release subject h =>
    have hafter : (b.releaseHandler client subject h).2.Sound := by
      rw [releaseHandler_eq_detachFrom]
      exact (Evolved.detachFrom (W := fun _ _ => False) hb client subject h.isAt).sound
    have hlookup := hl.lookup_eq subject.segments
    have hremoved := hl.removeIf hsound.wellFormed subject.segments h.isAt
    rw [hsound.owner] at hlookup hremoved
    rw [hb.releaseHandler_eq hc] at hafter
    simp only [Bus.registryCall, RouteBoard.call, hlookup, hb.releaseHandler_eq hc]
    exact ⟨trivial, hafter, _, clients_updateClient_self hc _, rfl, hremoved⟩

/-- Calls are answered as by the list, and the tree holds what is on the list afterwards. -/
theorem Sound.registryCalls (hb : b.Sound) (hc : b.clients[client]? = some c) (hl : c.tree.Lists l)
    (ks : List RegistryCall) :
    (b.registryCalls client ks).1 = (l.calls c.identity ks).1 ∧ (b.registryCalls client ks).2.Sound ∧
      ∃ c', (b.registryCalls client ks).2.clients[client]? = some c' ∧ c'.identity = c.identity ∧
        c'.tree.Lists (l.calls c.identity ks).2 := by
  induction ks generalizing b c l with
  | nil => exact ⟨rfl, hb, c, hc, rfl, hl⟩
  | cons k rest ih =>
    obtain ⟨hanswer, hb', c', hc', hidentity, hl'⟩ := hb.registryCall hc hl k
    obtain ⟨hanswers, hb'', c'', hc'', hidentity', hl''⟩ := ih hb' hc' hl'
    rw [hidentity] at hanswers hidentity' hl''
    exact ⟨congrArg₂ List.cons hanswer hanswers, hb'', c'', hc'', hidentity', hl''⟩

/-! ### The laws -/

/-- What one call about a handler does to a client. -/
structure RegistryLaws (b : Bus) (client : Nat) (c : Client) : Prop where
  /-- A binding fails at the root and where there is any route, and nowhere else. -/
  refused_iff : ∀ subject h e, (b.bindHandler client subject h).1 = .error e ↔
    (c.identity.relative subject.segments = [] ∧ e = .dispatch .rootPath) ∨
    (c.identity.relative subject.segments ≠ [] ∧ (c.tree.get? subject.segments).isSome = true ∧
      e = .duplicateHandler subject.text)
  /-- A binding that fails changes nothing. -/
  refused : ∀ subject h e, (b.bindHandler client subject h).1 = .error e → (b.bindHandler client subject h).2 = b
  /-- A binding that is made is found on all forms of its path, and all else is as before. -/
  bound : ∀ subject h, (b.bindHandler client subject h).1 = .ok () → ∃ tree,
    (b.bindHandler client subject h).2 = b.updateClient client (fun _ => { c with tree := tree }) ∧
    ∀ path, tree.get? path =
      if c.identity.relative subject.segments = c.identity.relative path then some (h.route subject)
      else c.tree.get? path
  /-- A release succeeds where that very handler is bound, as one of its kind, and nowhere else. -/
  released_iff : ∀ subject h, (b.releaseHandler client subject h).1 = true ↔
    ∃ subject' h', c.tree.get? subject.segments = some (h'.route subject') ∧ h.Same h'
  /-- What is released is not found on any form of its path, and all else is as before. -/
  released : ∀ subject h, (b.releaseHandler client subject h).1 = true → ∃ tree,
    (b.releaseHandler client subject h).2 = b.updateClient client (fun _ => { c with tree := tree }) ∧
    ∀ path, tree.get? path =
      if c.identity.relative subject.segments = c.identity.relative path then none else c.tree.get? path
  /-- Any other release changes nothing. -/
  kept : ∀ subject h, (b.releaseHandler client subject h).1 = false → (b.releaseHandler client subject h).2 = b

theorem Sound.registryLaws (hb : b.Sound) (hc : b.clients[client]? = some c) : b.RegistryLaws client c where
  refused_iff subject h e := by
    rcases hb.bindHandler_cases hc subject h with
      ⟨hroot, hbind⟩ | ⟨hroot, htaken, hbind⟩ | ⟨hroot, hfree, tree, -, hbind⟩
    · rw [hbind]
      constructor
      · rintro ⟨⟩
        exact .inl ⟨hroot, rfl⟩
      · rintro (⟨-, rfl⟩ | ⟨hne, -, -⟩)
        · rfl
        · exact absurd hroot hne
    · rw [hbind]
      constructor
      · rintro ⟨⟩
        exact .inr ⟨hroot, htaken, rfl⟩
      · rintro (⟨hempty, -⟩ | ⟨-, -, rfl⟩)
        · exact absurd hempty hroot
        · rfl
    · rw [hbind, hfree]
      refine ⟨nofun, ?_⟩
      rintro (⟨hempty, -⟩ | ⟨-, hsome, -⟩)
      · exact absurd hempty hroot
      · cases hsome
  refused subject h e he := by
    rcases hb.bindHandler_cases hc subject h with ⟨-, hbind⟩ | ⟨-, -, hbind⟩ | ⟨-, -, tree, -, hbind⟩
    · rw [hbind]
    · rw [hbind]
    · rw [hbind] at he
      cases he
  bound subject h hok := by
    have hsound := hb.clients hc
    rcases hb.bindHandler_cases hc subject h with ⟨-, hbind⟩ | ⟨-, -, hbind⟩ | ⟨-, -, tree, hadd, hbind⟩
    · rw [hbind] at hok
      cases hok
    · rw [hbind] at hok
      cases hok
    · refine ⟨tree, by rw [hbind], fun path => ?_⟩
      rw [hsound.wellFormed.get?_add hadd, hsound.owner]
  released_iff subject h := by
    rw [hb.releaseHandler_eq hc, Option.any_eq_true]
    constructor
    · rintro ⟨route, hroute, hat⟩
      obtain ⟨subject', h', rfl, hsame⟩ := Handler.isAt_iff.1 hat
      exact ⟨subject', h', hroute, hsame⟩
    · rintro ⟨subject', h', hroute, hsame⟩
      exact ⟨_, hroute, Handler.isAt_iff.2 ⟨subject', h', rfl, hsame⟩⟩
  released subject h htrue := by
    have hsound := hb.clients hc
    rw [hb.releaseHandler_eq hc] at htrue ⊢
    refine ⟨_, rfl, fun path => ?_⟩
    obtain ⟨route, hroute, hat⟩ := (Option.any_eq_true _ _).1 htrue
    rw [hsound.wellFormed.get?_removeIf, hsound.owner, hroute, Option.filter_some_neg (by simp [hat])]
  kept subject h hfalse := by
    have hsound := hb.clients hc
    rw [hb.releaseHandler_eq hc] at hfalse ⊢
    have hdetach : (c.detach subject h.isAt).1 = false := by
      simp only [Client.detach, hsound.wellFormed.removeIf_fst, Option.isSome_filter]
      exact hfalse
    have hself : { c with tree := (c.tree.removeIf subject.segments h.isAt).2 } = c := hsound.detach_eq_self hdetach
    rw [hself, updateClient_eq_self hc]

/-- Whatever was done on a bus before, and whatever handlers a client then binds and releases: it answers as its list
of routes says, and its tree holds what is on the list afterwards, each relative path once. A further binding fails if
and only if its path is empty or has a route, and changes nothing then; a further release takes away the binding of
that very handler and nothing else, and without one it changes nothing. -/
theorem registry_laws (room : Nat) (before : List Operation)
    (hc : ((empty room).performAll before).clients[client]? = some c) (ks : List RegistryCall) :
    ∃ l : RouteBoard, c.tree.Lists l ∧
      (((empty room).performAll before).registryCalls client ks).1 = (l.calls c.identity ks).1 ∧
      ∃ c', (((empty room).performAll before).registryCalls client ks).2.clients[client]? = some c' ∧
        c'.identity = c.identity ∧ c'.tree.Lists (l.calls c.identity ks).2 ∧
        (((empty room).performAll before).registryCalls client ks).2.RegistryLaws client c' ∧
        (∀ front rest, c.identity.Owns front → c.identity.relative (front ++ rest) = rest) ∧
        ∀ path, (∀ front, c.identity.Owns front → ¬front <+: path) → c.identity.relative path = path := by
  have hlists := ((tallies_empty room client).performAll (sound_empty room) (pruned_empty room) before).lists hc
  obtain ⟨hanswers, hsound, c', hc', hidentity, hl⟩ := (sound_performAll room before).registryCalls hc hlists ks
  exact ⟨_, hlists, hanswers, c', hc', hidentity, hl, hsound.registryLaws hc',
    fun front rest hfront => Identity.relative_append hfront rest, fun path => Identity.relative_of_not_owned⟩

private def dock : Identity := ⟨["demo"], "canal", "lock", "dock"⟩

private def mooring : CorrelationId := ⟨"0190b5a4-7c1e-7000-8000-000000000029"⟩

private def tolling : Handler := .notification ⟨"tolling", fun _ _ => .ok ()⟩

private def heaving : Handler := .request ⟨"heaving", fun _ _ => .ok []⟩

private def docked : List Operation :=
  [.join dock .standard .json 4 (.tape false), .request 0 mooring .all ⟨["depth"]⟩ [] .unlimited 100]

/-- The same path is given as such and behind a prefix, and there are calls about the root and about the replies to a
request. -/
private def moves : List RegistryCall :=
  [.bind ⟨["fog"]⟩ tolling, .bind ⟨["demo", "canal", "_all", "_all", "fog"]⟩ heaving, .bind ⟨dock.address⟩ heaving,
    .bind ⟨mooring.route⟩ heaving, .release ⟨mooring.route⟩ heaving, .release ⟨["fog"]⟩ heaving,
    .release ⟨["demo", "canal", "lock", "dock", "fog"]⟩ tolling, .bind ⟨["fog"]⟩ heaving]

theorem registry_laws_dock :
    ((empty.performAll docked).registryCalls 0 moves).1 =
      [.bound (.ok ()), .bound (.error (.duplicateHandler "demo.canal._all._all.fog")),
        .bound (.error (.dispatch .rootPath)),
        .bound (.error (.duplicateHandler "rpc-reply.0190b5a4-7c1e-7000-8000-000000000029")),
        .released false, .released false, .released true, .bound (.ok ())] ∧
      ∃ l c, ((empty.performAll docked).registryCalls 0 moves).2.clients[0]? = some c ∧ c.tree.Lists l ∧
        l.length = 2 ∧ ((empty.performAll docked).registryCalls 0 moves).2.RegistryLaws 0 c := by
  refine ⟨rfl, ?_⟩
  have hcount : ((empty.performAll docked).registryCalls 0 moves).2.clients[0]?.map (·.tree.count) = some 2 := by
    decide +kernel
  have hclient : ((empty.performAll docked).clients[0]?).isSome = true := by decide +kernel
  obtain ⟨c, hc⟩ := Option.isSome_iff_exists.1 hclient
  obtain ⟨l, -, -, c', hc', -, hl, hlaws, -⟩ := registry_laws usualRoom docked hc moves
  rw [hc', Option.map_some] at hcount
  exact ⟨_, c', hc', hl, hl.count.symm.trans (Option.some.inj hcount), hlaws⟩

end Bus

end Switchboard
