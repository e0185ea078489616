import Mathlib.Logic.Relation
import Switchboard.Proofs.Delivery.Operation
import Switchboard.Proofs.Request.Ends

/-!
# Waiting for replies

When the clock moves, the timers that are due end their requests, and touch no others (`Bus.fired_advance`). So a
client that waits for replies (`Bus.Awaits`) waits on, and has the same replies, whatever is done on the bus that
nobody replies to it with, until the clock reaches its time; then its request ends with these replies
(`Bus.Awaits.ended`).

A bus on which nothing but operations was performed is sound (`Bus.sound_performAll`).
-/

namespace Switchboard

namespace Bus

variable {b b' b'' : Bus}

/-! ### Timers -/

/-- Some timers have fired, and ended the requests that were still open. -/
structure Fired (ts : List Timer) (b b' : Bus) : Prop where
  sound : b.Sound → b'.Sound
  clients : ∀ {j : Nat} {c : Client}, b.clients[j]? = some c → ∃ c', b'.clients[j]? = some c' ∧
    c'.identity = c.identity ∧ ∀ k, c'.requests[k]? = (c.requests[k]?).map fun r =>
      if ∃ t ∈ ts, t.client = j ∧ t.request = k then r.fired else r
  timers : b'.timers = b.timers
  clock : b'.clock = b.clock
  room : b'.room = b.room

theorem Fired.refl (b : Bus) : Fired [] b b := ⟨id, fun hc => ⟨_, hc, rfl, by simp⟩, rfl, rfl, rfl⟩

theorem Fired.trans {ts ts' : List Timer} (h : Fired ts b b') (h' : Fired ts' b' b'') : Fired (ts ++ ts') b b'' where
  sound hb := h'.sound (h.sound hb)
  clients := by
    intro j c hc
    obtain ⟨c', hc', hidentity, hrequests⟩ := h.clients hc
    obtain ⟨c'', hc'', hidentity', hrequests'⟩ := h'.clients hc'
    refine ⟨c'', hc'', hidentity'.trans hidentity, fun k => ?_⟩
    rw [hrequests', hrequests, Option.map_map]
    congr 1
    funext r
    -- a request that has ended does not end again
    by_cases hfirst : ∃ t ∈ ts, t.client = j ∧ t.request = k <;>
      by_cases hsecond : ∃ t ∈ ts', t.client = j ∧ t.request = k <;>
      simp only [Function.comp_apply, List.mem_append, or_and_right, exists_or, hfirst, hsecond, or_true, or_false,
        if_true, if_false, Request.fired_fired]
  timers := h'.timers.trans h.timers
  clock := h'.clock.trans h.clock
  room := h'.room.trans h.room

/-- Ending a request is all that a timer does besides telling of it. -/
theorem fire_fields (b : Bus) (t : Timer) :
    (b.fire t).clients = (b.updateClient t.client fun c => (c.endRequest t.request).2).clients ∧
      (b.fire t).broker = b.broker ∧ (b.fire t).timers = b.timers ∧ (b.fire t).clock = b.clock ∧
      (b.fire t).room = b.room := by
  unfold fire
  cases hc : b.clients[t.client]? with
  | none =>
    have hmodify : b.clients.modify t.client (fun c => (c.endRequest t.request).2) = b.clients :=
      List.modify_eq_self (List.getElem?_eq_none_iff.1 hc)
    exact ⟨hmodify.symm, rfl, rfl, rfl, rfl⟩
  | some c =>
    have hended := updateClient_const hc fun c => (c.endRequest t.request).2
    simp only [hended]
    split
    · exact ⟨rfl, rfl, rfl, rfl, rfl⟩
    · rename_i o _
      -- what is told are events only
      obtain ⟨l, hl⟩ :=
        (b.updateClient t.client fun c => (c.endRequest t.request).2).exists_tellOutcome_eq t c.identity o
      rw [hl]
      exact ⟨rfl, rfl, rfl, rfl, rfl⟩

theorem fired_fire (b : Bus) (t : Timer) : Fired [t] b (b.fire t) := by
  obtain ⟨hclients, hbroker, htimers, hclock, hroom⟩ := b.fire_fields t
  have hget : ∀ j, (b.fire t).clients[j]? =
      if t.client = j then (b.clients[j]?).map (fun c => (c.endRequest t.request).2) else b.clients[j]? := by
    intro j
    rw [hclients, clients_updateClient]
  refine ⟨fun hb => ⟨fun {j c'} hc' => ?_, hbroker ▸ hb.broker, fun t' ht' => ?_⟩, fun {j c} hc => ?_, htimers,
    hclock, hroom⟩
  · rw [hget] at hc'
    split at hc'
    · obtain ⟨c, hc, rfl⟩ := Option.map_eq_some_iff.1 hc'
      exact (hb.clients hc).endRequest t.request
    · exact hb.clients hc'
  · rw [htimers] at ht'
    obtain ⟨c, hc, hlt⟩ := hb.timers t' ht'
    rw [hget, hc]
    split
    · refine ⟨_, rfl, ?_⟩
      rw [c.requests_endRequest, List.length_modify]
      exact hlt
    · exact ⟨c, rfl, hlt⟩
  · rw [hget, hc]
    simp only [List.mem_singleton, exists_eq_left]
    split
    · rename_i hj
      refine ⟨_, rfl, c.identity_endRequest t.request, fun k => ?_⟩
      rw [c.requests_endRequest, List.getElem?_modify]
      by_cases hk : t.request = k <;> simp [hj, hk]
    · rename_i hj
      exact ⟨c, rfl, rfl, fun k => by simp [hj]⟩

theorem fired_fires (ts : List Timer) (b : Bus) : Fired ts b (ts.foldl fire b) := by
  induction ts generalizing b with
  | nil => exact .refl b
  | cons t ts ih => exact (fired_fire b t).trans (ih (b.fire t))

/-- The bus at a later time, before its timers fire. -/
def later (b : Bus) (ms : Nat) : Bus :=
  { b with clock := b.clock + ms, timers := b.timers.filter (b.clock + ms < ·.due) }

/-- A move of the clock fires the timers that are due then. -/
theorem fired_advance (b : Bus) (ms : Nat) :
    ∃ ts, (∀ t, t ∈ ts ↔ t ∈ b.timers ∧ t.due ≤ b.clock + ms) ∧ Fired ts (b.later ms) (b.advance ms) := by
  refine ⟨({ b with clock := b.clock + ms } : Bus).due, fun t => ?_, fired_fires _ _⟩
  simp only [due, (List.mergeSort_perm _ _).mem_iff, List.mem_filter, decide_eq_true_eq]

theorem Sound.later (hb : b.Sound) (ms : Nat) : (b.later ms).Sound :=
  ⟨hb.clients, hb.broker, fun t ht => hb.timers t (List.mem_of_mem_filter ht)⟩

/-! ### Soundness -/

/-- Whatever is done with a bus, it stays sound. -/
theorem Sound.perform (hb : b.Sound) (o : Operation) : (b.perform o).Sound := by
  by_cases ho : ∃ ms, o = .advance ms
  · obtain ⟨ms, rfl⟩ := ho
    obtain ⟨ts, -, hfired⟩ := b.fired_advance ms
    exact hfired.sound (hb.later ms)
  · exact (Evolved.perform hb (sparing_none b) (fun ms h => ho ⟨ms, h⟩) fun _ _ => trivial).sound

theorem Sound.performAll (hb : b.Sound) (operations : List Operation) : (b.performAll operations).Sound := by
  induction operations generalizing b with
  | nil => exact hb
  | cons o operations ih => exact ih (hb.perform o)

/-- A bus that started empty is sound. -/
theorem sound_performAll (room : Nat) (operations : List Operation) : ((empty room).performAll operations).Sound :=
  (sound_empty room).performAll operations

theorem fired_of_unclosed {r : Request} (h : r.collector.isClosed = false) : r.fired = r.ended := by
  unfold Request.fired
  rw [h]
  rfl

end Bus

/-! ### Waiting -/

/-- A message, an answer to it, an answer to that, and so on. -/
def Outgoing.LeadsTo (message reply : Outgoing) : Prop :=
  Relation.ReflTransGen (fun message answer => answer.Answers message) message reply

namespace Operation

/-- How far an operation moves the clock. -/
def elapsed : Operation → Nat
  | advance ms => ms
  | _ => 0

/-- Nothing that is published in an operation comes in on the reply path of a request, nor do the answers to it. -/
def Spares (owner : Identity) (id : CorrelationId) (b : Bus) (o : Operation) : Prop :=
  ∀ message reply, b.Publishes message o → message.LeadsTo reply → owner.relative (Topic.split reply.topic) ≠ id.route

/-- The same for one operation after the other. -/
def SpareAll (owner : Identity) (id : CorrelationId) : Bus → List Operation → Prop
  | _, [] => True
  | b, o :: r => o.Spares owner id b ∧ SpareAll owner id (b.perform o) r

/-- How far operations move the clock. -/
def elapsedAll : List Operation → Nat
  | [] => 0
  | o :: r => o.elapsed + elapsedAll r

/-- Whether some operation moves the clock to a time, or past it. -/
def reaches (due : Nat) : (clock : Nat) → List Operation → Bool
  | _, [] => false
  | clock, advance ms :: r => due ≤ clock + ms || reaches due (clock + ms) r
  | clock, _ :: r => reaches due clock r

end Operation

namespace Bus

variable {b : Bus} {j k : Nat} {owner : Identity} {r : Request} {due : Nat}

theorem Sound.clock_perform (hb : b.Sound) (o : Operation) : (b.perform o).clock = b.clock + o.elapsed := by
  by_cases ho : ∃ ms, o = .advance ms
  · obtain ⟨ms, rfl⟩ := ho
    obtain ⟨ts, -, hfired⟩ := b.fired_advance ms
    exact hfired.clock
  · have hstill : o.elapsed = 0 := by
      cases o with
      | advance ms => exact absurd ⟨ms, rfl⟩ ho
      | _ => rfl
    rw [hstill]
    exact (Evolved.perform hb (sparing_none b) (fun ms h => ho ⟨ms, h⟩) fun _ _ => trivial).clock

/-- Whatever is done with a bus, it has as much room as before. -/
theorem Sound.room_perform (hb : b.Sound) (o : Operation) : (b.perform o).room = b.room := by
  by_cases ho : ∃ ms, o = .advance ms
  · obtain ⟨ms, rfl⟩ := ho
    obtain ⟨ts, -, hfired⟩ := b.fired_advance ms
    exact hfired.room
  · exact (Evolved.perform hb (sparing_none b) (fun ms h => ho ⟨ms, h⟩) fun _ _ => trivial).room

theorem Sound.room_performAll (hb : b.Sound) (operations : List Operation) :
    (b.performAll operations).room = b.room := by
  induction operations generalizing b with
  | nil => rfl
  | cons o operations ih => exact (ih (hb.perform o)).trans (hb.room_perform o)

/-- A client waits for the replies to a request until a time, and has one timer for it. -/
structure Awaits (b : Bus) (j k : Nat) (owner : Identity) (r : Request) (due : Nat) : Prop where
  sound : b.Sound
  request : ∃ c, b.clients[j]? = some c ∧ c.identity = owner ∧ c.requests[k]? = some r
  unclosed : r.collector.isClosed = false
  timer : ⟨due, j, k⟩ ∈ b.timers
  only : ∀ t ∈ b.timers, t.client = j → t.request = k → t.due = due

namespace Awaits

theorem perform (h : Awaits b j k owner r due) {o : Operation} (ho : ∀ ms, o ≠ .advance ms)
    (hspares : o.Spares owner r.collector.id b) : Awaits (b.perform o) j k owner r due := by
  obtain ⟨c, hc, hidentity, hr⟩ := h.request
  have hspare : Sparing (fun j' k' => j' = j ∧ k' = k) (fun reply => ∃ message, b.Publishes message o ∧
      message.LeadsTo reply) b := by
    refine ⟨?_, ?_⟩
    · rintro message answer ⟨first, hfirst, hleads⟩ hanswers
      exact ⟨first, hfirst, hleads.tail hanswers⟩
    · rintro j' k' ⟨rfl, rfl⟩
      refine ⟨c, r, hc, hr, ?_⟩
      rintro reply ⟨message, hmessage, hleads⟩
      rw [hidentity]
      exact hspares message reply hmessage hleads
  have hevolved := Evolved.perform h.sound hspare ho fun message hmessage => ⟨message, hmessage, .refl⟩
  obtain ⟨c', hc', hidentity', hrequests⟩ := hevolved.clients hc
  obtain ⟨r', hr', -, hsame⟩ := hrequests hr
  obtain rfl := hsame ⟨rfl, rfl⟩
  refine ⟨hevolved.sound, ⟨c', hc', hidentity'.trans hidentity, hr'⟩, h.unclosed, hevolved.timers _ h.timer, ?_⟩
  intro t ht hj hk
  rcases hevolved.fresh t ht with hold | hnew
  · exact h.only t hold hj hk
  · subst hj hk
    rw [request?_eq_some.2 ⟨c, hc, hr⟩] at hnew
    cases hnew

/-- The clock moves, but not so far that the request ends. -/
theorem advance_early (h : Awaits b j k owner r due) {ms : Nat} (hearly : b.clock + ms < due) :
    Awaits (b.advance ms) j k owner r due := by
  obtain ⟨ts, hts, hfired⟩ := b.fired_advance ms
  obtain ⟨c, hc, hidentity, hr⟩ := h.request
  obtain ⟨c', hc', hidentity', hrequests⟩ := hfired.clients (c := c) hc
  refine ⟨hfired.sound (h.sound.later ms), ⟨c', hc', hidentity'.trans hidentity, ?_⟩, h.unclosed, ?_, ?_⟩
  · have hnot : ¬∃ t ∈ ts, t.client = j ∧ t.request = k := by
      rintro ⟨t, ht, hj, hk⟩
      obtain ⟨hmem, hdue⟩ := (hts t).1 ht
      have htime := h.only t hmem hj hk
      omega
    rw [hrequests, hr, Option.map_some, if_neg hnot]
  · rw [hfired.timers]
    exact List.mem_filter.2 ⟨h.timer, by simpa using hearly⟩
  · intro t ht
    rw [hfired.timers] at ht
    exact h.only t (List.mem_of_mem_filter ht)

/-- The clock reaches the time of the request, and the request ends. -/
theorem advance_due (h : Awaits b j k owner r due) {ms : Nat} (hdue : due ≤ b.clock + ms) :
    (b.advance ms).request? j k = some r.ended := by
  obtain ⟨ts, hts, hfired⟩ := b.fired_advance ms
  obtain ⟨c, hc, -, hr⟩ := h.request
  obtain ⟨c', hc', -, hrequests⟩ := hfired.clients (c := c) hc
  have hfires : ∃ t ∈ ts, t.client = j ∧ t.request = k := ⟨⟨due, j, k⟩, (hts _).2 ⟨h.timer, hdue⟩, rfl, rfl⟩
  rw [request?_eq_some]
  refine ⟨c', hc', ?_⟩
  rw [hrequests, hr, Option.map_some, if_pos hfires, fired_of_unclosed h.unclosed]

theorem performAll (h : Awaits b j k owner r due) {operations : List Operation}
    (hspares : Operation.SpareAll owner r.collector.id b operations)
    (hearly : Operation.reaches due b.clock operations = false) :
    Awaits (b.performAll operations) j k owner r due ∧
      (b.performAll operations).clock = b.clock + Operation.elapsedAll operations := by
  induction operations generalizing b with
  | nil => exact ⟨h, rfl⟩
  | cons o operations ih =>
    have hclock := h.sound.clock_perform o
    have hnext : Awaits (b.perform o) j k owner r due ∧
        Operation.reaches due (b.perform o).clock operations = false := by
      rw [hclock]
      cases o with
      | advance ms =>
        simp only [Operation.reaches, Bool.or_eq_false_iff, decide_eq_false_iff_not, Nat.not_le] at hearly
        exact ⟨h.advance_early hearly.1, hearly.2⟩
      | _ => exact ⟨h.perform nofun hspares.1, hearly⟩
    obtain ⟨hawaits, htime⟩ := ih hnext.1 hspares.2 hnext.2
    refine ⟨hawaits, ?_⟩
    change (Bus.performAll (b.perform o) operations).clock = b.clock + (o.elapsed + Operation.elapsedAll operations)
    rw [htime, hclock, Nat.add_assoc]

/-- Whatever is done in the meantime that spares the request, it ends with the replies that it has. -/
theorem ended (h : Awaits b j k owner r due) {operations : List Operation}
    (hspares : Operation.SpareAll owner r.collector.id b operations)
    (hearly : Operation.reaches due b.clock operations = false) {ms : Nat}
    (hdue : due ≤ b.clock + Operation.elapsedAll operations + ms) :
    ((b.performAll operations).advance ms).request? j k = some r.ended := by
  obtain ⟨hawaits, hclock⟩ := h.performAll hspares hearly
  apply hawaits.advance_due
  rw [hclock]
  exact hdue

end Awaits

end Bus

end Switchboard
