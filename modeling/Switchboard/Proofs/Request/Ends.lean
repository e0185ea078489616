import Mathlib.Data.List.Nodup
import Switchboard.Proofs.Request.Books

/-!
# The end of a request

Each open request has one timer (`Timed`). When the clock reaches its time the request ends: its route is detached,
and its sender is told the replies. Whatever else ends in the same move of the clock does not touch it (`Bus.Ended`),
and a request that has no timer any more does not end again.
-/

namespace Switchboard

variable {i : Identity} {past : List CorrelationId} {b : Bus} {c c' : Client}

/-- Each open request has one timer, and there are no other timers. -/
structure Timed (timers : List Timer) (requests : List Request) : Prop where
  client : ∀ t ∈ timers, t.client = 0
  distinct : (timers.map (·.request)).Nodup
  waiting : ∀ k, k ∈ timers.map (·.request) ↔ ∃ r, requests[k]? = some r ∧ r.outcome = none

/-! ### One request -/

theorem Books.endRequest (h : Books i past c) {k : Nat} {r : Request} (hk : c.requests[k]? = some r)
    (ho : r.outcome = none) :
    (c.endRequest k).1 = some r.collector.outcome ∧ Books i past (c.endRequest k).2 ∧
      (c.endRequest k).2.requests = c.requests.modify k fun _ => r.ended := by
  have hopen : r.collector.isClosed = false := by rw [h.closed r (List.mem_of_getElem? hk), ho]; rfl
  have hend : c.endRequest k = (some r.collector.outcome,
      { c.detachRequest k r.collector.id with requests := c.requests.modify k fun _ => r.ended }) := by
    simp only [Client.endRequest, hk, ReplyCollector.finish, hopen]
    rfl
  have hget : ∀ {j r'}, (c.requests.modify k fun _ => r.ended)[j]? = some r' ↔
      (j = k ∧ r' = r.ended) ∨ (j ≠ k ∧ c.requests[j]? = some r') := by
    intro j r'
    rw [List.getElem?_modify]
    by_cases hjk : k = j
    · subst hjk
      simp [hk, eq_comm]
    · simp [hjk, Ne.symm hjk]
  have hmem : ∀ {r'}, r' ∈ (c.requests.modify k fun _ => r.ended) → r' = r.ended ∨ r' ∈ c.requests := by
    intro r' hr'
    obtain ⟨j, hj⟩ := List.mem_iff_getElem?.1 hr'
    rcases hget.1 hj with ⟨-, he⟩ | ⟨-, hj⟩
    · exact .inl he
    · exact .inr (List.mem_of_getElem? hj)
  have hids : (c.requests.modify k fun _ => r.ended).map (·.collector.id) = c.requests.map (·.collector.id) := by
    refine List.ext_getElem? fun j => ?_
    rw [List.getElem?_map, List.getElem?_map, List.getElem?_modify]
    by_cases hjk : k = j
    · subst hjk
      simp [hk, Request.ended]
    · simp [hjk]
  rw [hend]
  refine ⟨rfl, ⟨h.identity, (h.wellFormed.owner_of_removeIf _ _).trans h.owner, h.taped, h.wellFormed.removeIf _ _,
    hids ▸ h.distinct, fun r' hr' => ?_, fun r' hr' => ?_, fun path j => ?_⟩, rfl⟩
  · rcases hmem hr' with rfl | hr'
    · exact h.known r (List.mem_of_getElem? hk)
    · exact h.known r' hr'
  · rcases hmem hr' with rfl | hr'
    · rfl
    · exact h.closed r' hr'
  · change (c.detachRequest k r.collector.id).tree.get? path = _ ↔ _
    rw [h.get?_detachRequest hk ho]
    constructor
    · intro hroute
      split at hroute
      · cases hroute
      · rename_i hpath
        obtain ⟨r', hr', ho', hpath'⟩ := (h.routes path j).1 hroute
        refine ⟨r', hget.2 (.inr ⟨?_, hr'⟩), ho', hpath'⟩
        rintro rfl
        rw [hk] at hr'
        cases hr'
        exact hpath hpath'.symm
    · rintro ⟨r', hr', ho', hpath'⟩
      rcases hget.1 hr' with ⟨-, rfl⟩ | ⟨hne, hr'⟩
      · cases ho'
      -- the ids are distinct, so no other open request had its route at the path
      · have hother : r.collector.id.route ≠ i.relative path := by
          rw [hpath', Ne, CorrelationId.route_inj]
          exact fun hid => hne (h.eq_of_id hk hr' hid).symm
        rw [if_neg hother]
        exact (h.routes path j).2 ⟨r', hr', ho', hpath'⟩

namespace Bus

/-- Some requests have ended, and their senders were told of their replies. The others are as they were. -/
structure Ended (i : Identity) (past : List CorrelationId) (c : Client) (ks : List Nat) (b b' : Bus) : Prop where
  clients : ∃ c', b'.clients = [c'] ∧ Books i past c' ∧
    ∀ k, c'.requests[k]? = (c.requests[k]?).map fun r => if k ∈ ks then r.ended else r
  timers : b'.timers = b.timers
  clock : b'.clock = b.clock
  told : ∀ k ∈ ks, ∀ r, c.requests[k]? = some r → b'.repliesTold k = b.repliesTold k ++ [r.collector.replies]
  others : ∀ k, k ∉ ks → b'.repliesTold k = b.repliesTold k

/-- The end of a request is told to its sender, and no other sender is told of replies. -/
theorem repliesTold_tellOutcome (b : Bus) {t : Timer} (ht : t.client = 0) (scope : Identity) (o : RequestOutcome)
    (k : Nat) :
    (b.tellOutcome t scope o).repliesTold k = b.repliesTold k ++ if t.request = k then [o.replies] else [] := by
  have hcalls : (o.calls.foldl (fun b call => b.record (.told t.client t.request call)) b).repliesTold k =
      b.repliesTold k ++ if t.request = k then [o.replies] else [] := by
    rw [ht]
    cases hm : o.mismatch? <;>
      simp [RequestOutcome.calls, hm, repliesTold_record, BusEvent.replies?, apply_ite Option.toList]
  unfold tellOutcome
  split
  · exact hcalls
  · rw [(quiet_log _ _ _ _ _).told k, hcalls]

theorem foldl_record {α : Type} (event : α → BusEvent) (l : List α) (b : Bus) :
    l.foldl (fun b a => b.record (event a)) b = { b with events := b.events ++ l.map event } := by
  induction l generalizing b with
  | nil => rw [List.foldl_nil, List.map_nil, List.append_nil]
  | cons a l ih => rw [List.foldl_cons, ih, record, List.append_assoc, List.singleton_append, List.map_cons]

/-- The sender of a request is told how it ended, and the rest is logging. -/
theorem exists_tellOutcome_eq (b : Bus) (t : Timer) (scope : Identity) (o : RequestOutcome) :
    ∃ l : List LogEvent, b.tellOutcome t scope o =
      { b with events := b.events ++ (o.calls.map (.told t.client t.request) ++ l.map .logged) } := by
  unfold tellOutcome
  rw [foldl_record]
  cases o.mismatch? with
  | none => exact ⟨[], by rw [List.map_nil, List.append_nil]⟩
  | some e => exact ⟨[_], congrArg (fun events => ({ b with events := events } : Bus)) (List.append_assoc _ _ _)⟩

/-- Telling the end of a request changes nothing but the events. -/
theorem tellOutcome_fields (b : Bus) (t : Timer) (scope : Identity) (o : RequestOutcome) :
    (b.tellOutcome t scope o).clients = b.clients ∧ (b.tellOutcome t scope o).timers = b.timers ∧
      (b.tellOutcome t scope o).clock = b.clock := by
  obtain ⟨l, hl⟩ := b.exists_tellOutcome_eq t scope o
  rw [hl]
  exact ⟨rfl, rfl, rfl⟩

theorem ended_fire (hc : b.clients = [c]) (h : Books i past c) {t : Timer} (ht : t.client = 0) {r : Request}
    (hk : c.requests[t.request]? = some r) (ho : r.outcome = none) : Ended i past c [t.request] b (b.fire t) := by
  have hget : b.clients[t.client]? = some c := by rw [hc, ht]; rfl
  obtain ⟨houtcome, hbooks, hrequests⟩ := h.endRequest hk ho
  have hfire : b.fire t = (b.updateClient t.client fun _ => (c.endRequest t.request).2).tellOutcome t c.identity
      r.collector.outcome := by
    simp only [fire, hget, houtcome]
  obtain ⟨hclients, htimers, hclock⟩ := tellOutcome_fields
    (b.updateClient t.client fun _ => (c.endRequest t.request).2) t c.identity r.collector.outcome
  rw [hfire]
  refine ⟨⟨_, ?_, hbooks, fun k => ?_⟩, htimers, hclock, fun k hkt r' hr' => ?_, fun k hkt => ?_⟩
  · rw [hclients]
    simp [updateClient, hc, ht]
  · rw [hrequests, List.getElem?_modify]
    by_cases hkt : t.request = k
    · subst hkt
      simp [hk]
    · simp [hkt, Ne.symm hkt]
  · obtain rfl : k = t.request := List.mem_singleton.1 hkt
    obtain rfl : r = r' := by simpa [hk] using hr'
    rw [repliesTold_tellOutcome _ ht, if_pos rfl]
    rfl
  · rw [repliesTold_tellOutcome _ ht, if_neg fun he => hkt (List.mem_singleton.2 he.symm), List.append_nil]
    rfl

/-! ### All requests that are due -/

/-- Timers of different open requests end just these. -/
theorem ended_fires (hc : b.clients = [c]) (h : Books i past c) {ts : List Timer} (hclient : ∀ t ∈ ts, t.client = 0)
    (hdistinct : (ts.map (·.request)).Nodup)
    (hopen : ∀ t ∈ ts, ∃ r, c.requests[t.request]? = some r ∧ r.outcome = none) :
    Ended i past c (ts.map (·.request)) b (ts.foldl fire b) := by
  induction ts generalizing b c with
  | nil => exact ⟨⟨c, hc, h, by simp⟩, rfl, rfl, by simp, fun _ _ => rfl⟩
  | cons t ts ih =>
    rw [List.map_cons, List.nodup_cons] at hdistinct
    obtain ⟨r, hk, ho⟩ := hopen t List.mem_cons_self
    have hfirst := ended_fire hc h (hclient t List.mem_cons_self) hk ho
    obtain ⟨c₁, hc₁, hbooks₁, hrequests₁⟩ := hfirst.clients
    -- the other timers find their requests open still, as the first timer ended another one
    have hother : ∀ {k}, k ∈ ts.map (·.request) → k ≠ t.request := fun hk' he => hdistinct.1 (he ▸ hk')
    have hrest := ih hc₁ hbooks₁ (fun t' ht' => hclient t' (List.mem_cons_of_mem _ ht')) hdistinct.2 fun t' ht' => by
      obtain ⟨r', hk', ho'⟩ := hopen t' (List.mem_cons_of_mem _ ht')
      refine ⟨r', ?_, ho'⟩
      simp [hrequests₁, hk', hother (List.mem_map_of_mem ht')]
    obtain ⟨c', hc', hbooks', hrequests'⟩ := hrest.clients
    refine ⟨⟨c', hc', hbooks', fun k => ?_⟩, hrest.timers.trans hfirst.timers, hrest.clock.trans hfirst.clock,
      fun k hmem r' hr' => ?_, fun k hmem => ?_⟩
    · rw [hrequests', hrequests₁, List.map_cons]
      by_cases hkt : k = t.request
      · subst hkt
        simp [hdistinct.1, Function.comp_def]
      · simp [hkt]
    · rcases List.mem_cons.1 hmem with rfl | hmem
      · exact (hrest.others t.request hdistinct.1).trans (hfirst.told t.request List.mem_cons_self r' hr')
      · have hkt : k ∉ [t.request] := fun hk' => hother hmem (List.mem_singleton.1 hk')
        have hr₁ : c₁.requests[k]? = some r' := by simp [hrequests₁, hr', hkt]
        exact (hrest.told k hmem r' hr₁).trans (congrArg (· ++ _) (hfirst.others k hkt))
    · rw [List.map_cons, List.mem_cons, not_or] at hmem
      exact (hrest.others k hmem.2).trans (hfirst.others k (by simpa using hmem.1))

/-- Whether the time of a request is over at a time. -/
def IsOver (b : Bus) (time k : Nat) : Prop := ∃ t ∈ b.timers, t.request = k ∧ t.due ≤ time

theorem mem_requests_due {b : Bus} {k : Nat} :
    k ∈ b.due.map (·.request) ↔ b.IsOver b.clock k := by
  simp only [due, IsOver, List.mem_map, (List.mergeSort_perm _ _).mem_iff, List.mem_filter, decide_eq_true_eq]
  constructor
  · rintro ⟨t, ⟨ht, hdue⟩, hk⟩
    exact ⟨t, ht, hk, hdue⟩
  · rintro ⟨t, ht, hk, hdue⟩
    exact ⟨t, ⟨ht, hdue⟩, hk⟩

/-- A move of the clock ends the requests whose time is over then, and no others. -/
theorem ended_advance (hc : b.clients = [c]) (h : Books i past c) (htimed : Timed b.timers c.requests) (ms : Nat) :
    Ended i past c (({ b with clock := b.clock + ms } : Bus).due.map (·.request))
      { b with clock := b.clock + ms, timers := b.timers.filter (b.clock + ms < ·.due) } (b.advance ms) := by
  have hperm := List.mergeSort_perm (b.timers.filter (·.due ≤ b.clock + ms)) (·.due ≤ ·.due)
  have hmem : ∀ t ∈ ({ b with clock := b.clock + ms } : Bus).due, t ∈ b.timers := fun t ht =>
    List.mem_of_mem_filter (hperm.mem_iff.1 ht)
  refine ended_fires (b := { b with clock := b.clock + ms, timers := b.timers.filter (b.clock + ms < ·.due) }) hc h
    (fun t ht => htimed.client t (hmem t ht)) ?_ fun t ht => ?_
  · refine (hperm.map _).nodup_iff.2 ?_
    exact htimed.distinct.sublist (List.filter_sublist.map _)
  · exact (htimed.waiting t.request).1 (List.mem_map_of_mem (hmem t ht))

/-- What is open after a move of the clock has its timer still. -/
theorem timed_advance (htimed : Timed b.timers c.requests) {ms : Nat} {requests : List Request}
    (hrequests : ∀ k, requests[k]? = (c.requests[k]?).map fun r =>
      if k ∈ ({ b with clock := b.clock + ms } : Bus).due.map (·.request) then r.ended else r) :
    Timed (b.timers.filter (b.clock + ms < ·.due)) requests := by
  refine ⟨fun t ht => htimed.client t (List.mem_of_mem_filter ht),
    htimed.distinct.sublist (List.filter_sublist.map _), fun k => ?_⟩
  have hover := mem_requests_due (b := { b with clock := b.clock + ms }) (k := k)
  rw [hrequests]
  constructor
  · intro hk
    obtain ⟨t, ht, rfl⟩ := List.mem_map.1 hk
    rw [List.mem_filter, decide_eq_true_eq] at ht
    obtain ⟨r, hr, ho⟩ := (htimed.waiting t.request).1 (List.mem_map_of_mem ht.1)
    -- its request has no other timer that could be due
    have hnot : ¬ t.request ∈ ({ b with clock := b.clock + ms } : Bus).due.map (·.request) := by
      rw [hover]
      rintro ⟨t', ht', hsame, hdue⟩
      obtain rfl : t' = t := List.inj_on_of_nodup_map htimed.distinct ht' ht.1 hsame
      exact absurd hdue (Nat.not_le_of_gt ht.2)
    exact ⟨r, by simp [hr, hnot], ho⟩
  · rintro ⟨r', hr', ho'⟩
    obtain ⟨r, hr, he⟩ := Option.map_eq_some_iff.1 hr'
    split at he
    · rw [← he] at ho'
      cases ho'
    · rename_i hnot
      subst he
      obtain ⟨t, ht, rfl⟩ := List.mem_map.1 ((htimed.waiting k).2 ⟨r, hr, ho'⟩)
      refine List.mem_map_of_mem (List.mem_filter.2 ⟨ht, decide_eq_true ?_⟩)
      by_contra hdue
      exact hnot (hover.2 ⟨t, ht, rfl, Nat.le_of_not_lt hdue⟩)

end Bus

end Switchboard
