import Mathlib.Data.List.Induction
import Switchboard.Proofs.Delivery.BrokerStep
import Switchboard.Proofs.Lists

/-!
# Runs of a broker

A broker is used by steps: endpoints are made, given listeners and watchers, connected and disconnected, and they
subscribe, unsubscribe and publish. What is true of a broker after any number of steps is told from the history of
these steps and of what came of them:

* (filters) an endpoint has the filters that it subscribed to and did not unsubscribe from since, each once, whether
  it was connected all the time or not (`mem_filters_iff_subscribed`);
* (connection) an endpoint is connected if that is what was done with it last (`isConnected_iff_linked`), and has the
  listener that it was given last (`listener_iff_listening`); a watcher that was there before the first connection is
  told in turn that the connection is established and that it ends (`Watched.performAll`);
* (passing) a message is passed to the listener of each connected endpoint that accepts its topic, once
  (`exists_reached`).
-/

namespace Switchboard

variable {L W : Type}

namespace Broker

/-- Steps one after the other, with what comes of each. -/
def performAll (b : Broker L W) : List (BrokerStep L W) → List (BrokerRecord L W) × Broker L W
  | [] => ([], b)
  | step :: steps =>
    let (outcome, b) := b.perform step
    let (history, b) := b.performAll steps
    ((step, outcome) :: history, b)

/-- The endpoint has subscribed to the filter, and not unsubscribed from it since. -/
def Subscribed (history : List (BrokerRecord L W)) (id : Nat) (filter : String) : Prop :=
  Since (fun _ r => r.Adds id filter) (fun r => r.Drops id filter) history

/-- How many endpoints were made. -/
def made (steps : List (BrokerStep L W)) : Nat := steps.countP (·.makes)

/-- The endpoint was made and then connected, and it was not disconnected nor its connection broken since. -/
def Linked (steps : List (BrokerStep L W)) (id : Nat) : Prop :=
  Since (fun earlier step => step = .connect id ∧ id < made earlier) (fun step => step.Parts id) steps

/-- The endpoint was made and then given the listener, and none since. -/
def Listening (steps : List (BrokerStep L W)) (id : Nat) (listener : L) : Prop :=
  Since (fun earlier step => step = .setListener id listener ∧ id < made earlier)
    (fun step => ∃ other, step = .setListener id other) steps

/-- What a watcher has been told, in order. -/
def seen [DecidableEq W] (history : List (BrokerRecord L W)) (watcher : W) : List LinkEvent :=
  (history.flatMap (·.2.told)).filterMap fun p => if p.1 = watcher then some p.2 else none

end Broker

/-- Every other event, and the first, is that the connection is established. -/
def LinkEvent.Alternate (events : List LinkEvent) : Prop :=
  ∀ i e, events[i]? = some e → (e = .established ↔ i % 2 = 0)

theorem LinkEvent.Alternate.concat {events : List LinkEvent} (h : Alternate events) {e : LinkEvent}
    (he : e = .established ↔ events.length % 2 = 0) : Alternate (events ++ [e]) := by
  intro i e' hi
  rcases Nat.lt_trichotomy i events.length with hlt | rfl | hgt
  · rw [List.getElem?_append_left hlt] at hi
    exact h i e' hi
  · rw [List.getElem?_concat_length] at hi
    obtain rfl := Option.some.inj hi
    exact he
  · rw [List.getElem?_eq_none (by rw [List.length_append, List.length_singleton]; exact hgt)] at hi
    cases hi

namespace Broker

variable {b : Broker L W}

/-! ### Steps -/

theorem performAll_append (b : Broker L W) (steps steps' : List (BrokerStep L W)) :
    b.performAll (steps ++ steps') = ((b.performAll steps).1 ++ ((b.performAll steps).2.performAll steps').1,
      ((b.performAll steps).2.performAll steps').2) := by
  induction steps generalizing b with
  | nil => rfl
  | cons step steps ih => simp only [List.cons_append, performAll, ih]

theorem performAll_concat (b : Broker L W) (steps : List (BrokerStep L W)) (step : BrokerStep L W) :
    b.performAll (steps ++ [step]) = ((b.performAll steps).1 ++ [(step, ((b.performAll steps).2.perform step).1)],
      ((b.performAll steps).2.perform step).2) := performAll_append b steps [step]

theorem Sound.performAll (h : b.Sound) (steps : List (BrokerStep L W)) : (b.performAll steps).2.Sound := by
  induction steps generalizing b with
  | nil => exact h
  | cons step steps ih => exact ih (h.perform step)

/-! ### Filters -/

theorem nodup_filters_performAll (b : Broker L W) (steps : List (BrokerStep L W)) {id : Nat}
    (h : (b.endpoint id).filters.Nodup) : ((b.performAll steps).2.endpoint id).filters.Nodup := by
  induction steps generalizing b with
  | nil => exact h
  | cons step steps ih => exact ih _ (nodup_filters_perform b step h)

/-- After any steps an endpoint has the filters that it has subscribed to and not unsubscribed from since. -/
theorem mem_filters_iff_subscribed (steps : List (BrokerStep L W)) (id : Nat) (filter : String) :
    filter ∈ ((empty.performAll steps).2.endpoint id).filters ↔
      Subscribed (empty.performAll steps).1 id filter := by
  induction steps using List.reverseRecOn with
  | nil => simp [performAll, empty, endpoint, Endpoint.fresh, Subscribed, not_since_nil]
  | append_singleton steps step ih =>
    rw [performAll_concat, mem_filters_perform, Subscribed, since_concat, ih, Subscribed]

/-! ### Connections and listeners -/

theorem length_endpoints_performAll (steps : List (BrokerStep L W)) :
    ((empty : Broker L W).performAll steps).2.endpoints.length = made steps := by
  induction steps using List.reverseRecOn with
  | nil => rfl
  | append_singleton steps step ih =>
    rw [performAll_concat, length_endpoints_perform, ih, made, made, List.countP_append, List.countP_singleton]

/-- After any steps the endpoints are connected that were connected last. -/
theorem isConnected_iff_linked (steps : List (BrokerStep L W)) (id : Nat) :
    ((empty : Broker L W).performAll steps).2.isConnected id = true ↔ Linked steps id := by
  induction steps using List.reverseRecOn with
  | nil => simp [performAll, empty, isConnected, endpoint, Endpoint.fresh, Linked, not_since_nil]
  | append_singleton steps step ih =>
    rw [performAll_concat, isConnected_perform, length_endpoints_performAll, Linked, since_concat, ih, Linked]

/-- After any steps an endpoint has the listener that it was given last. -/
theorem listener_iff_listening (steps : List (BrokerStep L W)) (id : Nat) (listener : L) :
    (((empty : Broker L W).performAll steps).2.endpoint id).listener = some listener ↔
      Listening steps id listener := by
  induction steps using List.reverseRecOn with
  | nil => simp [performAll, empty, endpoint, Endpoint.fresh, Listening, not_since_nil]
  | append_singleton steps step ih =>
    rw [performAll_concat, listener_perform, length_endpoints_performAll, Listening, since_concat, ih, Listening]

/-! ### Watchers -/

section Watchers

variable [DecidableEq W] {id : Nat} {watcher : W} {history : List (BrokerRecord L W)}

theorem seen_concat (history : List (BrokerRecord L W)) (r : BrokerRecord L W) (watcher : W) :
    seen (history ++ [r]) watcher =
      seen history watcher ++ r.2.told.filterMap fun p => if p.1 = watcher then some p.2 else none := by
  simp [seen]

/-- What a watcher is told when an endpoint tells its watchers. -/
theorem filterMap_tell (b : Broker L W) (id : Nat) (event : LinkEvent) (watcher : W) :
    ((b.tell id event).filterMap fun p => if p.1 = watcher then some p.2 else none) =
      (b.endpoint id).watchers.filterMap fun w => if w = watcher then some event else none := by
  rw [tell, List.filterMap_map]
  rfl

theorem filterMap_tell_of_notMem (h : watcher ∉ (b.endpoint id).watchers) (event : LinkEvent) :
    ((b.tell id event).filterMap fun p => if p.1 = watcher then some p.2 else none) = [] := by
  rw [filterMap_tell, List.filterMap_eq_nil_iff]
  intro w hw
  exact if_neg fun (heq : w = watcher) => h (heq ▸ hw)

/-- Nobody knows the watcher yet. -/
structure Unwatched (watcher : W) (history : List (BrokerRecord L W)) (b : Broker L W) : Prop where
  nowhere : ∀ id, watcher ∉ (b.endpoint id).watchers
  untold : seen history watcher = []

/-- The watcher of an endpoint, and of no other, has been told of each connection and of the end of each. -/
structure Watched (id : Nat) (watcher : W) (history : List (BrokerRecord L W)) (b : Broker L W) : Prop where
  mem : watcher ∈ (b.endpoint id).watchers
  once : ((b.endpoint id).watchers.filter (· == watcher)).Nodup
  nowhere : ∀ id', id' ≠ id → watcher ∉ (b.endpoint id').watchers
  alternate : LinkEvent.Alternate (seen history watcher)
  connected : b.isConnected id = true ↔ (seen history watcher).length % 2 = 1

theorem Unwatched.perform (h : Unwatched watcher history b) (step : BrokerStep L W)
    (hstep : ∀ id, step ≠ .watch id watcher) :
    Unwatched watcher (history ++ [(step, (b.perform step).1)]) (b.perform step).2 where
  nowhere id := notMem_watchers_perform (hstep id) (h.nowhere id)
  untold := by
    rw [seen_concat, h.untold, List.nil_append]
    rcases told_perform_cases b step with ⟨htold, -⟩ | ⟨id, event, htold, -⟩
    · rw [htold]
      rfl
    · rw [htold]
      exact filterMap_tell_of_notMem (h.nowhere id) event

theorem Watched.perform (h : Watched id watcher history b) (step : BrokerStep L W)
    (hstep : ∀ id', step ≠ .watch id' watcher) :
    Watched id watcher (history ++ [(step, (b.perform step).1)]) (b.perform step).2 := by
  have hown : watcher ∈ ((b.perform step).2.endpoint id).watchers ∧
      (((b.perform step).2.endpoint id).watchers.filter (· == watcher)).Nodup := by
    rcases watchers_perform_cases b step id with hw | ⟨watcher', rfl, hw⟩
    · rw [hw]
      exact ⟨h.mem, h.once⟩
    · have hne : [watcher'].filter (· == watcher) = [] := by simpa using fun heq => hstep id (by rw [heq])
      rw [hw, List.filter_append, hne, List.append_nil]
      exact ⟨List.mem_append_left _ h.mem, h.once⟩
  have hnowhere : ∀ id', id' ≠ id → watcher ∉ ((b.perform step).2.endpoint id').watchers :=
    fun id' hid' => notMem_watchers_perform (hstep id') (h.nowhere id' hid')
  rcases told_perform_cases b step with ⟨htold, hsame⟩ | ⟨id', event, htold, -, -, hbefore, hafter⟩
  · have hseen : seen (history ++ [(step, (b.perform step).1)]) watcher = seen history watcher := by
      rw [seen_concat, htold, List.filterMap_nil, List.append_nil]
    exact ⟨hown.1, hown.2, hnowhere, hseen ▸ h.alternate, by rw [hsame, hseen, h.connected]⟩
  · by_cases hid : id' = id
    · subst hid
      -- the event is told once, and it is the one that is due
      have hseen : seen (history ++ [(step, (b.perform step).1)]) watcher = seen history watcher ++ [event] := by
        rw [seen_concat, htold, filterMap_tell, filterMap_of_once h.mem h.once]
      have hdue : event = .established ↔ (seen history watcher).length % 2 = 0 := by
        have hconnected := h.connected.symm.trans hbefore
        rw [← not_iff_not, ← ne_eq, ← hconnected]
        omega
      refine ⟨hown.1, hown.2, hnowhere, hseen ▸ h.alternate.concat hdue, ?_⟩
      rw [hafter, if_pos rfl, decide_eq_true_iff, hseen, List.length_append, List.length_singleton, hdue]
      omega
    · have hseen : seen (history ++ [(step, (b.perform step).1)]) watcher = seen history watcher := by
        rw [seen_concat, htold, filterMap_tell_of_notMem (h.nowhere id' hid), List.append_nil]
      refine ⟨hown.1, hown.2, hnowhere, hseen ▸ h.alternate, ?_⟩
      rw [hafter, if_neg hid, hseen, h.connected]

theorem Unwatched.performAll (h : Unwatched watcher history b) {steps : List (BrokerStep L W)}
    (hsteps : ∀ id, .watch id watcher ∉ steps) :
    Unwatched watcher (history ++ (b.performAll steps).1) (b.performAll steps).2 := by
  induction steps generalizing history b with
  | nil => simpa [Broker.performAll] using h
  | cons step steps ih =>
    have hfirst := h.perform step fun id heq => hsteps id (heq ▸ List.mem_cons_self)
    have hrest := ih hfirst fun id hmem => hsteps id (List.mem_cons_of_mem _ hmem)
    rwa [List.append_assoc] at hrest

theorem Watched.performAll (h : Watched id watcher history b) {steps : List (BrokerStep L W)}
    (hsteps : ∀ id', .watch id' watcher ∉ steps) :
    Watched id watcher (history ++ (b.performAll steps).1) (b.performAll steps).2 := by
  induction steps generalizing history b with
  | nil => simpa [Broker.performAll] using h
  | cons step steps ih =>
    have hfirst := h.perform step fun id' heq => hsteps id' (heq ▸ List.mem_cons_self)
    have hrest := ih hfirst fun id' hmem => hsteps id' (List.mem_cons_of_mem _ hmem)
    rwa [List.append_assoc] at hrest

/-- A watcher that comes to an endpoint that is not connected. -/
theorem Unwatched.watch (h : Unwatched watcher history b) (hmade : id < b.endpoints.length)
    (hoff : b.isConnected id = false) :
    Watched id watcher (history ++ [(.watch id watcher, (b.perform (.watch id watcher)).1)])
      (b.perform (.watch id watcher)).2 := by
  have hendpoint : ∀ id', ((b.perform (.watch id watcher)).2.endpoint id').watchers =
      if id = id' then (b.endpoint id').watchers ++ [watcher] else (b.endpoint id').watchers := by
    intro id'
    refine (congrArg Endpoint.watchers (Sound.endpoint_update b id _ id')).trans ?_
    simp only [hmade, and_true]
    split <;> rfl
  have hseen : seen (history ++ [(.watch id watcher, (b.perform (.watch id watcher)).1)]) watcher = [] := by
    rw [seen_concat, h.untold]
    rfl
  have hstill : (b.perform (.watch id watcher)).2.isConnected id = false :=
    (isConnected_update b id (f := fun e => { e with watchers := e.watchers ++ [watcher] })
      (fun _ => rfl) id).trans hoff
  refine ⟨?_, ?_, fun id' hid' => ?_, ?_, by rw [hstill, hseen]; simp⟩
  · rw [hendpoint, if_pos rfl]
    simp
  · have hnone : (b.endpoint id).watchers.filter (· == watcher) = [] := by
      rw [List.filter_eq_nil_iff]
      intro w hw heq
      exact h.nowhere id (beq_iff_eq.1 heq ▸ hw)
    rw [hendpoint, if_pos rfl, List.filter_append, hnone]
    simp
  · rw [hendpoint, if_neg (Ne.symm hid')]
    exact h.nowhere id'
  · rw [hseen]
    intro i e hi
    cases hi

end Watchers

/-- What was never connected is not connected. -/
theorem not_isConnected_performAll {id : Nat} (hoff : b.isConnected id = false) {steps : List (BrokerStep L W)}
    (hsteps : .connect id ∉ steps) : (b.performAll steps).2.isConnected id = false := by
  induction steps generalizing b with
  | nil => exact hoff
  | cons step steps ih =>
    refine ih (b := (b.perform step).2) ?_ fun hmem => hsteps (List.mem_cons_of_mem _ hmem)
    rcases told_perform_cases b step with ⟨-, hsame⟩ | ⟨id', event, -, -, hestablished, -, hafter⟩
    · rw [hsame, hoff]
    · rw [hafter]
      split
      · rename_i hid
        subst hid
        rw [decide_eq_false_iff_not]
        exact fun heq => hsteps (hestablished heq ▸ List.mem_cons_self)
      · exact hoff

/-! ### Passing messages on -/

/-- A message is passed to the listener of each endpoint that is connected and has a filter for its topic, once. -/
theorem Sound.exists_reached (h : b.Sound) (topic : String) :
    ∃ ids : List Nat, ids.Nodup ∧ List.Forall₂ (fun id l => (b.endpoint id).listener = some l) ids (b.reached topic) ∧
      ∀ id, id ∈ ids ↔ b.isConnected id = true ∧ (b.endpoint id).listener.isSome = true ∧
        ∃ filter ∈ (b.endpoint id).filters, Filter.covering filter topic = true := by
  let find := fun id => if (b.endpoint id).accepts topic then (b.endpoint id).listener else none
  refine ⟨b.online.filter fun id => (find id).isSome, h.nodup.filter _, ?_, fun id => ?_⟩
  · refine (forall₂_filter_filterMap find b.online).imp fun id l hl => ?_
    exact (Option.ite_none_right_eq_some.1 hl.2).2
  · rw [List.mem_filter, h.online]
    refine and_congr_right fun _ => ?_
    rw [← List.any_eq_true, ← Endpoint.accepts]
    by_cases haccepts : (b.endpoint id).accepts topic = true <;> simp [find, haccepts]

/-- How many endpoints are connected. -/
theorem Sound.connectedCount_eq (h : b.Sound) :
    b.connectedCount = ((List.range b.endpoints.length).filter b.isConnected).length := by
  have hperm : b.online.Perm ((List.range b.endpoints.length).filter b.isConnected) := by
    rw [List.perm_ext_iff_of_nodup h.nodup (List.nodup_range.filter _)]
    intro id
    rw [h.online, List.mem_filter, List.mem_range]
    exact ⟨fun hid => ⟨lt_length_of_isConnected hid, hid⟩, And.right⟩
  exact hperm.length_eq

/-! ### Any run -/

/-- After any steps: online are the endpoints that are connected, and these are the ones that were connected and have
not been parted since; an endpoint has the listener that it was given last, and the filters it subscribed to and has
not unsubscribed from since; only steps that lack their connection are refused, and nothing comes of them; a message
goes to the listener of each connected endpoint that has a filter for its topic, once; and the watcher of an endpoint
that was there before its first connection has been told in turn that the connection is established and that it
ends. -/
theorem broker_after_steps [DecidableEq W] (steps : List (BrokerStep L W)) :
    let history := ((empty : Broker L W).performAll steps).1
    let b := ((empty : Broker L W).performAll steps).2
    ((∀ id, id ∈ b.online ↔ b.isConnected id = true) ∧
      b.connectedCount = ((List.range b.endpoints.length).filter b.isConnected).length) ∧
    (∀ id, (b.isConnected id = true ↔ Linked steps id) ∧
      ∀ listener, (b.endpoint id).listener = some listener ↔ Listening steps id listener) ∧
    (∀ id, (b.endpoint id).filters.Nodup ∧
      ∀ filter, filter ∈ (b.endpoint id).filters ↔ Subscribed history id filter) ∧
    (∀ step : BrokerStep L W,
      (∃ id operation, step.requires = some (id, operation) ∧ b.isConnected id = false ∧
        b.perform step = (.refused (.notConnected operation), b)) ∨
      ((∀ id operation, step.requires = some (id, operation) → b.isConnected id = true) ∧
        (b.perform step).1.result = .ok ())) ∧
    (∀ id topic, b.isConnected id = true → ∃ ids listeners, b.perform (.publish id topic) = (.passing listeners, b) ∧
      ids.Nodup ∧ List.Forall₂ (fun id' l => (b.endpoint id').listener = some l) ids listeners ∧
      ∀ id', id' ∈ ids ↔ b.isConnected id' = true ∧ (b.endpoint id').listener.isSome = true ∧
        ∃ filter ∈ (b.endpoint id').filters, Filter.covering filter topic = true) ∧
    ∀ earlier id watcher later, steps = earlier ++ .watch id watcher :: later →
      id < ((empty : Broker L W).performAll earlier).2.endpoints.length → .connect id ∉ earlier →
      (∀ id', .watch id' watcher ∉ earlier ++ later) →
      LinkEvent.Alternate (seen history watcher) ∧
        (b.isConnected id = true ↔ (seen history watcher).length % 2 = 1) := by
  intro history b
  have hb : b.Sound := Sound.empty.performAll steps
  refine ⟨⟨hb.online, hb.connectedCount_eq⟩,
    fun id => ⟨isConnected_iff_linked steps id, listener_iff_listening steps id⟩,
    fun id => ⟨?_, mem_filters_iff_subscribed steps id⟩, perform_refused_or_granted b, fun id topic hid => ?_, ?_⟩
  · exact nodup_filters_performAll empty steps List.nodup_nil
  · obtain ⟨ids, hnodup, hlisteners, hmem⟩ := hb.exists_reached topic
    exact ⟨ids, b.reached topic, by rw [perform_publish, if_pos hid], hnodup, hlisteners, hmem⟩
  · rintro earlier id watcher later rfl hmade hearlier honce
    have hoff : ((empty : Broker L W).performAll earlier).2.isConnected id = false :=
      not_isConnected_performAll rfl hearlier
    have hnew : Unwatched watcher [] (empty : Broker L W) := ⟨fun _ => List.not_mem_nil, rfl⟩
    have hbefore := hnew.performAll fun id' hmem => honce id' (List.mem_append_left later hmem)
    have hwatched := (hbefore.watch hmade hoff).performAll fun id' hmem =>
      honce id' (List.mem_append_right earlier hmem)
    have hrun : (empty : Broker L W).performAll (earlier ++ .watch id watcher :: later) = (history, b) := rfl
    rw [performAll_append, performAll] at hrun
    obtain ⟨hhistory, hbroker⟩ := Prod.mk.inj hrun
    rw [List.nil_append, List.append_assoc, List.singleton_append, hhistory, hbroker] at hwatched
    exact ⟨hwatched.alternate, hwatched.connected⟩

/-- A connection that breaks, and another one that ends and is made again: a second connection attempt, and a
disconnection of what is broken already, are told to nobody. The listener stays through all of it. -/
theorem seen_of_lost_connection :
    let earlier : List (BrokerStep Nat String) := [.create]
    let later : List (BrokerStep Nat String) :=
      [.setListener 0 4, .connect 0, .connect 0, .subscribe 0 ["a.#"], .lose 0 "gone", .disconnect 0, .connect 0,
        .setListener 0 7, .disconnect 0, .connect 0]
    let steps := earlier ++ .watch 0 "monitor" :: later
    let history := ((empty : Broker Nat String).performAll steps).1
    (seen history "monitor" = [.established, .lost "gone", .established, .disconnecting, .established] ∧
      LinkEvent.Alternate (seen history "monitor")) ∧ Linked steps 0 ∧ Listening steps 0 7 := by
  intro earlier later steps history
  obtain ⟨-, hlinks, -, -, -, hwatcher⟩ := broker_after_steps steps
  have halternate := hwatcher earlier 0 "monitor" later rfl (by decide) (by simp [earlier]) fun id' => by
    simp [earlier, later]
  exact ⟨⟨by decide, halternate.1⟩, (hlinks 0).1.1 (by decide), ((hlinks 0).2 7).1 (by decide)⟩

end Broker

end Switchboard
