import Mathlib.Data.List.Nodup
import Switchboard.Proofs.Delivery.Soundness

/-!
# Steps of a broker

A broker is used by steps: endpoints are made, given listeners and watchers, connected and disconnected, and they
subscribe, unsubscribe and publish. All that a step can do is told by

* (result) `perform_refused_or_granted`: it is refused for want of a connection, and then nothing comes of it;
* (endpoints) `endpoint_perform_cases`, with `mem_filters_perform` and `watchers_perform_cases` for two of their
  fields;
* (connections) `isConnected_perform`, and `told_perform_cases`: the connection of at most one endpoint is made or
  ends, and its watchers are told;
* (listeners) `listener_perform`.
-/

namespace Switchboard

variable {L W : Type}

/-- What can be done with a broker. -/
inductive BrokerStep (L W : Type)
  | create
  | setListener (id : Nat) (listener : L)
  | watch (id : Nat) (watcher : W)
  | connect (id : Nat)
  | disconnect (id : Nat)
  | lose (id : Nat) (cause : String)
  | subscribe (id : Nat) (filters : List String)
  | unsubscribe (id : Nat) (filters : List String)
  | publish (id : Nat) (topic : String)

/-- What comes of a step: whether it is refused, who is told what, and to which listeners a message is passed. -/
structure BrokerOutcome (L W : Type) where
  result : Except TransportError Unit
  told : List (W × LinkEvent)
  passed : List L

namespace BrokerOutcome

/-- A step that watchers are told about, or that nobody is told about. -/
def telling (told : List (W × LinkEvent)) : BrokerOutcome L W := ⟨.ok (), told, []⟩

def passing (listeners : List L) : BrokerOutcome L W := ⟨.ok (), [], listeners⟩

def refused (e : TransportError) : BrokerOutcome L W := ⟨.error e, [], []⟩

end BrokerOutcome

/-- The endpoint that has to be connected for a step, and what it is needed for. -/
def BrokerStep.requires : BrokerStep L W → Option (Nat × TransportOperation)
  | subscribe id _ => some (id, .subscribe)
  | unsubscribe id _ => some (id, .unsubscribe)
  | publish id _ => some (id, .publish)
  | _ => none

/-- Whether a step makes an endpoint. -/
def BrokerStep.makes : BrokerStep L W → Bool
  | create => true
  | _ => false

/-- A step that disconnects an endpoint or breaks its connection. -/
def BrokerStep.Parts (id : Nat) (step : BrokerStep L W) : Prop :=
  step = .disconnect id ∨ ∃ cause, step = .lose id cause

/-- A step that was made, and what came of it. -/
abbrev BrokerRecord (L W : Type) := BrokerStep L W × BrokerOutcome L W

namespace BrokerRecord

/-- An endpoint has subscribed to a filter. -/
def Adds (r : BrokerRecord L W) (id : Nat) (filter : String) : Prop :=
  r.2.result = .ok () ∧ ∃ filters, r.1 = .subscribe id filters ∧ filter ∈ filters

/-- An endpoint has unsubscribed from a filter. -/
def Drops (r : BrokerRecord L W) (id : Nat) (filter : String) : Prop :=
  r.2.result = .ok () ∧ ∃ filters, r.1 = .unsubscribe id filters ∧ filter ∈ filters

end BrokerRecord

namespace Broker

variable {b : Broker L W}

/-- A step, which leaves the broker as it is if it is refused. -/
def perform (b : Broker L W) : BrokerStep L W → BrokerOutcome L W × Broker L W
  | .create => (.telling [], b.create.2)
  | .setListener id listener => (.telling [], b.setListener id listener)
  | .watch id watcher => (.telling [], b.watch id watcher)
  | .connect id => (.telling (b.connect id).1, (b.connect id).2)
  | .disconnect id => (.telling (b.disconnect id).1, (b.disconnect id).2)
  | .lose id cause => (.telling (b.lose id cause).1, (b.lose id cause).2)
  | .subscribe id filters =>
    match b.subscribe id filters with
    | .ok b => (.telling [], b)
    | .error e => (.refused e, b)
  | .unsubscribe id filters =>
    match b.unsubscribe id filters with
    | .ok b => (.telling [], b)
    | .error e => (.refused e, b)
  | .publish id topic =>
    match b.publish id topic with
    | .ok listeners => (.passing listeners, b)
    | .error e => (.refused e, b)

/-! ### Results -/

theorem perform_subscribe (b : Broker L W) (id : Nat) (filters : List String) :
    b.perform (.subscribe id filters) = if b.isConnected id then (.telling [], b.update id (·.addFilters filters))
      else (.refused (.notConnected .subscribe), b) := by
  by_cases hid : b.isConnected id = true <;>
    simp [perform, Broker.subscribe, requireConnected, hid, bind, Except.bind, pure, Except.pure]

theorem perform_unsubscribe (b : Broker L W) (id : Nat) (filters : List String) :
    b.perform (.unsubscribe id filters) =
      if b.isConnected id then (.telling [], b.update id (·.removeFilters filters))
      else (.refused (.notConnected .unsubscribe), b) := by
  by_cases hid : b.isConnected id = true <;>
    simp [perform, Broker.unsubscribe, requireConnected, hid, bind, Except.bind, pure, Except.pure]

theorem perform_publish (b : Broker L W) (id : Nat) (topic : String) :
    b.perform (.publish id topic) = if b.isConnected id then (.passing (b.reached topic), b)
      else (.refused (.notConnected .publish), b) := by
  by_cases hid : b.isConnected id = true <;>
    simp [perform, Broker.publish, requireConnected, hid, bind, Except.bind, pure, Except.pure]

theorem perform_subscribe_of_eq_ok {b' : Broker L W} {id : Nat} {filters : List String}
    (h : b.subscribe id filters = .ok b') : b.perform (.subscribe id filters) = (.telling [], b') := by
  rw [perform, h]

theorem perform_unsubscribe_of_eq_ok {b' : Broker L W} {id : Nat} {filters : List String}
    (h : b.unsubscribe id filters = .ok b') : b.perform (.unsubscribe id filters) = (.telling [], b') := by
  rw [perform, h]

/-- A step is refused if it needs a connection and has none, and then nothing comes of it; all others are granted. -/
theorem perform_refused_or_granted (b : Broker L W) (step : BrokerStep L W) :
    (∃ id operation, step.requires = some (id, operation) ∧ b.isConnected id = false ∧
      b.perform step = (.refused (.notConnected operation), b)) ∨
    ((∀ id operation, step.requires = some (id, operation) → b.isConnected id = true) ∧
      (b.perform step).1.result = .ok ()) := by
  cases step with
  | create | setListener id listener | watch id watcher | connect id | disconnect id | lose id cause =>
    exact .inr ⟨nofun, rfl⟩
  | subscribe id filters =>
    rw [perform_subscribe]
    by_cases hid : b.isConnected id = true
    · exact .inr ⟨by rintro _ _ ⟨⟩; exact hid, by rw [if_pos hid]; rfl⟩
    · exact .inl ⟨id, .subscribe, rfl, by simpa using hid, if_neg hid⟩
  | unsubscribe id filters =>
    rw [perform_unsubscribe]
    by_cases hid : b.isConnected id = true
    · exact .inr ⟨by rintro _ _ ⟨⟩; exact hid, by rw [if_pos hid]; rfl⟩
    · exact .inl ⟨id, .unsubscribe, rfl, by simpa using hid, if_neg hid⟩
  | publish id topic =>
    rw [perform_publish]
    by_cases hid : b.isConnected id = true
    · exact .inr ⟨by rintro _ _ ⟨⟩; exact hid, by rw [if_pos hid]; rfl⟩
    · exact .inl ⟨id, .publish, rfl, by simpa using hid, if_neg hid⟩

theorem Sound.perform (h : b.Sound) (step : BrokerStep L W) : (b.perform step).2.Sound := by
  cases step with
  | create => exact h.create
  | setListener id listener => exact h.update id fun _ => rfl
  | watch id watcher => exact h.update id fun _ => rfl
  | connect id => exact h.connect id
  | disconnect id => exact h.disconnect id
  | lose id cause => exact h.lose id cause
  | subscribe id filters =>
    rw [perform_subscribe]
    split
    · exact h.update id fun _ => rfl
    · exact h
  | unsubscribe id filters =>
    rw [perform_unsubscribe]
    split
    · exact h.update id fun _ => rfl
    · exact h
  | publish id topic =>
    rw [perform_publish]
    split <;> exact h

/-! ### Endpoints -/

theorem endpoint_of_length_le {id : Nat} (h : b.endpoints.length ≤ id) : b.endpoint id = .fresh := by
  rw [endpoint, List.getElem?_eq_none h, Option.getD_none]

theorem lt_length_of_isConnected {id : Nat} (h : b.isConnected id = true) : id < b.endpoints.length := by
  by_contra hge
  rw [isConnected, endpoint_of_length_le (Nat.not_lt.1 hge)] at h
  cases h

theorem endpoint_setListener (b : Broker L W) (id : Nat) (listener : L) (id' : Nat) :
    (b.setListener id listener).endpoint id' = if id = id' ∧ id < b.endpoints.length then
      { b.endpoint id' with listener := some listener } else b.endpoint id' := Sound.endpoint_update b id _ id'

theorem endpoint_connect (b : Broker L W) (id id' : Nat) : (b.connect id).2.endpoint id' =
    if id = id' ∧ id < b.endpoints.length then { b.endpoint id' with connected := true } else b.endpoint id' := by
  unfold connect
  split
  · rename_i hold
    split
    · rename_i hid
      obtain ⟨rfl, hlt⟩ := hid
      have hconnected : (b.endpoint id).connected = true := hold.resolve_right (Nat.not_le.2 hlt)
      rw [← hconnected]
    · rfl
  · exact Sound.endpoint_update b id _ id'

/-- An endpoint that is off is not connected any more, and all else about it is as it was. -/
theorem endpoint_takeOff (b : Broker L W) (id id' : Nat) : (b.takeOff id).endpoint id' =
    if id = id' then { b.endpoint id' with connected := false } else b.endpoint id' := by
  refine (Sound.endpoint_update b id _ id').trans ?_
  by_cases hlt : id < b.endpoints.length
  · simp [hlt]
  · split
    · rename_i hid
      exact absurd hid.2 hlt
    · split
      · rename_i hid
        subst hid
        rw [endpoint_of_length_le (Nat.not_lt.1 hlt)]
        rfl
      · rfl

/-- An endpoint that is not connected is as it would be if it were taken off. -/
theorem endpoint_eq_of_not_isConnected {id : Nat} (h : ¬b.isConnected id = true) (id' : Nat) : b.endpoint id' =
    if id = id' then { b.endpoint id' with connected := false } else b.endpoint id' := by
  split
  · rename_i hid
    subst hid
    rw [isConnected, Bool.not_eq_true] at h
    rw [← h]
  · rfl

theorem endpoint_disconnect (b : Broker L W) (id id' : Nat) : (b.disconnect id).2.endpoint id' =
    if id = id' then { b.endpoint id' with connected := false } else b.endpoint id' := by
  unfold disconnect
  split
  · exact endpoint_takeOff b id id'
  · rename_i hoff
    exact endpoint_eq_of_not_isConnected hoff id'

theorem endpoint_lose (b : Broker L W) (id : Nat) (cause : String) (id' : Nat) : (b.lose id cause).2.endpoint id' =
    if id = id' then { b.endpoint id' with connected := false } else b.endpoint id' := by
  unfold lose
  split
  · exact endpoint_takeOff b id id'
  · rename_i hoff
    exact endpoint_eq_of_not_isConnected hoff id'

/-- All that a step can do to an endpoint. -/
theorem endpoint_perform_cases (b : Broker L W) (step : BrokerStep L W) (id : Nat) :
    (∃ connected, (b.perform step).2.endpoint id = { b.endpoint id with connected := connected }) ∨
    (∃ listener, step = .setListener id listener ∧
      (b.perform step).2.endpoint id = { b.endpoint id with listener := some listener }) ∨
    (∃ watcher, step = .watch id watcher ∧
      (b.perform step).2.endpoint id = { b.endpoint id with watchers := (b.endpoint id).watchers ++ [watcher] }) ∨
    (∃ filters, step = .subscribe id filters ∧ (b.perform step).2.endpoint id = (b.endpoint id).addFilters filters) ∨
    ∃ filters, step = .unsubscribe id filters ∧
      (b.perform step).2.endpoint id = (b.endpoint id).removeFilters filters := by
  have hsame : ∀ {e : Endpoint L W}, e = b.endpoint id →
      ∃ connected, e = { b.endpoint id with connected := connected } :=
    fun he => ⟨_, he⟩
  have hupdate : ∀ (id' : Nat) (f : Endpoint L W → Endpoint L W),
      (b.update id' f).endpoint id = b.endpoint id ∨ id' = id ∧ (b.update id' f).endpoint id = f (b.endpoint id) := by
    intro id' f
    rw [Sound.endpoint_update]
    split
    · rename_i hid
      exact .inr ⟨hid.1, rfl⟩
    · exact .inl rfl
  cases step with
  | create => exact .inl (hsame (Sound.endpoint_create b id))
  | setListener id' listener =>
    rcases hupdate id' fun e => { e with listener := some listener } with hother | ⟨rfl, hset⟩
    · exact .inl (hsame hother)
    · exact .inr (.inl ⟨listener, rfl, hset⟩)
  | watch id' watcher =>
    rcases hupdate id' fun e => { e with watchers := e.watchers ++ [watcher] } with hother | ⟨rfl, hset⟩
    · exact .inl (hsame hother)
    · exact .inr (.inr (.inl ⟨watcher, rfl, hset⟩))
  | connect id' =>
    refine .inl ?_
    rw [show (b.perform (.connect id')).2 = (b.connect id').2 from rfl, endpoint_connect]
    split
    · exact ⟨true, rfl⟩
    · exact hsame rfl
  | disconnect id' =>
    refine .inl ?_
    rw [show (b.perform (.disconnect id')).2 = (b.disconnect id').2 from rfl, endpoint_disconnect]
    split
    · exact ⟨false, rfl⟩
    · exact hsame rfl
  | lose id' cause =>
    refine .inl ?_
    rw [show (b.perform (.lose id' cause)).2 = (b.lose id' cause).2 from rfl, endpoint_lose]
    split
    · exact ⟨false, rfl⟩
    · exact hsame rfl
  | subscribe id' filters =>
    rw [perform_subscribe]
    split
    · rcases hupdate id' (·.addFilters filters) with hother | ⟨rfl, hset⟩
      · exact .inl (hsame hother)
      · exact .inr (.inr (.inr (.inl ⟨filters, rfl, hset⟩)))
    · exact .inl (hsame rfl)
  | unsubscribe id' filters =>
    rw [perform_unsubscribe]
    split
    · rcases hupdate id' (·.removeFilters filters) with hother | ⟨rfl, hset⟩
      · exact .inl (hsame hother)
      · exact .inr (.inr (.inr (.inr ⟨filters, rfl, hset⟩)))
    · exact .inl (hsame rfl)
  | publish id' topic =>
    rw [perform_publish]
    split <;> exact .inl (hsame rfl)

/-- Endpoints are made one by one, and never taken away. -/
theorem length_endpoints_perform (b : Broker L W) (step : BrokerStep L W) :
    (b.perform step).2.endpoints.length = b.endpoints.length + if step.makes then 1 else 0 := by
  have hupdate : ∀ (id : Nat) (f : Endpoint L W → Endpoint L W),
      (b.update id f).endpoints.length = b.endpoints.length := fun id f => by
    rw [update, List.length_modify]
  cases step with
  | create => exact List.length_append
  | setListener id listener => exact hupdate id _
  | watch id watcher => exact hupdate id _
  | connect id =>
    simp only [perform, connect]
    split
    · rfl
    · exact hupdate id _
  | disconnect id =>
    simp only [perform, disconnect]
    split
    · exact hupdate id _
    · rfl
  | lose id cause =>
    simp only [perform, lose]
    split
    · exact hupdate id _
    · rfl
  | subscribe id filters =>
    rw [perform_subscribe]
    split
    · exact hupdate id _
    · rfl
  | unsubscribe id filters =>
    rw [perform_unsubscribe]
    split
    · exact hupdate id _
    · rfl
  | publish id topic =>
    rw [perform_publish]
    split <;> rfl

theorem le_length_endpoints_perform (b : Broker L W) (step : BrokerStep L W) :
    b.endpoints.length ≤ (b.perform step).2.endpoints.length := by
  rw [length_endpoints_perform]
  exact Nat.le_add_right _ _

/-! ### Filters -/

theorem mem_filters_addFilters {e : Endpoint L W} {filters : List String} {filter : String} :
    filter ∈ (e.addFilters filters).filters ↔ filter ∈ e.filters ∨ filter ∈ filters := by
  unfold Endpoint.addFilters
  simp only
  induction filters generalizing e with
  | nil => simp
  | cons first filters ih =>
    have hfirst : filter ∈ (if e.filters.contains first then e.filters else e.filters ++ [first]) ↔
        filter ∈ e.filters ∨ filter = first := by
      split
      · rename_i hold
        have hmem : first ∈ e.filters := List.contains_iff_mem.1 hold
        exact ⟨.inl, Or.rec id fun heq => heq ▸ hmem⟩
      · simp
    have hrest := ih (e := { e with filters := if e.filters.contains first then e.filters else e.filters ++ [first] })
    rw [List.foldl_cons, hrest, hfirst, List.mem_cons, or_assoc]

theorem nodup_filters_addFilters {e : Endpoint L W} (h : e.filters.Nodup) (filters : List String) :
    (e.addFilters filters).filters.Nodup := by
  unfold Endpoint.addFilters
  simp only
  induction filters generalizing e with
  | nil => exact h
  | cons first filters ih =>
    refine ih (e := { e with filters := if e.filters.contains first then e.filters else e.filters ++ [first] }) ?_
    simp only
    split
    · exact h
    · rename_i hnew
      have hnot : first ∉ e.filters := fun hmem => hnew (List.contains_iff_mem.2 hmem)
      rw [← List.concat_eq_append]
      exact List.Nodup.concat hnot h

theorem mem_filters_removeFilters {e : Endpoint L W} {filters : List String} {filter : String} :
    filter ∈ (e.removeFilters filters).filters ↔ filter ∈ e.filters ∧ filter ∉ filters := by
  simp [Endpoint.removeFilters]

/-- A step that neither subscribes nor unsubscribes leaves all filters alone. -/
theorem filters_perform_of_ne (b : Broker L W) {step : BrokerStep L W} {id : Nat}
    (hsub : ∀ filters, step ≠ .subscribe id filters) (hunsub : ∀ filters, step ≠ .unsubscribe id filters) :
    ((b.perform step).2.endpoint id).filters = (b.endpoint id).filters := by
  rcases endpoint_perform_cases b step id with ⟨_, he⟩ | ⟨_, -, he⟩ | ⟨_, -, he⟩ | ⟨filters, hstep, -⟩ |
    ⟨filters, hstep, -⟩
  · rw [he]
  · rw [he]
  · rw [he]
  · exact absurd hstep (hsub filters)
  · exact absurd hstep (hunsub filters)

/-- After a step an endpoint has the filters that it adds, and those it had before that it does not drop. -/
theorem mem_filters_perform (b : Broker L W) (step : BrokerStep L W) (id : Nat) (filter : String) :
    filter ∈ ((b.perform step).2.endpoint id).filters ↔
      BrokerRecord.Adds (step, (b.perform step).1) id filter ∨
        filter ∈ (b.endpoint id).filters ∧ ¬BrokerRecord.Drops (step, (b.perform step).1) id filter := by
  cases step with
  | subscribe id' filters =>
    have hdrops : ¬BrokerRecord.Drops (.subscribe id' filters, (b.perform (.subscribe id' filters)).1) id filter :=
      fun ⟨_, _, heq, _⟩ => nomatch heq
    rw [and_iff_left hdrops, BrokerRecord.Adds, perform_subscribe]
    by_cases hconnected : b.isConnected id' = true
    · have hlt := lt_length_of_isConnected hconnected
      rw [if_pos hconnected, Sound.endpoint_update]
      by_cases hid : id' = id
      · subst hid
        simp [hlt, mem_filters_addFilters, BrokerOutcome.telling, or_comm]
      · simp [hid]
    · rw [if_neg hconnected]
      simp [BrokerOutcome.refused]
  | unsubscribe id' filters =>
    have hadds : ¬BrokerRecord.Adds (.unsubscribe id' filters, (b.perform (.unsubscribe id' filters)).1) id filter :=
      fun ⟨_, _, heq, _⟩ => nomatch heq
    rw [or_iff_right hadds, BrokerRecord.Drops, perform_unsubscribe]
    by_cases hconnected : b.isConnected id' = true
    · have hlt := lt_length_of_isConnected hconnected
      rw [if_pos hconnected, Sound.endpoint_update]
      by_cases hid : id' = id
      · subst hid
        simp [hlt, mem_filters_removeFilters, BrokerOutcome.telling]
      · simp [hid]
    · rw [if_neg hconnected]
      simp [BrokerOutcome.refused]
  | create | setListener _ _ | watch _ _ | connect _ | disconnect _ | lose _ _ | publish _ _ =>
    rw [filters_perform_of_ne b (by simp) (by simp)]
    simp [BrokerRecord.Adds, BrokerRecord.Drops]

theorem nodup_filters_perform (b : Broker L W) (step : BrokerStep L W) {id : Nat}
    (h : (b.endpoint id).filters.Nodup) :
    ((b.perform step).2.endpoint id).filters.Nodup := by
  rcases endpoint_perform_cases b step id with ⟨_, he⟩ | ⟨_, -, he⟩ | ⟨_, -, he⟩ | ⟨filters, -, he⟩ |
    ⟨filters, -, he⟩ <;> rw [he]
  · exact h
  · exact h
  · exact h
  · exact nodup_filters_addFilters h filters
  · exact h.filter _

/-! ### Connections -/

theorem isConnected_update (b : Broker L W) (id : Nat) {f : Endpoint L W → Endpoint L W}
    (hf : ∀ e, (f e).connected = e.connected) (id' : Nat) : (b.update id f).isConnected id' = b.isConnected id' := by
  unfold isConnected
  rw [Sound.endpoint_update]
  split
  · exact hf _
  · rfl

theorem isConnected_takeOff (b : Broker L W) (id id' : Nat) :
    (b.takeOff id).isConnected id' = if id = id' then false else b.isConnected id' := by
  unfold isConnected
  rw [endpoint_takeOff]
  split <;> rfl

/-- A step that neither connects nor disconnects an endpoint, nor breaks its connection, leaves the connection
alone. -/
theorem isConnected_perform_of_ne (b : Broker L W) {step : BrokerStep L W} {id : Nat} (hconnect : step ≠ .connect id)
    (hdisconnect : step ≠ .disconnect id) (hlose : ∀ cause, step ≠ .lose id cause) :
    (b.perform step).2.isConnected id = b.isConnected id := by
  cases step with
  | create => exact congrArg Endpoint.connected (Sound.endpoint_create b id)
  | setListener id' listener =>
    refine isConnected_update b id' (fun _ => ?_) id
    rfl
  | watch id' watcher =>
    refine isConnected_update b id' (fun _ => ?_) id
    rfl
  | connect id' =>
    refine congrArg Endpoint.connected ((endpoint_connect b id' id).trans (if_neg fun h => hconnect ?_))
    rw [h.1]
  | disconnect id' =>
    refine congrArg Endpoint.connected ((endpoint_disconnect b id' id).trans (if_neg fun h => hdisconnect ?_))
    rw [h]
  | lose id' cause =>
    refine congrArg Endpoint.connected ((endpoint_lose b id' cause id).trans (if_neg fun h => hlose cause ?_))
    rw [h]
  | subscribe id' filters =>
    rw [perform_subscribe]
    split
    · refine isConnected_update b id' (fun _ => ?_) id
      rfl
    · rfl
  | unsubscribe id' filters =>
    rw [perform_unsubscribe]
    split
    · refine isConnected_update b id' (fun _ => ?_) id
      rfl
    · rfl
  | publish id' topic =>
    rw [perform_publish]
    split <;> rfl

/-- After a step an endpoint is connected if the step connects it, and if it was connected before and the step does
not disconnect it or break its connection. -/
theorem isConnected_perform (b : Broker L W) (step : BrokerStep L W) (id : Nat) :
    (b.perform step).2.isConnected id = true ↔ (step = .connect id ∧ id < b.endpoints.length) ∨
      b.isConnected id = true ∧ ¬step.Parts id := by
  by_cases hconnect : step = .connect id
  · subst hconnect
    have hparts : ¬BrokerStep.Parts id (.connect id : BrokerStep L W) := by simp [BrokerStep.Parts]
    have hafter := congrArg Endpoint.connected (endpoint_connect b id id)
    change (b.perform (.connect id)).2.isConnected id = _ at hafter
    rw [hafter, and_iff_left hparts]
    by_cases hmade : id < b.endpoints.length
    · simp [hmade]
    · simp [hmade, isConnected]
  · rw [or_iff_right fun h => hconnect h.1]
    by_cases hparts : step.Parts id
    · have hoff : (b.perform step).2.isConnected id = false := by
        rcases hparts with rfl | ⟨cause, rfl⟩
        · exact congrArg Endpoint.connected ((endpoint_disconnect b id id).trans (if_pos rfl))
        · exact congrArg Endpoint.connected ((endpoint_lose b id cause id).trans (if_pos rfl))
      simp [hoff, hparts]
    · have hkeeps := not_or.1 hparts
      rw [isConnected_perform_of_ne b hconnect hkeeps.1 fun cause h => hkeeps.2 ⟨cause, h⟩, and_iff_left hparts]

/-- What a step does to connections: it leaves all as they are, and nobody is told anything; or it makes or ends the
connection of one endpoint, which each watcher of this endpoint is told. -/
theorem told_perform_cases (b : Broker L W) (step : BrokerStep L W) :
    ((b.perform step).1.told = [] ∧ ∀ id, (b.perform step).2.isConnected id = b.isConnected id) ∨
    ∃ id event, (b.perform step).1.told = b.tell id event ∧ id < b.endpoints.length ∧
      (event = .established → step = .connect id) ∧ (b.isConnected id = true ↔ event ≠ .established) ∧
      ∀ id', (b.perform step).2.isConnected id' =
        if id = id' then decide (event = .established) else b.isConnected id' := by
  cases step with
  | create | setListener _ _ | watch _ _ =>
    exact .inl ⟨rfl, fun _ => isConnected_perform_of_ne b (by simp) (by simp) (by simp)⟩
  | connect id =>
    simp only [perform, connect]
    split
    · exact .inl ⟨rfl, fun _ => rfl⟩
    · rename_i hnew
      rw [not_or, Nat.not_le, Bool.not_eq_true] at hnew
      refine .inr ⟨id, .established, ?_, hnew.2, fun _ => rfl, by simp [hnew.1], fun id' => ?_⟩
      · simp only [BrokerOutcome.telling, tell, Sound.endpoint_update]
        rw [if_pos ⟨trivial, hnew.2⟩]
      · change ((b.update id fun e => { e with connected := true }).endpoint id').connected = _
        rw [Sound.endpoint_update]
        by_cases hid : id = id'
        · subst hid
          simp [hnew.2]
        · simp [hid, isConnected]
  | disconnect id =>
    simp only [perform, disconnect]
    split
    · rename_i hon
      exact .inr ⟨id, .disconnecting, rfl, lt_length_of_isConnected hon, by simp, by simp [hon],
        isConnected_takeOff b id⟩
    · exact .inl ⟨rfl, fun _ => rfl⟩
  | lose id cause =>
    simp only [perform, lose]
    split
    · rename_i hon
      exact .inr ⟨id, .lost cause, rfl, lt_length_of_isConnected hon, by simp, by simp [hon],
        isConnected_takeOff b id⟩
    · exact .inl ⟨rfl, fun _ => rfl⟩
  | subscribe _ _ | unsubscribe _ _ | publish _ _ =>
    refine .inl ⟨?_, fun _ => isConnected_perform_of_ne b (by simp) (by simp) (by simp)⟩
    simp only [perform_subscribe, perform_unsubscribe, perform_publish]
    split <;> rfl

/-! ### Watchers and listeners -/

/-- Only by a step for this purpose does a watcher come to an endpoint. -/
theorem watchers_perform_cases (b : Broker L W) (step : BrokerStep L W) (id : Nat) :
    ((b.perform step).2.endpoint id).watchers = (b.endpoint id).watchers ∨
      ∃ watcher, step = .watch id watcher ∧
        ((b.perform step).2.endpoint id).watchers = (b.endpoint id).watchers ++ [watcher] := by
  rcases endpoint_perform_cases b step id with
    ⟨_, he⟩ | ⟨_, -, he⟩ | ⟨watcher, hstep, he⟩ | ⟨_, -, he⟩ | ⟨_, -, he⟩ <;> rw [he]
  · exact .inl rfl
  · exact .inl rfl
  · exact .inr ⟨watcher, hstep, rfl⟩
  · exact .inl rfl
  · exact .inl rfl

/-- Only by a step for this purpose does an endpoint get another listener. -/
theorem listener_perform_cases (b : Broker L W) (step : BrokerStep L W) (id : Nat) :
    ((b.perform step).2.endpoint id).listener = (b.endpoint id).listener ∨
      ∃ listener, step = .setListener id listener ∧ ((b.perform step).2.endpoint id).listener = some listener := by
  rcases endpoint_perform_cases b step id with
    ⟨_, he⟩ | ⟨listener, hstep, he⟩ | ⟨_, -, he⟩ | ⟨_, -, he⟩ | ⟨_, -, he⟩ <;> rw [he]
  · exact .inl rfl
  · exact .inr ⟨listener, hstep, rfl⟩
  · exact .inl rfl
  · exact .inl rfl
  · exact .inl rfl

/-- After a step an endpoint has the listener that the step gives it, or the one that it had before. -/
theorem listener_perform (b : Broker L W) (step : BrokerStep L W) (id : Nat) (listener : L) :
    ((b.perform step).2.endpoint id).listener = some listener ↔
      (step = .setListener id listener ∧ id < b.endpoints.length) ∨
        (b.endpoint id).listener = some listener ∧ ¬∃ other, step = .setListener id other := by
  by_cases hset : ∃ other, step = .setListener id other
  · obtain ⟨other, rfl⟩ := hset
    have hafter := congrArg Endpoint.listener (endpoint_setListener b id other id)
    change ((b.perform (.setListener id other)).2.endpoint id).listener = _ at hafter
    rw [hafter]
    by_cases hmade : id < b.endpoints.length
    · simp [hmade]
    · simp [hmade, endpoint_of_length_le (Nat.not_lt.1 hmade), Endpoint.fresh]
  · rw [and_iff_left hset, or_iff_right fun h => hset ⟨listener, h.1⟩]
    rcases listener_perform_cases b step id with hkept | ⟨other, hstep, -⟩
    · rw [hkept]
    · exact absurd ⟨other, hstep⟩ hset

theorem notMem_watchers_perform {step : BrokerStep L W} {id : Nat} {watcher : W} (hstep : step ≠ .watch id watcher)
    (h : watcher ∉ (b.endpoint id).watchers) : watcher ∉ ((b.perform step).2.endpoint id).watchers := by
  rcases watchers_perform_cases b step id with hw | ⟨watcher', rfl, hw⟩
  · rwa [hw]
  · rw [hw, List.mem_append, List.mem_singleton]
    rintro (hmem | rfl)
    · exact h hmem
    · exact hstep rfl

end Broker

end Switchboard
