import Switchboard.Proofs.Request.Ends
import Switchboard.Proofs.Request.Sending

/-!
# How requests settle

In a run in which no id is used twice, a request that was sent waits until the clock reaches its time, and then it
settles, once and for all (`Bus.settles_once`). It settles with the replies to it that came in since it was handed to
the line, in their order: none is lost, none is counted twice, and none belongs to another request.

The proof follows a run step by step. Between steps the books are in order and each open request has its timer
(`Bus.Running`); a step that does not move the clock lets the requests count what comes in (`Bus.Continued`), and a
move of the clock ends some of them (`Bus.Ended`).
-/

namespace Switchboard

variable {i : Identity} {past : List CorrelationId} {b : Bus} {c c' : Client}

namespace Bus

/-- A requester between two steps. -/
structure Running (i : Identity) (past : List CorrelationId) (b : Bus) (c : Client) : Prop where
  clients : b.clients = [c]
  books : Books i past c
  timed : Timed b.timers c.requests
  untold : ∀ k, c.requests.length ≤ k → b.repliesTold k = []

theorem running_withRequester (i : Identity) (encoders : EncoderPool) (refusing : Bool) (room : Nat) :
    Running i [] (withRequester i encoders refusing room) (.of i encoders (.tape refusing)) where
  clients := rfl
  books := .fresh i encoders refusing
  timed := ⟨by simp [withRequester, empty], List.nodup_nil, by simp [withRequester, empty, Client.of]⟩
  untold _ _ := rfl

/-! ### Steps -/

/-- The requests go on: they count the replies among some arrivals, and nothing else becomes of them. -/
structure Continued (i : Identity) (past : List CorrelationId) (c : Client) (l : List Arrival) (b b' : Bus) :
    Prop where
  running : ∃ c' : Client, Running i past b' c' ∧
    ∀ (k : Nat) (r : Request), c.requests[k]? = some r → c'.requests[k]? = some (l.foldl (Request.hear i) r)
  timers : ∀ t ∈ b.timers, t ∈ b'.timers
  clock : b'.clock = b.clock
  told : ∀ k, b'.repliesTold k = b.repliesTold k

theorem foldl_hear_outcome (owner : Identity) (l : List Arrival) (r : Request) :
    (l.foldl (Request.hear owner) r).outcome = r.outcome := by
  cases ho : r.outcome with
  | none => exact (Request.foldl_hear owner ho l).1
  | some o => rw [Request.foldl_hear_of_ended ho, ho]

theorem Kept.continued {b' : Bus} {l : List Arrival} (h : Kept i past c l b b') (htimed : Timed b.timers c.requests)
    (huntold : ∀ k, c.requests.length ≤ k → b.repliesTold k = []) : Continued i past c l b b' := by
  obtain ⟨c', hc', hbooks, hrequests⟩ := h.clients
  have htimed' : Timed b'.timers c'.requests := by
    rw [h.timers]
    refine ⟨htimed.client, htimed.distinct, fun k => ?_⟩
    rw [htimed.waiting, hrequests, List.getElem?_map]
    cases c.requests[k]? <;> simp [foldl_hear_outcome]
  refine ⟨⟨c', ⟨hc', hbooks, htimed', fun k hk => ?_⟩, fun k r hr => ?_⟩, fun t ht => h.timers ▸ ht, h.clock, h.told⟩
  · rw [hrequests, List.length_map] at hk
    exact (h.told k).trans (huntold k hk)
  · simp [hrequests, hr]

theorem Sent.timed {b' : Bus} {p : RequestPlan} {r : Request} (h : Sent i past c p b b')
    (htimed : Timed b.timers c.requests) (ho : r.outcome = none) :
    Timed b'.timers ((c.requests.map fun r => p.meanwhile.foldl (Request.hear i) r) ++ [r]) := by
  have hlength : (c.requests.map fun r => p.meanwhile.foldl (Request.hear i) r).length = c.requests.length :=
    List.length_map _
  have hnew : ∀ k ∈ b.timers.map (·.request), k < c.requests.length := fun k hk => by
    obtain ⟨r, hr, -⟩ := (htimed.waiting k).1 hk
    exact (List.getElem?_eq_some_iff.1 hr).1
  rw [h.timers]
  refine ⟨fun t ht => ?_, ?_, fun k => ?_⟩
  · rcases List.mem_append.1 ht with ht | ht
    · exact htimed.client t ht
    · rw [List.mem_singleton.1 ht]
  · rw [List.map_append, List.nodup_append]
    refine ⟨htimed.distinct, List.nodup_singleton _, fun k hk j hj => ?_⟩
    obtain rfl : j = c.requests.length := List.mem_singleton.1 hj
    exact Nat.ne_of_lt (hnew k hk)
  · rw [List.map_append, List.mem_append, List.map_singleton, List.mem_singleton]
    -- a request from before, the new one, or none
    rcases Nat.lt_trichotomy k c.requests.length with hk | rfl | hk
    · rw [List.getElem?_append_left (hlength ▸ hk), List.getElem?_map, htimed.waiting]
      cases c.requests[k]? <;> simp [foldl_hear_outcome, Nat.ne_of_lt hk]
    · rw [← hlength, List.getElem?_concat_length]
      simp [ho]
    · rw [List.getElem?_eq_none (by simp; omega)]
      refine ⟨fun hor => ?_, by simp⟩
      rcases hor with hmem | rfl
      · exact absurd (hnew k hmem) (Nat.not_lt_of_gt hk)
      · exact absurd hk (Nat.lt_irrefl _)

theorem Sent.continued {b' : Bus} {p : RequestPlan} (h : Sent i past c p b b') (htimed : Timed b.timers c.requests)
    (huntold : ∀ k, c.requests.length ≤ k → b.repliesTold k = []) : Continued i past c p.meanwhile b b' := by
  obtain ⟨c', r, hc', hbooks, hrequests, ho, -, -, -⟩ := h.clients
  refine ⟨⟨c', ⟨hc', hbooks, hrequests ▸ h.timed htimed ho, fun k hk => ?_⟩, fun k r' hr' => ?_⟩,
    fun t ht => h.timers ▸ List.mem_append_left _ ht, h.clock, h.told⟩
  · rw [hrequests, List.length_append, List.length_map] at hk
    exact (h.told k).trans (huntold k (Nat.le_trans (Nat.le_add_right _ _) hk))
  · have hlt : k < (c.requests.map fun r => p.meanwhile.foldl (Request.hear i) r).length := by
      rw [List.length_map]
      exact (List.getElem?_eq_some_iff.1 hr').1
    rw [hrequests, List.getElem?_append_left hlt, List.getElem?_map, hr', Option.map_some]

/-- What a step does that does not move the clock. -/
theorem Running.continued (h : Running i past b c) {s : RequesterStep} (hid : ∀ id ∈ s.id?, id ∉ past)
    (hs : ∀ ms, s ≠ .advance ms) : Continued i (s.id?.toList ++ past) c (b.arrivals s) b (b.take s) := by
  obtain ⟨hc, hbooks, htimed, huntold⟩ := h
  cases s with
  | send p =>
    rcases send_cases hc hbooks (hid p.id rfl) with ⟨e, -, hkept⟩ | ⟨hok, hsent⟩
    · exact hkept.continued htimed huntold
    · have harrivals : b.arrivals (.send p) = p.meanwhile := by simp only [arrivals, hok]
      rw [harrivals]
      exact hsent.continued htimed huntold
  | arrive a => exact (kept_arrive hc hbooks a).continued htimed huntold
  | advance ms => exact absurd rfl (hs ms)
  | register subject handler => exact (kept_attachTo hc hbooks fun _ => Route.noConfusion).continued htimed huntold
  | unregister subject name => exact (kept_detachFrom hc hbooks subject fun _ => rfl).continued htimed huntold
  | listen subject handler => exact (kept_attachTo hc hbooks fun _ => Route.noConfusion).continued htimed huntold
  | unlisten subject name => exact (kept_detachFrom hc hbooks subject fun _ => rfl).continued htimed huntold

/-- What a move of the clock does. -/
theorem Running.advance (h : Running i past b c) (ms : Nat) :
    ∃ c' : Client, Running i past (b.advance ms) c' ∧ (b.advance ms).clock = b.clock + ms ∧
      (b.advance ms).timers = b.timers.filter (b.clock + ms < ·.due) ∧
      ∀ (k : Nat) (r : Request), c.requests[k]? = some r →
        (¬ b.IsOver (b.clock + ms) k → c'.requests[k]? = some r ∧ (b.advance ms).repliesTold k = b.repliesTold k) ∧
        (b.IsOver (b.clock + ms) k → c'.requests[k]? = some r.ended ∧
          (b.advance ms).repliesTold k = b.repliesTold k ++ [r.collector.replies]) := by
  obtain ⟨hc, hbooks, htimed, huntold⟩ := h
  have hended := ended_advance hc hbooks htimed ms
  obtain ⟨c', hc', hbooks', hrequests⟩ := hended.clients
  have hover : ∀ k, k ∈ ({ b with clock := b.clock + ms } : Bus).due.map (·.request) ↔ b.IsOver (b.clock + ms) k :=
    fun k => mem_requests_due (b := { b with clock := b.clock + ms })
  have hbeyond : ∀ k, c'.requests.length ≤ k → c.requests.length ≤ k := fun k hk => by
    rw [← List.getElem?_eq_none_iff, hrequests, Option.map_eq_none_iff] at hk
    exact List.getElem?_eq_none_iff.1 hk
  refine ⟨c', ⟨hc', hbooks', hended.timers ▸ timed_advance htimed hrequests, fun k hk => ?_⟩, hended.clock,
    hended.timers, fun k r hr => ?_⟩
  · have hnot : k ∉ ({ b with clock := b.clock + ms } : Bus).due.map (·.request) := fun hmem => by
      obtain ⟨t, ht, hserial, -⟩ := (hover k).1 hmem
      obtain ⟨r, hr, -⟩ := (htimed.waiting k).1 (List.mem_map.2 ⟨t, ht, hserial⟩)
      exact absurd (List.getElem?_eq_some_iff.1 hr).1 (Nat.not_lt_of_le (hbeyond k hk))
    exact (hended.others k hnot).trans (huntold k (hbeyond k hk))
  · have hk := hrequests k
    rw [hr, Option.map_some] at hk
    refine ⟨fun hnot => ?_, fun his => ?_⟩
    · rw [if_neg fun hmem => hnot ((hover k).1 hmem)] at hk
      exact ⟨hk, hended.others k fun hmem => hnot ((hover k).1 hmem)⟩
    · rw [if_pos ((hover k).2 his)] at hk
      exact ⟨hk, hended.told k ((hover k).2 his) r hr⟩

/-- A requester runs on. -/
theorem Running.take (h : Running i past b c) {s : RequesterStep} (hid : ∀ id ∈ s.id?, id ∉ past) :
    ∃ c', Running i (s.id?.toList ++ past) (b.take s) c' := by
  cases s with
  | advance ms =>
    obtain ⟨c', hrunning, -⟩ := h.advance ms
    exact ⟨c', hrunning⟩
  | _ =>
    obtain ⟨c', hrunning, -⟩ := (h.continued hid fun _ => RequesterStep.noConfusion).running
    exact ⟨c', hrunning⟩

end Bus

/-! ### Ids -/

namespace RequesterStep

/-- The ids of some steps are new: none is used twice, and none was used before. -/
def Fresh (past : List CorrelationId) (steps : List RequesterStep) : Prop :=
  (ids steps).Nodup ∧ ∀ id ∈ ids steps, id ∉ past

theorem ids_cons (s : RequesterStep) (r : List RequesterStep) : ids (s :: r) = s.id?.toList ++ ids r := by
  cases h : s.id? <;> simp [ids, h]

theorem ids_append (l r : List RequesterStep) : ids (l ++ r) = ids l ++ ids r := List.filterMap_append

theorem Fresh.head {s : RequesterStep} {r : List RequesterStep} (h : Fresh past (s :: r)) :
    ∀ id ∈ s.id?, id ∉ past := fun id hid =>
  h.2 id (by rw [ids_cons]; exact List.mem_append_left _ (Option.mem_toList.2 hid))

theorem Fresh.tail {s : RequesterStep} {r : List RequesterStep} (h : Fresh past (s :: r)) :
    Fresh (s.id?.toList ++ past) r := by
  obtain ⟨hnodup, hpast⟩ := h
  rw [ids_cons, List.nodup_append] at hnodup
  refine ⟨hnodup.2.1, fun id hid hmem => ?_⟩
  rcases List.mem_append.1 hmem with hmem | hmem
  · exact hnodup.2.2 id hmem id hid rfl
  · exact hpast id (by rw [ids_cons]; exact List.mem_append_right _ hid) hmem

theorem before_cons {s : RequesterStep} (hs : ∀ ms, s ≠ advance ms) (due clock : Nat) (r : List RequesterStep) :
    before due clock (s :: r) = s :: before due clock r := by
  cases s with
  | advance ms => exact absurd rfl (hs ms)
  | _ => rfl

theorem reaches_cons {s : RequesterStep} (hs : ∀ ms, s ≠ advance ms) (due clock : Nat) (r : List RequesterStep) :
    reaches due clock (s :: r) = reaches due clock r := by
  cases s with
  | advance ms => exact absurd rfl (hs ms)
  | _ => rfl

end RequesterStep

/-! ### One request in a run -/

/-- What becomes of a request that has these replies when its time is over. -/
def RequestPlan.outcome (p : RequestPlan) (l : List Packet) : RequestOutcome :=
  ⟨p.id, l, p.expected, if p.expected.satisfiedBy l.length then .complete else .countMismatch⟩

theorem RequestPlan.completion_outcome (p : RequestPlan) (l : List Packet) :
    (p.outcome l).completion = .countMismatch ↔ ∃ n, p.expected = .exactly n ∧ n ≠ l.length := by
  cases he : p.expected with
  | exactly n => simp [outcome, he, ExpectedReplies.satisfiedBy]
  | unlimited => simp [outcome, he, ExpectedReplies.satisfiedBy]

namespace Bus

/-- Nothing has come of a request yet. -/
structure Waiting (b : Bus) (serial : Nat) : Prop where
  outcome : b.outcome? serial = none
  phase : ∀ completion, b.phase? serial ≠ some (.detached completion)
  told : b.repliesTold serial = []

/-- A request is finished: its sender was told the replies, and that once. -/
structure Settled (b : Bus) (serial : Nat) (o : RequestOutcome) : Prop where
  outcome : b.outcome? serial = some o
  phase : b.phase? serial = some (.detached o.completion)
  told : b.repliesTold serial = [o.replies]

/-- A request that is open, with its timer and the replies that it has counted. -/
structure UnderWay (p : RequestPlan) (serial due : Nat) (l : List Packet) (b : Bus) (c : Client) : Prop where
  request : ∃ r, c.requests[serial]? = some r ∧ r.outcome = none ∧ r.collector.id = p.id ∧
    r.collector.expected = p.expected ∧ r.collector.replies = l
  timer : ∃ t ∈ b.timers, t.request = serial ∧ t.due = due
  told : b.repliesTold serial = []

variable {p : RequestPlan} {serial due : Nat} {l : List Packet} {o : RequestOutcome}

theorem UnderWay.waiting (h : UnderWay p serial due l b c) (hrunning : Running i past b c) : b.Waiting serial := by
  obtain ⟨r, hr, ho, -⟩ := h.request
  have hopen : r.collector.isClosed = false := by rw [hrunning.books.closed r (List.mem_of_getElem? hr), ho]; rfl
  refine ⟨?_, fun completion => ?_, h.told⟩
  · simp [outcome?, request?_of_clients hrunning.clients, hr, ho]
  · intro hphase
    have hdetached : r.collector.phase = .detached completion := by
      simpa [phase?, request?_of_clients hrunning.clients, hr] using hphase
    simp [ReplyCollector.isClosed, hdetached] at hopen

/-- The time of a request that is under way is over when it is due. -/
theorem UnderWay.isOver_iff (h : UnderWay p serial due l b c) (hrunning : Running i past b c) (time : Nat) :
    b.IsOver time serial ↔ due ≤ time := by
  obtain ⟨t, ht, hserial, rfl⟩ := h.timer
  constructor
  · rintro ⟨t', ht', hserial', hdue⟩
    obtain rfl : t' = t := List.inj_on_of_nodup_map hrunning.timed.distinct ht' ht (hserial'.trans hserial.symm)
    exact hdue
  · exact fun hdue => ⟨t, ht, hserial, hdue⟩

theorem UnderWay.continued {b' : Bus} {arrived : List Arrival} (h : UnderWay p serial due l b c)
    (hcontinued : Continued i past c arrived b b') :
    ∃ c', Running i past b' c' ∧ UnderWay p serial due (l ++ repliesTo i p.id arrived) b' c' := by
  obtain ⟨c', hrunning, hrequests⟩ := hcontinued.running
  obtain ⟨r, hr, ho, hid, hexpected, hreplies⟩ := h.request
  obtain ⟨t, ht, htimer⟩ := h.timer
  have heard := Request.foldl_hear i ho arrived
  rw [hid, hexpected, hreplies] at heard
  exact ⟨c', hrunning, ⟨_, hrequests serial r hr, heard⟩, ⟨t, hcontinued.timers t ht, htimer⟩,
    (hcontinued.told serial).trans h.told⟩

/-- Until it is due, a move of the clock leaves a request as it is. -/
theorem UnderWay.advance (h : UnderWay p serial due l b c) (hrunning : Running i past b c) {ms : Nat}
    (hdue : b.clock + ms < due) :
    ∃ c', Running i past (b.advance ms) c' ∧ UnderWay p serial due l (b.advance ms) c' := by
  obtain ⟨c', hrunning', -, htimers, hrequests⟩ := hrunning.advance ms
  obtain ⟨r, hr, hrequest⟩ := h.request
  obtain ⟨t, ht, hserial, htdue⟩ := h.timer
  have hnot : ¬ b.IsOver (b.clock + ms) serial := by
    rw [h.isOver_iff hrunning]
    exact Nat.not_le_of_gt hdue
  obtain ⟨hkept, htold⟩ := (hrequests serial r hr).1 hnot
  refine ⟨c', hrunning', ⟨r, hkept, hrequest⟩, ⟨t, ?_, hserial, htdue⟩, htold.trans h.told⟩
  rw [htimers, List.mem_filter, htdue]
  exact ⟨ht, decide_eq_true hdue⟩

/-- When it is due, a request settles. -/
theorem UnderWay.settled (h : UnderWay p serial due l b c) (hrunning : Running i past b c) {ms : Nat}
    (hdue : due ≤ b.clock + ms) :
    (∃ c', Running i past (b.advance ms) c') ∧ (b.advance ms).Settled serial (p.outcome l) := by
  obtain ⟨c', hrunning', -, -, hrequests⟩ := hrunning.advance ms
  obtain ⟨r, hr, -, hid, hexpected, hreplies⟩ := h.request
  obtain ⟨hended, htold⟩ := (hrequests serial r hr).2 ((h.isOver_iff hrunning _).2 hdue)
  have houtcome : r.collector.outcome = p.outcome l := by
    simp only [ReplyCollector.outcome, ReplyCollector.completion, RequestPlan.outcome, hid, hexpected, hreplies]
  refine ⟨⟨c', hrunning'⟩, ?_, ?_, ?_⟩
  · simp [outcome?, request?_of_clients hrunning'.clients, hended, Request.ended, houtcome]
  · simp [phase?, request?_of_clients hrunning'.clients, hended, Request.ended, ← houtcome, ReplyCollector.outcome]
  · rw [htold, h.told, hreplies]
    rfl

/-- What is settled stays settled, whatever the next step is. -/
theorem Settled.take (h : b.Settled serial o) (hrunning : Running i past b c) {s : RequesterStep}
    (hid : ∀ id ∈ s.id?, id ∉ past) : (b.take s).Settled serial o := by
  obtain ⟨r, hr, ho⟩ := Option.bind_eq_some_iff.1 h.outcome
  have hphase := h.phase
  simp only [phase?, hr, Option.map_some, Option.some.injEq] at hphase
  rw [request?_of_clients hrunning.clients] at hr
  have hsettled : ∀ {b' c'}, b'.clients = [c'] → c'.requests[serial]? = some r →
      b'.repliesTold serial = b.repliesTold serial → Settled b' serial o := fun hc' hr' htold =>
    ⟨by simp [outcome?, request?_of_clients hc', hr', ho], by simp [phase?, request?_of_clients hc', hr', hphase],
      htold.trans h.told⟩
  by_cases hs : ∃ ms, s = .advance ms
  · obtain ⟨ms, rfl⟩ := hs
    obtain ⟨c', hrunning', -, -, hrequests⟩ := hrunning.advance ms
    -- a request that is over has no timer any more
    have hnot : ¬ b.IsOver (b.clock + ms) serial := by
      rintro ⟨t, ht, hserial, -⟩
      obtain ⟨r', hr', ho'⟩ := (hrunning.timed.waiting serial).1 (List.mem_map.2 ⟨t, ht, hserial⟩)
      rw [hr] at hr'
      cases hr'
      rw [ho] at ho'
      cases ho'
    obtain ⟨hkept, htold⟩ := (hrequests serial r hr).1 hnot
    exact hsettled hrunning'.clients hkept htold
  · have hcontinued := hrunning.continued hid fun ms he => hs ⟨ms, he⟩
    obtain ⟨c', hrunning', hrequests⟩ := hcontinued.running
    have hkept := hrequests serial r hr
    rw [Request.foldl_hear_of_ended ho] at hkept
    exact hsettled hrunning'.clients hkept (hcontinued.told serial)

theorem Settled.run (h : b.Settled serial o) (hrunning : Running i past b c) {steps : List RequesterStep}
    (hfresh : RequesterStep.Fresh past steps) : (b.run steps).Settled serial o := by
  induction steps generalizing b c past with
  | nil => exact h
  | cons s r ih =>
    obtain ⟨c', hrunning'⟩ := hrunning.take hfresh.head
    exact ih (h.take hrunning hfresh.head) hrunning' hfresh.tail

/-- A request that is under way counts its replies until it is due, and then it settles. -/
theorem UnderWay.run (h : UnderWay p serial due l b c) (hrunning : Running i past b c) {steps : List RequesterStep}
    (hfresh : RequesterStep.Fresh past steps) :
    (RequesterStep.reaches due b.clock steps = false → (b.run steps).Waiting serial) ∧
      (RequesterStep.reaches due b.clock steps = true → (b.run steps).Settled serial
        (p.outcome (l ++ repliesTo i p.id (b.arrivalsDuring (RequesterStep.before due b.clock steps))))) := by
  induction steps generalizing b c past l with
  | nil => exact ⟨fun _ => h.waiting hrunning, fun hreaches => Bool.noConfusion hreaches⟩
  | cons s r ih =>
    by_cases hs : ∃ ms, s = .advance ms
    · obtain ⟨ms, rfl⟩ := hs
      have hclock : (b.advance ms).clock = b.clock + ms := (hrunning.advance ms).choose_spec.2.1
      by_cases hdue : due ≤ b.clock + ms
      -- the request settles here, and what comes after does not change that
      · obtain ⟨⟨c', hrunning'⟩, hsettled⟩ := h.settled hrunning hdue
        have hbefore : RequesterStep.before due b.clock (.advance ms :: r) = [] := if_pos hdue
        have hreaches : RequesterStep.reaches due b.clock (.advance ms :: r) = true := by
          simp [RequesterStep.reaches, hdue]
        rw [hbefore, hreaches]
        refine ⟨fun hnot => Bool.noConfusion hnot, fun _ => ?_⟩
        have hfinal : (b.run (.advance ms :: r)).Settled serial (p.outcome l) := hsettled.run hrunning' hfresh.tail
        simpa [arrivalsDuring, repliesTo] using hfinal
      · obtain ⟨c', hrunning', hunder⟩ := h.advance hrunning (Nat.lt_of_not_le hdue)
        have hbefore : RequesterStep.before due b.clock (.advance ms :: r) =
            .advance ms :: RequesterStep.before due (b.advance ms).clock r := by
          rw [hclock]
          exact if_neg hdue
        have hreaches : RequesterStep.reaches due b.clock (.advance ms :: r) =
            RequesterStep.reaches due (b.advance ms).clock r := by
          simp [RequesterStep.reaches, hdue, hclock]
        rw [hbefore, hreaches]
        exact ih hunder hrunning' hfresh.tail
    -- the clock stands still, and the request counts the replies that the step brings
    · have hne : ∀ ms, s ≠ .advance ms := fun ms he => hs ⟨ms, he⟩
      have hcontinued := hrunning.continued hfresh.head hne
      obtain ⟨c', hrunning', hunder⟩ := h.continued hcontinued
      have hrest := ih hunder hrunning' hfresh.tail
      rw [hcontinued.clock] at hrest
      rw [RequesterStep.before_cons hne, RequesterStep.reaches_cons hne]
      refine ⟨hrest.1, fun hreaches => ?_⟩
      have hsettled := hrest.2 hreaches
      rwa [List.append_assoc, repliesTo, repliesTo, ← List.filterMap_append] at hsettled

/-- The requester runs on through any steps. -/
theorem Running.run (h : Running i past b c) {steps : List RequesterStep} (hfresh : RequesterStep.Fresh past steps) :
    ∃ c' past', Running i past' (b.run steps) c' ∧ ∀ id ∈ past', id ∈ RequesterStep.ids steps ∨ id ∈ past := by
  induction steps generalizing b c past with
  | nil => exact ⟨c, past, h, fun _ => .inr⟩
  | cons s r ih =>
    obtain ⟨c₁, hrunning⟩ := h.take hfresh.head
    obtain ⟨c', past', hrunning', hpast'⟩ := ih hrunning hfresh.tail
    refine ⟨c', past', hrunning', fun id hid => ?_⟩
    rw [RequesterStep.ids_cons, List.mem_append]
    rcases hpast' id hid with hr | hpast
    · exact .inl (.inr hr)
    · rcases List.mem_append.1 hpast with hs | hpast
      · exact .inl (.inl hs)
      · exact .inr hpast

/-- A request that was sent is under way from then on. -/
theorem Running.send (h : Running i past b c) (hid : p.id ∉ past) (hok : (b.send p).1 = .ok serial) :
    ∃ c', Running i (p.id :: past) (b.send p).2 c' ∧ (b.send p).2.clock = b.clock ∧
      UnderWay p serial (b.clock + p.timeoutMs) (repliesTo i p.id p.meanwhile) (b.send p).2 c' := by
  rcases send_cases h.clients h.books hid with ⟨e, herror, -⟩ | ⟨hserial, hsent⟩
  · rw [herror] at hok
    cases hok
  · rw [hserial] at hok
    cases hok
    obtain ⟨c', hrunning, -⟩ := (hsent.continued h.timed h.untold).running
    obtain ⟨c'', r, hc'', -, hrequests, hrequest⟩ := hsent.clients
    obtain rfl : c' = c'' := by simpa [hc''] using hrunning.clients.symm
    have hmem : (⟨b.clock + p.timeoutMs, 0, c.requests.length⟩ : Timer) ∈ (b.send p).2.timers := by
      rw [hsent.timers]
      exact List.mem_append_right _ List.mem_cons_self
    refine ⟨c', hrunning, hsent.clock, ⟨r, ?_, hrequest⟩, ⟨_, hmem, rfl, rfl⟩,
      (hsent.told _).trans (h.untold _ (Nat.le_refl _))⟩
    rw [hrequests, ← List.length_map (fun r => p.meanwhile.foldl (Request.hear i) r), List.getElem?_concat_length]

/-! ### Any request of any run -/

theorem run_append (b : Bus) (before after : List RequesterStep) :
    b.run (before ++ after) = (b.run before).run after :=
  List.foldl_append

/-- In a run in which no id is used twice, a request that was sent waits until the clock reaches its time. Then it
settles and stays settled: its sender has been told once, with exactly the replies to it that came in from when it was
handed to the line until then. It is a mismatch if another number of them was expected. -/
theorem settles_once (identity : Identity) (encoders : EncoderPool) (refusing : Bool) (room : Nat)
    (before after : List RequesterStep) (p : RequestPlan) (serial : Nat)
    (hids : (RequesterStep.ids (before ++ .send p :: after)).Nodup)
    (hok : (((withRequester identity encoders refusing room).run before).send p).1 = .ok serial) :
    let start := withRequester identity encoders refusing room
    let due := (start.run before).clock + p.timeoutMs
    let sent := ((start.run before).send p).2
    let final := start.run (before ++ .send p :: after)
    let replies := repliesTo identity p.id
      (p.meanwhile ++ sent.arrivalsDuring (RequesterStep.before due sent.clock after))
    (RequesterStep.reaches due sent.clock after = false → final.Waiting serial) ∧
      (RequesterStep.reaches due sent.clock after = true → final.Settled serial (p.outcome replies)) ∧
      ((p.outcome replies).completion = .countMismatch ↔ ∃ n, p.expected = .exactly n ∧ n ≠ replies.length) := by
  intro start due sent final replies
  rw [RequesterStep.ids_append, List.nodup_append] at hids
  obtain ⟨hbefore, hafter, hdisjoint⟩ := hids
  have hstart := running_withRequester identity encoders refusing room
  have hnew : RequesterStep.Fresh [] before := ⟨hbefore, by simp⟩
  obtain ⟨c, past, hrunning, hpast⟩ := hstart.run hnew
  have hfresh : RequesterStep.Fresh past (.send p :: after) := by
    refine ⟨hafter, fun id hid hmem => ?_⟩
    rcases hpast id hmem with hmem | hmem
    · exact hdisjoint id hmem id hid rfl
    · cases hmem
  obtain ⟨c', hrunning', hclock, hunder⟩ := hrunning.send (hfresh.head p.id rfl) hok
  have hfinal : final = sent.run after := run_append start before (.send p :: after)
  obtain ⟨hwaiting, hsettled⟩ := hunder.run hrunning' hfresh.tail
  rw [repliesTo, repliesTo, ← List.filterMap_append] at hsettled
  rw [hfinal]
  exact ⟨hwaiting, hsettled, p.completion_outcome replies⟩

private def desk : Identity := ⟨["demo"], "plant", "pumps", "desk"⟩

private def level (id : CorrelationId) (expected : ExpectedReplies) (timeoutMs : Nat) (meanwhile : List Arrival) :
    RequestPlan :=
  ⟨id, .all, ⟨["level"]⟩, [], expected, timeoutMs, meanwhile, .ok ()⟩

private def levelReply (id : CorrelationId) : Arrival :=
  ⟨desk.address ++ id.route, some (.packet (.rpc ⟨⟨["level"], ["demo"], some id.text⟩, "pumps", "desk"⟩) [])⟩

/-- Of two requests that are open at once, one is answered while it is made, once more in time, and once too late. -/
theorem settles_once_while_another_is_open :
    ∃ replies, replies.length = 2 ∧
      ((withRequester desk (.empty .standard .messagePack 4) false).run
        [.send (level ⟨"a"⟩ .unlimited 50 []), .send (level ⟨"b"⟩ (.exactly 3) 20 [levelReply ⟨"b"⟩]), .advance 10,
          .arrive (levelReply ⟨"a"⟩), .arrive (levelReply ⟨"b"⟩), .advance 10, .arrive (levelReply ⟨"b"⟩)]).Settled 1
        ((level ⟨"b"⟩ (.exactly 3) 20 [levelReply ⟨"b"⟩]).outcome replies) := by
  obtain ⟨-, hsettled, -⟩ := settles_once desk (.empty .standard .messagePack 4) false usualRoom
    [.send (level ⟨"a"⟩ .unlimited 50 [])] [.advance 10, .arrive (levelReply ⟨"a"⟩), .arrive (levelReply ⟨"b"⟩),
      .advance 10, .arrive (levelReply ⟨"b"⟩)] (level ⟨"b"⟩ (.exactly 3) 20 [levelReply ⟨"b"⟩]) 1 (by decide) rfl
  exact ⟨_, rfl, hsettled rfl⟩

end Bus

end Switchboard
