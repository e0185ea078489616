import Switchboard.Proofs.Request.Books

/-!
# Making a request

A request with a new id is entered in the books while it is handed to the line. If the line takes it, it stays there,
with the replies that came in meanwhile, and its timer is set (`Bus.Sent`). Otherwise it is crossed out again, and the
other requests are kept as if it had never been made (`Bus.Kept`).
-/

namespace Switchboard

variable {i : Identity} {past : List CorrelationId} {b : Bus} {c c' : Client} {id : CorrelationId}

private theorem getElem?_concat_eq_some {α : Type} {l : List α} {x y : α} {k : Nat} :
    (l ++ [x])[k]? = some y ↔ l[k]? = some y ∨ (k = l.length ∧ x = y) := by
  rcases Nat.lt_trichotomy k l.length with hk | rfl | hk
  · rw [List.getElem?_append_left hk]
    exact ⟨Or.inl, fun h => h.elim id fun h => absurd h.1 (Nat.ne_of_lt hk)⟩
  · rw [List.getElem?_concat_length, List.getElem?_eq_none (Nat.le_refl _)]
    simp
  · rw [List.getElem?_eq_none (by simp; omega), List.getElem?_eq_none (Nat.le_of_lt hk)]
    simp
    omega

private theorem modify_concat {α : Type} (f : α → α) (l : List α) (x : α) :
    (l ++ [x]).modify l.length f = l ++ [f x] := by
  rw [List.modify_eq_take_cons_drop (by simp)]
  simp

/-! ### Entering and crossing out -/

namespace Books

/-- A request that is attached is entered behind the others. -/
theorem prepareRequest (h : Books i past c) (hid : id ∉ past) {header : RpcHeader} {expected : ExpectedReplies}
    (hp : c.prepareRequest header id expected = .ok c') :
    Books i (id :: past) c' ∧ c'.requests = c.requests ++ [⟨.of header id expected, none⟩] := by
  simp only [Client.prepareRequest] at hp
  cases ha : c.tree.add (c.replyPath id) (.reply c.requests.length) with
  | error e => simp [ha, bind, Except.bind] at hp
  | ok tree =>
    simp only [ha, bind, Except.bind, pure, Except.pure, Except.ok.injEq] at hp
    subst hp
    have hroute : i.relative (c.replyPath id) = id.route := h.identity ▸ c.relative_replyPath id
    have hne : ∀ r ∈ c.requests, id ≠ r.collector.id := fun r hr he => hid (he ▸ h.known r hr)
    refine ⟨⟨h.identity, (h.wellFormed.owner_of_add ha).trans h.owner, h.taped, h.wellFormed.add ha, ?_,
      fun r hr => ?_, fun r hr => ?_, fun path k => ?_⟩, rfl⟩
    · rw [List.map_append, List.nodup_append]
      refine ⟨h.distinct, List.pairwise_singleton _ _, fun x hx y hy => ?_⟩
      obtain ⟨r, hr, rfl⟩ := List.mem_map.1 hx
      obtain rfl : y = id := List.mem_singleton.1 hy
      exact (hne r hr).symm
    · rcases List.mem_append.1 hr with hr | hr
      · exact List.mem_cons_of_mem _ (h.known r hr)
      · rw [List.mem_singleton.1 hr]
        exact List.mem_cons_self
    · rcases List.mem_append.1 hr with hr | hr
      · exact h.closed r hr
      · rw [List.mem_singleton.1 hr]
        rfl
    · change tree.get? path = _ ↔ _
      rw [h.wellFormed.get?_add ha, h.owner, hroute]
      constructor
      · intro hk
        split at hk
        · rename_i hpath
          cases hk
          exact ⟨_, List.getElem?_concat_length, rfl, hpath.symm⟩
        · obtain ⟨r, hr, ho, hpath⟩ := (h.routes path k).1 hk
          exact ⟨r, getElem?_concat_eq_some.2 (.inl hr), ho, hpath⟩
      · rintro ⟨r, hr, ho, hpath⟩
        rcases getElem?_concat_eq_some.1 hr with hr | ⟨rfl, rfl⟩
        · rw [if_neg fun he => hne r (List.mem_of_getElem? hr) (CorrelationId.route_inj.1 (he.trans hpath))]
          exact (h.routes path k).2 ⟨r, hr, ho, hpath⟩
        · exact if_pos hpath.symm

/-- The request that was entered last is crossed out. -/
theorem withdrawRequest (h : Books i past c) {rs : List Request} {r : Request} (hrs : c.requests = rs ++ [r])
    (ho : r.outcome = none) :
    Books i past (c.withdrawRequest rs.length r.collector.id) ∧
      (c.withdrawRequest rs.length r.collector.id).requests = rs := by
  have hk : c.requests[rs.length]? = some r := by rw [hrs, List.getElem?_concat_length]
  have herase : c.requests.eraseIdx rs.length = rs := by
    rw [hrs, List.eraseIdx_append_of_length_le (Nat.le_refl _)]
    simp
  have hdistinct := h.distinct
  rw [hrs, List.map_append, List.nodup_append] at hdistinct
  have hne : ∀ r' ∈ rs, r.collector.id ≠ r'.collector.id := fun r' hr' =>
    (hdistinct.2.2 _ (List.mem_map_of_mem hr') _ List.mem_cons_self).symm
  have hmem : ∀ r' ∈ rs, r' ∈ c.requests := fun r' hr' => hrs ▸ List.mem_append_left _ hr'
  refine ⟨⟨h.identity, (h.wellFormed.owner_of_removeIf _ _).trans h.owner, h.taped, h.wellFormed.removeIf _ _, ?_,
    fun r' hr' => ?_, fun r' hr' => ?_, fun path k => ?_⟩, herase⟩
  · simp only [Client.withdrawRequest, herase]
    exact hdistinct.1
  · simp only [Client.withdrawRequest, herase] at hr'
    exact h.known r' (hmem r' hr')
  · simp only [Client.withdrawRequest, herase] at hr'
    exact h.closed r' (hmem r' hr')
  · simp only [Client.withdrawRequest, herase]
    rw [h.get?_detachRequest hk ho]
    constructor
    · intro hget
      split at hget
      · cases hget
      · rename_i hpath
        obtain ⟨r', hr', ho', hpath'⟩ := (h.routes path k).1 hget
        rw [hrs] at hr'
        rcases getElem?_concat_eq_some.1 hr' with hr' | ⟨rfl, rfl⟩
        · exact ⟨r', hr', ho', hpath'⟩
        · exact absurd hpath'.symm hpath
    · rintro ⟨r', hr', ho', hpath'⟩
      rw [if_neg fun he => hne r' (List.mem_of_getElem? hr') (CorrelationId.route_inj.1 (he.trans hpath'))]
      exact (h.routes path k).2 ⟨r', hrs ▸ getElem?_concat_eq_some.2 (.inl hr'), ho', hpath'⟩

/-- An open request stays open when it is marked as sent. -/
theorem confirmRequest (h : Books i past c) (k : Nat) : Books i past (c.confirmRequest k) := by
  refine h.congr rfl rfl rfl (List.ext_getElem? fun j => ?_)
  simp only [Client.confirmRequest, Client.updateCollector, List.getElem?_map, List.getElem?_modify]
  cases hj : c.requests[j]? with
  | none => rfl
  | some r =>
    by_cases hkj : k = j
    · by_cases hp : r.collector.phase = .created <;>
        simp [hkj, Request.entry, ReplyCollector.markSent, ReplyCollector.isClosed, hp]
    · simp [hkj]

end Books

theorem Client.confirmRequest_concat {rs : List Request} {r : Request} (hrs : c.requests = rs ++ [r]) :
    (c.confirmRequest rs.length).requests = rs ++ [{ r with collector := r.collector.markSent }] := by
  simp only [confirmRequest, updateCollector, hrs]
  exact modify_concat _ rs r

/-! ### Replies to a request -/

/-- An open request after some arrivals has counted the replies among them. -/
theorem Request.foldl_hear (owner : Identity) {r : Request} (ho : r.outcome = none) (l : List Arrival) :
    (l.foldl (Request.hear owner) r).outcome = none ∧
      (l.foldl (Request.hear owner) r).collector.id = r.collector.id ∧
      (l.foldl (Request.hear owner) r).collector.expected = r.collector.expected ∧
      (l.foldl (Request.hear owner) r).collector.replies =
        r.collector.replies ++ repliesTo owner r.collector.id l := by
  induction l generalizing r with
  | nil => simp [ho, repliesTo]
  | cons a l ih =>
    cases ha : a.replyTo? owner r.collector.id with
    | none =>
      have hsame : r.hear owner a = r := Request.hear_of_none ha
      rw [List.foldl_cons, hsame]
      simpa [repliesTo, ha] using ih ho
    | some p =>
      have hcounted : r.hear owner a = { r with collector :=
          { r.collector with replies := r.collector.replies ++ [p], phase := .accumulating } } := by
        unfold hear
        rw [ho, ha]
      rw [List.foldl_cons, hcounted]
      simpa [repliesTo, ha] using ih (r := { r with collector :=
        { r.collector with replies := r.collector.replies ++ [p], phase := .accumulating } }) ho

theorem Request.foldl_hear_of_ended {owner : Identity} {r : Request} {o : RequestOutcome} (ho : r.outcome = some o)
    (l : List Arrival) : l.foldl (Request.hear owner) r = r := by
  induction l with
  | nil => rfl
  | cons a l ih => rw [List.foldl_cons, hear_of_ended ho, ih]

/-! ### Sending -/

/-- A refused packet never gets to the line if the reason is not the verdict of the line. -/
theorem EncoderPool.prepare_ne_transport {pool pool' : EncoderPool} {topic : List String} {packet : Option Packet}
    {codec : Option Codec} {e : BusError} (h : pool.prepare topic packet codec = (.error e, pool'))
    (e' : TransportError) : e ≠ .transport e' := by
  rintro rfl
  unfold prepare at h
  split at h
  · cases h
  · split at h <;> cases h

/-- What is there of a request that was sent. -/
structure Bus.Sent (i : Identity) (past : List CorrelationId) (c : Client) (p : RequestPlan) (b b' : Bus) :
    Prop where
  clients : ∃ c' r, b'.clients = [c'] ∧ Books i past c' ∧
    c'.requests = (c.requests.map fun r => p.meanwhile.foldl (Request.hear i) r) ++ [r] ∧ r.outcome = none ∧
    r.collector.id = p.id ∧ r.collector.expected = p.expected ∧
    r.collector.replies = repliesTo i p.id p.meanwhile
  timers : b'.timers = b.timers ++ [⟨b.clock + p.timeoutMs, 0, c.requests.length⟩]
  clock : b'.clock = b.clock
  told : ∀ k, b'.repliesTold k = b.repliesTold k

namespace Bus

/-- While the line has the message, the new request is entered in the books and counts its replies as the others
do. -/
private theorem exists_handed (h : Books i past c) {p : RequestPlan} (hid : p.id ∉ past) {prepared : Client}
    {header : RpcHeader} (hp : c.prepareRequest header p.id p.expected = .ok prepared) (encoders : EncoderPool)
    {b₀ : Bus} (hb₀ : b₀ = { b with clients := [{ prepared with encoders := encoders }] }) :
    ∃ c' r, (p.meanwhile.foldl arrive b₀).clients = [c'] ∧ Books i (p.id :: past) c' ∧
      c'.requests = (c.requests.map fun r => p.meanwhile.foldl (Request.hear i) r) ++ [r] ∧ r.outcome = none ∧
      r.collector.id = p.id ∧ r.collector.expected = p.expected ∧
      r.collector.replies = repliesTo i p.id p.meanwhile ∧ Heard i p.meanwhile b₀ (p.meanwhile.foldl arrive b₀) := by
  obtain ⟨hbooks, hrequests⟩ := h.prepareRequest hid hp
  have hbooks₀ : Books i (p.id :: past) { prepared with encoders := encoders } :=
    hbooks.sameBooks ⟨rfl, rfl, rfl, rfl⟩
  have hc₀ : b₀.clients = [{ prepared with encoders := encoders }] := by rw [hb₀]
  have heard := heard_arrivals hc₀ hbooks₀ p.meanwhile
  obtain ⟨c', hc', hi, ht, hl, hr⟩ := heard.clients hc₀
  have hnew := Request.foldl_hear i (r := ⟨.of header p.id p.expected, none⟩) rfl p.meanwhile
  refine ⟨c', _, hc', hbooks₀.hear p.meanwhile hi ht hl hr, ?_, hnew.1, hnew.2.1, hnew.2.2.1, hnew.2.2.2, heard⟩
  rw [hr]
  change prepared.requests.map _ = _
  rw [hrequests, List.map_append, List.map_singleton]

/-- A request that is crossed out leaves the others as they are. -/
private theorem kept_withdrawRequest {b' : Bus} {l : List Arrival} {r : Request} (hc : b'.clients = [c'])
    (h : Books i past c') (hr : c'.requests = (c.requests.map fun r => l.foldl (Request.hear i) r) ++ [r])
    (ho : r.outcome = none) (hid : r.collector.id = id) (htimers : b'.timers = b.timers) (hclock : b'.clock = b.clock)
    (htold : ∀ k, b'.repliesTold k = b.repliesTold k) (scope : Option Identity) (message : String)
    (fields : List (String × String)) :
    Kept i past c l b
      ((b'.updateClient 0 (·.withdrawRequest c.requests.length id)).log scope .warn message fields) := by
  have hw := h.withdrawRequest hr ho
  rw [List.length_map, hid] at hw
  have hquiet := quiet_log (b'.updateClient 0 (·.withdrawRequest c.requests.length id)) scope .warn message fields
  exact ⟨⟨_, by simp [log, record, updateClient, hc], hw.1, hw.2⟩, htimers, hclock, fun k =>
    (hquiet.told k).trans (htold k)⟩

/-- A request either fails and leaves nothing behind, or is sent. -/
theorem send_cases (hc : b.clients = [c]) (h : Books i past c) {p : RequestPlan} (hid : p.id ∉ past) :
    (∃ e, (b.send p).1 = .error e ∧ Kept i (p.id :: past) c (b.arrivals (.send p)) b (b.send p).2) ∨
      ((b.send p).1 = .ok c.requests.length ∧ Sent i (p.id :: past) c p b (b.send p).2) := by
  have hget : b.clients[0]? = some c := by rw [hc]; rfl
  cases hp : c.prepareRequest (RpcHeader.of p.subject c.identity p.destination p.id) p.id p.expected with
  | error e =>
    have hsend : b.send p = (.error (.dispatch e), b) := by simp only [send, requestVia, hget, hp]
    have hnothing : b.arrivals (.send p) = [] := by simp only [arrivals, hsend]
    rw [hsend, hnothing]
    exact .inl ⟨_, rfl, ⟨c, hc, h.weaken p.id, by simp⟩, rfl, rfl, fun _ => rfl⟩
  | ok prepared =>
    obtain ⟨hbooks, hrequests⟩ := h.prepareRequest hid hp
    have hupdate : ∀ f : Client → Client,
        ((b.updateClient 0 fun _ => prepared).updateClient 0 f) = { b with clients := [f prepared] } := by
      simp [updateClient, hc]
    have hget' : (b.updateClient 0 fun _ => prepared).clients[0]? = some prepared := by simp [updateClient, hc]
    cases hm : prepared.encoders.prepare (p.destination.topicFor c.identity p.subject)
        (some ⟨.rpc (RpcHeader.of p.subject c.identity p.destination p.id), p.payloads⟩) none with
    | mk result encoders =>
      cases result with
      | error e =>
        -- the message is not fit to be sent, so the line never sees it
        have hsend : b.send p = (.error e, (({ b with clients := [{ prepared with encoders := encoders }] } :
            Bus).updateClient 0 (·.withdrawRequest c.requests.length p.id)).log (some c.identity) .warn
              "request publish failed" [("correlation_id", p.id.text), ("subject", p.subject.text),
                ("error", e.message)]) := by
          simp only [send, requestVia, publishVia, hget, hp, hget', hm, hupdate]
        have hnothing : b.arrivals (.send p) = [] := by
          have hne := EncoderPool.prepare_ne_transport hm
          simp only [arrivals, hsend]
        have hbooks' : Books i (p.id :: past) { prepared with encoders := encoders } :=
          hbooks.sameBooks ⟨rfl, rfl, rfl, rfl⟩
        have hr : ({ prepared with encoders := encoders } : Client).requests =
            (c.requests.map fun r => [].foldl (Request.hear i) r) ++
              [⟨.of (.of p.subject c.identity p.destination p.id) p.id p.expected, none⟩] := by
          simpa using hrequests
        have hclients : ({ b with clients := [{ prepared with encoders := encoders }] } : Bus).clients =
            [{ prepared with encoders := encoders }] := rfl
        have hwithdrawn := kept_withdrawRequest (b := b) hclients hbooks' hr rfl rfl rfl rfl
          (fun _ => rfl) (some c.identity) "request publish failed"
          [("correlation_id", p.id.text), ("subject", p.subject.text), ("error", e.message)]
        rw [hsend, hnothing]
        exact .inl ⟨e, rfl, hwithdrawn⟩
      | ok message =>
        obtain ⟨c', r, hc', hbooks', hr, ho, hrid, hexpected, hreplies, heard⟩ :=
          exists_handed (b := b) h hid hp encoders rfl
        cases hverdict : p.verdict with
        | error e =>
          -- the line refused it, after it had let messages come in
          have hsend : b.send p = (.error (.transport e), ((p.meanwhile.foldl arrive
              { b with clients := [{ prepared with encoders := encoders }] }).updateClient 0
                (·.withdrawRequest c.requests.length p.id)).log (some c.identity) .warn "request publish failed"
                  [("correlation_id", p.id.text), ("subject", p.subject.text),
                    ("error", (BusError.transport e).message)]) := by
            simp only [send, requestVia, publishVia, hget, hp, hget', hm, hupdate, lineOf, hverdict]
          have hall : b.arrivals (.send p) = p.meanwhile := by simp only [arrivals, hsend]
          have hwithdrawn := kept_withdrawRequest (b := b) hc' hbooks' hr ho hrid heard.timers heard.clock heard.told
            (some c.identity) "request publish failed"
            [("correlation_id", p.id.text), ("subject", p.subject.text), ("error", (BusError.transport e).message)]
          rw [hsend, hall]
          exact .inl ⟨_, rfl, hwithdrawn⟩
        | ok _ =>
          -- the line took it: the request is marked as sent and gets its timer
          have hsend : b.send p = (.ok c.requests.length, { (p.meanwhile.foldl arrive
              { b with clients := [{ prepared with encoders := encoders }] }).updateClient 0
                (·.confirmRequest c.requests.length) with
              timers :=
                (p.meanwhile.foldl arrive { b with clients := [{ prepared with encoders := encoders }] }).timers ++
                [⟨(p.meanwhile.foldl arrive { b with clients := [{ prepared with encoders := encoders }] }).clock +
                  p.timeoutMs, 0, c.requests.length⟩] }) := by
            simp only [send, requestVia, publishVia, hget, hp, hget', hm, hupdate, lineOf, hverdict]
            rfl
          have hconfirmed : (c'.confirmRequest c.requests.length).requests =
              (c.requests.map fun r => p.meanwhile.foldl (Request.hear i) r) ++
                [{ r with collector := r.collector.markSent }] := by
            have hlast := Client.confirmRequest_concat hr
            rwa [List.length_map] at hlast
          have hmark : r.collector.markSent.id = r.collector.id ∧
              r.collector.markSent.expected = r.collector.expected ∧
              r.collector.markSent.replies = r.collector.replies := by
            unfold ReplyCollector.markSent
            split <;> exact ⟨rfl, rfl, rfl⟩
          rw [hsend]
          refine .inr ⟨rfl, ⟨_, _, ?_, hbooks'.confirmRequest c.requests.length, hconfirmed, ho,
            hmark.1.trans hrid, hmark.2.1.trans hexpected, hmark.2.2.trans hreplies⟩, ?_, heard.clock, heard.told⟩
          · simp [updateClient, hc']
          · simp only [heard.timers, heard.clock]

end Bus

end Switchboard
