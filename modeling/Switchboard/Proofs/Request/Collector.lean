import Mathlib.Data.List.Induction
import Switchboard.Proofs.Delivery.Awaiting

/-!
# The life of a reply collector

Three things are done with the collector of a request, in any order and any number of times: it is told that the
request was sent, it is given what comes in on the route of the request, and it is closed. What has become of it then,
and what the sender of the request was told, depends only on the replies that came in before it was closed for the
first time, and on whether it was closed (`Bus.collected`).
-/

namespace Switchboard

/-! ### Steps -/

/-- What is done with a collector: the request is confirmed as sent, something comes in on its route, or a timer that
was set for it fires. -/
inductive CollectorStep
  | confirm
  | receive (decoded : Option Payload)
  | close (due : Nat)

namespace CollectorStep

def confirms : CollectorStep → Bool
  | confirm => true
  | _ => false

def closes : CollectorStep → Bool
  | close _ => true
  | _ => false

/-- The reply that a step brings to the request with an id: a packet whose header carries the id. -/
def reply? (id : CorrelationId) : CollectorStep → Option Packet
  | receive decoded => (decoded.bind Packet.ofPayload?).filter fun p => p.header.rpc?.any (·.packetId == id.text)
  | _ => none

/-- Whether some step closes the collector. -/
def closed (steps : List CollectorStep) : Bool := steps.any closes

/-- The replies that come in before the collector is closed, in order. -/
def counted (id : CorrelationId) (steps : List CollectorStep) : List Packet :=
  (steps.takeWhile (!·.closes)).filterMap (·.reply? id)

/-- The phase of a collector that has not been closed. -/
def openPhase (id : CorrelationId) (steps : List CollectorStep) : RequestPhase :=
  if (counted id steps).isEmpty then if steps.any confirms then .sent else .created else .accumulating

/-- What is reported about a step: what comes in and is no packet, and a packet that is no reply to the request. -/
def reported (id : CorrelationId) : CollectorStep → List ExecutionError
  | receive decoded =>
    match decoded.bind Packet.ofPayload? with
    | none => [.noValidPacket]
    | some packet =>
      match packet.header with
      | .plain _ => [.processingFailed "PROTOCOL_ERROR" (BusError.protocol .plainReply).message]
      | .rpc h =>
        if h.packetId = id.text then []
        else [.processingFailed "PROTOCOL_ERROR" (BusError.protocol (.foreignReply h.packetId id.text)).message]
  | _ => []

variable {id : CorrelationId} {steps : List CollectorStep} {step : CollectorStep}

theorem closed_append (steps more : List CollectorStep) : closed (steps ++ more) = (closed steps || closed more) :=
  List.any_append

theorem counted_receive_cons (id : CorrelationId) (decoded : Option Payload) (steps : List CollectorStep) :
    counted id (receive decoded :: steps) = ((receive decoded).reply? id).toList ++ counted id steps := by
  simp only [counted, closes, Bool.not_false, List.takeWhile_cons_of_pos, List.filterMap_cons]
  cases (receive decoded).reply? id <;> rfl

/-- Nothing is counted once the collector is closed. -/
theorem counted_append (id : CorrelationId) (steps more : List CollectorStep) :
    counted id (steps ++ more) = counted id steps ++ if closed steps then [] else counted id more := by
  induction steps with
  | nil => rfl
  | cons step steps ih =>
    cases step with
    | close due => rfl
    | confirm => exact ih
    | receive decoded =>
      rw [List.cons_append, counted_receive_cons, counted_receive_cons, ih, List.append_assoc]
      rfl

theorem counted_singleton (id : CorrelationId) (step : CollectorStep) :
    counted id [step] = (step.reply? id).toList := by
  cases step with
  | close due => rfl
  | confirm => rfl
  | receive decoded => exact (counted_receive_cons id decoded []).trans (List.append_nil _)

end CollectorStep

/-- The order of the phases. -/
def RequestPhase.rank : RequestPhase → Nat
  | created => 0
  | sent => 1
  | accumulating => 2
  | detached _ => 3

/-! ### One request -/

namespace ReplyCollector

variable {c : ReplyCollector} {packet : Packet}

/-- The packet is a reply to the request of the collector, and does not come too late. -/
def Awaits (c : ReplyCollector) (packet : Packet) : Prop :=
  packet.header.rpc?.any (·.packetId == c.id.text) = true ∧ c.isClosed = false

theorem check_of_own (h : packet.header.rpc?.any (·.packetId == c.id.text) = true) : c.check packet = .ok () := by
  unfold check
  cases hheader : packet.header with
  | plain header => simp [hheader, PacketHeader.rpc?] at h
  | rpc header => simpa [hheader, PacketHeader.rpc?] using h

theorem check_of_foreign (h : ¬packet.header.rpc?.any (·.packetId == c.id.text) = true) :
    ∃ e, c.check packet = .error e := by
  unfold check
  cases hheader : packet.header with
  | plain header => exact ⟨_, rfl⟩
  | rpc header => exact ⟨_, if_neg (by simpa [hheader, PacketHeader.rpc?] using h)⟩

theorem receive_fst (c : ReplyCollector) (packet : Packet) : (c.receive packet).1 = c.check packet := by
  unfold receive
  cases c.check packet with
  | error e => rfl
  | ok u =>
    simp only
    split <;> rfl

theorem reportErrors_of_awaits (h : c.Awaits packet) (errors : List ErrorPayload) :
    c.reportErrors packet errors = some (.errors errors) := by
  simp [reportErrors, check_of_own h.1, h.2]

/-- A packet that is not awaited is passed over. -/
theorem receive_of_not_awaits (h : ¬c.Awaits packet) :
    (c.receive packet).2 = c ∧ ∀ errors, c.reportErrors packet errors = none := by
  by_cases hown : packet.header.rpc?.any (·.packetId == c.id.text) = true
  · have hclosed : c.isClosed = true := Bool.eq_true_of_not_eq_false fun hopen => h ⟨hown, hopen⟩
    simp [receive, reportErrors, check_of_own hown, hclosed]
  · obtain ⟨e, he⟩ := check_of_foreign hown
    simp [receive, reportErrors, he]

end ReplyCollector

namespace Request

/-- The request after a step. -/
def after (r : Request) : CollectorStep → Request
  | .confirm => { r with collector := r.collector.markSent }
  | .receive decoded =>
    match decoded.bind Packet.ofPayload? with
    | none => r
    | some packet => r.count packet
  | .close _ => r.fired

/-- What the sender of the request is told in a step. -/
def callsFor (r : Request) : CollectorStep → List ReplyCall
  | .confirm => []
  | .receive decoded =>
    match decoded.bind Packet.ofPayload? with
    | none => []
    | some packet =>
      if packet.errors.isEmpty then [] else (r.collector.reportErrors packet packet.errors).toList
  | .close _ => if r.collector.isClosed then [] else r.collector.outcome.calls

variable {r : Request} {packet : Packet} {decoded : Option Payload}

/-- An open request counts a reply, and its sender is told the errors in it. -/
theorem after_of_reply? (h : r.collector.isClosed = false)
    (hreply : (CollectorStep.receive decoded).reply? r.collector.id = some packet) :
    r.after (.receive decoded) = { r with
        collector := { r.collector with replies := r.collector.replies ++ [packet], phase := .accumulating } } ∧
      r.callsFor (.receive decoded) = if packet.errors.isEmpty then [] else [.errors packet.errors] := by
  obtain ⟨hpacket, hown⟩ := Option.filter_eq_some_iff.1 hreply
  have hawaits : r.collector.Awaits packet := ⟨hown, h⟩
  simp only [after, callsFor, hpacket, r.count_of_unclosed h (ReplyCollector.check_of_own hown),
    ReplyCollector.reportErrors_of_awaits hawaits, Option.toList_some, and_self]

/-- What comes in too late, or is no reply to the request, leaves it alone. -/
theorem after_of_not_awaits
    (h : ∀ packet, decoded.bind Packet.ofPayload? = some packet → ¬r.collector.Awaits packet) :
    r.after (.receive decoded) = r ∧ r.callsFor (.receive decoded) = [] := by
  cases hpacket : decoded.bind Packet.ofPayload? with
  | none => simp only [after, callsFor, hpacket, and_self]
  | some packet =>
    obtain ⟨hreceive, hreport⟩ := ReplyCollector.receive_of_not_awaits (h packet hpacket)
    simp only [after, callsFor, hpacket, count, hreceive, hreport, Option.toList_none, ite_self, and_self]

theorem after_of_no_reply (hreply : (CollectorStep.receive decoded).reply? r.collector.id = none) :
    r.after (.receive decoded) = r ∧ r.callsFor (.receive decoded) = [] := by
  refine after_of_not_awaits fun packet hpacket hawaits => ?_
  rw [CollectorStep.reply?, hpacket, Option.filter_some, if_pos hawaits.1] at hreply
  cases hreply

/-- A request that has ended stays as it is, and its sender is told nothing more. -/
theorem after_of_isClosed (h : r.collector.isClosed = true) (step : CollectorStep) :
    r.after step = r ∧ r.callsFor step = [] := by
  cases step with
  | confirm =>
    have hphase : r.collector.phase ≠ .created := by
      intro hcreated
      rw [ReplyCollector.isClosed, hcreated] at h
      cases h
    simp only [after, callsFor, ReplyCollector.markSent, if_neg hphase, and_self]
  | receive decoded => exact after_of_not_awaits fun packet _ hawaits => by simp [hawaits.2] at h
  | close due => simp [after, callsFor, fired, h]

end Request

/-! ### All steps -/

/-- What the sender of a request is told, after the replies, about their number. -/
def ExpectedReplies.mismatch (received : Nat) : ExpectedReplies → List ReplyCall
  | exactly n =>
    if n = received then []
    else [.errors [⟨"REPLY_COUNT_MISMATCH", (BusError.replyCountMismatch n received).message⟩]]
  | unlimited => []

namespace CollectorStep

variable (header : RpcHeader) (id : CorrelationId) (expected : ExpectedReplies) (steps : List CollectorStep)

/-- What comes of a request if it ends after some steps. -/
def outcome : RequestOutcome :=
  ⟨id, counted id steps, expected,
    if expected.satisfiedBy (counted id steps).length then .complete else .countMismatch⟩

/-- A request after some steps. -/
def requestAfter : Request :=
  if closed steps then
    ⟨⟨header, id, expected, .detached (outcome id expected steps).completion, []⟩, some (outcome id expected steps)⟩
  else ⟨⟨header, id, expected, openPhase id steps, counted id steps⟩, none⟩

/-- What the sender of a request is told in some steps: the errors in each reply, and then how the request ended. -/
def callsAfter : List ReplyCall :=
  ((counted id steps).filter (!·.errors.isEmpty)).map (.errors ·.errors) ++
    if closed steps then (outcome id expected steps).calls else []

variable {header id expected steps}

theorem calls_outcome : (outcome id expected steps).calls =
    .replies (counted id steps) :: expected.mismatch (counted id steps).length := by
  cases expected with
  | unlimited => rfl
  | exactly n =>
    by_cases hn : n = (counted id steps).length
    · simp [RequestOutcome.calls, RequestOutcome.mismatch?, outcome, ExpectedReplies.satisfiedBy,
        ExpectedReplies.mismatch, hn]
    · simp [RequestOutcome.calls, RequestOutcome.mismatch?, outcome, ExpectedReplies.satisfiedBy,
        ExpectedReplies.mismatch, hn, BusError.toPayload, BusError.code]

theorem isClosed_requestAfter : (requestAfter header id expected steps).collector.isClosed = closed steps := by
  cases h : closed steps with
  | true =>
    rw [requestAfter, if_pos h]
    rfl
  | false =>
    rw [requestAfter, if_neg (by simp [h])]
    unfold openPhase
    cases (counted id steps).isEmpty <;> cases steps.any confirms <;> rfl

theorem requestAfter_of_open (h : closed steps = false) :
    requestAfter header id expected steps = ⟨⟨header, id, expected, openPhase id steps, counted id steps⟩, none⟩ :=
  if_neg (by simp [h])

theorem requestAfter_of_closed (h : closed steps = true) :
    requestAfter header id expected steps =
      ⟨⟨header, id, expected, .detached (outcome id expected steps).completion, []⟩,
        some (outcome id expected steps)⟩ :=
  if_pos h

theorem callsAfter_of_open (h : closed steps = false) :
    callsAfter id expected steps = ((counted id steps).filter (!·.errors.isEmpty)).map (.errors ·.errors) := by
  rw [callsAfter, if_neg (by simp [h]), List.append_nil]

/-- Once the collector is closed, everything stays as it is. -/
theorem requestAfter_append_of_closed (h : closed steps = true) (more : List CollectorStep) :
    requestAfter header id expected (steps ++ more) = requestAfter header id expected steps ∧
      callsAfter id expected (steps ++ more) = callsAfter id expected steps := by
  have hclosed : closed (steps ++ more) = true := by rw [closed_append, h, Bool.true_or]
  have hcounted : counted id (steps ++ more) = counted id steps := by rw [counted_append, if_pos h, List.append_nil]
  rw [requestAfter_of_closed h, requestAfter_of_closed hclosed]
  simp only [callsAfter, outcome, h, hclosed, hcounted, and_self]

/-- A step leads from the request after some steps to the request after one more, and what is told in it from what was
told until then to what was told after one more. -/
def Leads (header : RpcHeader) (id : CorrelationId) (expected : ExpectedReplies) (steps : List CollectorStep)
    (step : CollectorStep) : Prop :=
  (requestAfter header id expected steps).after step = requestAfter header id expected (steps ++ [step]) ∧
    callsAfter id expected steps ++ (requestAfter header id expected steps).callsFor step =
      callsAfter id expected (steps ++ [step])

theorem leads_of_closed (h : closed steps = true) (step : CollectorStep) : Leads header id expected steps step := by
  have hended : (requestAfter header id expected steps).collector.isClosed = true := isClosed_requestAfter.trans h
  obtain ⟨hafter, hcalls⟩ := Request.after_of_isClosed hended step
  obtain ⟨hsame, htold⟩ := requestAfter_append_of_closed h [step]
  rw [Leads, hafter, hcalls, List.append_nil, hsame, htold]
  exact ⟨rfl, rfl⟩

theorem counted_concat (h : closed steps = false) (step : CollectorStep) :
    counted id (steps ++ [step]) = counted id steps ++ (step.reply? id).toList := by
  rw [counted_append, if_neg (by simp [h]), counted_singleton]

theorem leads_confirm (h : closed steps = false) : Leads header id expected steps confirm := by
  have hopen : closed (steps ++ [confirm]) = false := by rw [closed_append, h]; rfl
  have hsame : counted id (steps ++ [confirm]) = counted id steps := (counted_concat h _).trans (List.append_nil _)
  rw [Leads, requestAfter_of_open h, requestAfter_of_open hopen, callsAfter_of_open h, callsAfter_of_open hopen,
    hsame]
  refine ⟨?_, List.append_nil _⟩
  by_cases hnone : (counted id steps).isEmpty = true <;> by_cases hsent : steps.any confirms = true <;>
    simp [Request.after, ReplyCollector.markSent, openPhase, hsame, hnone, hsent, confirms]

theorem leads_receive (h : closed steps = false) (decoded : Option Payload) :
    Leads header id expected steps (receive decoded) := by
  have hopen : closed (steps ++ [receive decoded]) = false := by rw [closed_append, h]; rfl
  have hcounted : counted id (steps ++ [receive decoded]) =
      counted id steps ++ ((receive decoded).reply? id).toList := counted_concat h _
  have hid : (requestAfter header id expected steps).collector.id = id := by rw [requestAfter_of_open h]
  cases hreply : (receive decoded).reply? id with
  | none =>
    rw [hreply, Option.toList_none, List.append_nil] at hcounted
    rw [← hid] at hreply
    obtain ⟨hafter, hcalls⟩ := Request.after_of_no_reply hreply
    rw [Leads, hafter, hcalls, List.append_nil, requestAfter_of_open h, requestAfter_of_open hopen,
      callsAfter_of_open h, callsAfter_of_open hopen, hcounted]
    simp [openPhase, hcounted, confirms]
  | some packet =>
    rw [hreply, Option.toList_some] at hcounted
    rw [← hid] at hreply
    obtain ⟨hafter, hcalls⟩ := Request.after_of_reply? (isClosed_requestAfter.trans h) hreply
    rw [Leads, hafter, hcalls, requestAfter_of_open h, requestAfter_of_open hopen, callsAfter_of_open h,
      callsAfter_of_open hopen, hcounted]
    constructor
    · simp [openPhase, hcounted]
    · by_cases herrors : packet.errors.isEmpty = true <;> simp [herrors]

theorem leads_close (h : closed steps = false) (due : Nat) : Leads header id expected steps (close due) := by
  have hclosed : closed (steps ++ [close due]) = true := by rw [closed_append, h]; rfl
  have hsame : counted id (steps ++ [close due]) = counted id steps :=
    (counted_concat h _).trans (List.append_nil _)
  have hopen : (requestAfter header id expected steps).collector.isClosed = false := isClosed_requestAfter.trans h
  have houtcome : (requestAfter header id expected steps).collector.outcome =
      outcome id expected (steps ++ [close due]) := by
    rw [requestAfter_of_open h]
    simp only [ReplyCollector.outcome, ReplyCollector.completion, outcome, hsame]
  have hended : ∀ r : Request, r.ended =
      ⟨{ r.collector with phase := .detached r.collector.outcome.completion, replies := [] },
        some r.collector.outcome⟩ := fun _ => rfl
  constructor
  · rw [Request.after, Request.fired, if_neg (by simp [hopen]), hended, houtcome, requestAfter_of_closed hclosed,
      requestAfter_of_open h]
  · rw [Request.callsFor, if_neg (by simp [hopen]), houtcome, callsAfter_of_open h, callsAfter, if_pos hclosed, hsame]

/-- Each step leads on, whether or not the collector is closed. -/
theorem leads (step : CollectorStep) : Leads header id expected steps step := by
  cases h : closed steps with
  | true => exact leads_of_closed h step
  | false =>
    cases step with
    | confirm => exact leads_confirm h
    | receive decoded => exact leads_receive h decoded
    | close due => exact leads_close h due

/-! #### Later -/

theorem rank_openPhase (id : CorrelationId) (steps : List CollectorStep) : (openPhase id steps).rank =
    if (counted id steps).isEmpty then if steps.any confirms then 1 else 0 else 2 := by
  unfold openPhase
  cases (counted id steps).isEmpty <;> cases steps.any confirms <;> rfl

/-- No phase comes after a later one. -/
theorem rank_requestAfter_le (more : List CollectorStep) :
    (requestAfter header id expected steps).collector.phase.rank ≤
      (requestAfter header id expected (steps ++ more)).collector.phase.rank := by
  cases hall : closed (steps ++ more) with
  | true =>
    rw [requestAfter_of_closed hall]
    cases (requestAfter header id expected steps).collector.phase <;> simp [RequestPhase.rank]
  | false =>
    have hopen : closed steps = false := (Bool.or_eq_false_iff.1 ((closed_append steps more).symm.trans hall)).1
    rw [requestAfter_of_open hopen, requestAfter_of_open hall]
    simp only [rank_openPhase, counted_append, hopen, List.any_append]
    cases counted id steps <;> cases counted id more <;> cases steps.any confirms <;> cases more.any confirms <;> simp

end CollectorStep

/-! ### On the bus -/

namespace Bus

variable {b : Bus} {client serial : Nat} {r : Request}

/-- One step of the collector of a request, and what is reported about it. -/
def collect (client serial : Nat) (b : Bus) : CollectorStep → List ExecutionError × Bus
  | .confirm => ([], b.updateClient client (·.confirmRequest serial))
  | .receive decoded => (replyExecutor client serial).execute decoded b
  | .close due => ([], b.fire ⟨due, client, serial⟩)

def collectAll (client serial : Nat) (b : Bus) (steps : List CollectorStep) : Bus :=
  steps.foldl (fun b step => (b.collect client serial step).2) b

/-- What the sender of a request was told, in order. -/
def callsTo (b : Bus) (client serial : Nat) : List ReplyCall :=
  b.events.filterMap fun
    | .told client' serial' call => if client' = client ∧ serial' = serial then some call else none
    | _ => none

/-- What is handed over if the request ends now. -/
def outcomeAt (b : Bus) (client serial : Nat) : Option RequestOutcome :=
  (b.clients[client]?).bind fun c => (c.endRequest serial).1

theorem callsTo_told (b : Bus) (client serial : Nat) (call : ReplyCall) :
    (b.record (.told client serial call)).callsTo client serial = b.callsTo client serial ++ [call] := by
  simp [callsTo, record]

theorem request?_updateCollector (h : b.request? client serial = some r) (f : ReplyCollector → ReplyCollector) :
    (b.updateClient client (·.updateCollector serial f)).request? client serial =
      some { r with collector := f r.collector } := by
  obtain ⟨c, hc, hr⟩ := Option.bind_eq_some_iff.1 h
  unfold request?
  rw [clients_updateClient_self hc, Option.bind_some, Client.updateCollector, List.getElem?_modify, hr]
  simp

/-- The errors in a packet are told to the sender of the request, before the packet itself is received. -/
theorem replyErrors (h : b.request? client serial = some r) (packet : Packet) :
    ∃ b₁, b₁ = (if packet.errors.isEmpty then b
        else (replyExecutor client serial).handleErrors packet packet.errors b) ∧
      b₁.request? client serial = some r ∧ b₁.callsTo client serial = b.callsTo client serial ++
        if packet.errors.isEmpty then [] else (r.collector.reportErrors packet packet.errors).toList := by
  refine ⟨_, rfl, ?_⟩
  split
  · exact ⟨h, (List.append_nil _).symm⟩
  · simp only [replyExecutor, h, Option.bind_some]
    cases r.collector.reportErrors packet packet.errors with
    | none => exact ⟨h, (List.append_nil _).symm⟩
    | some call => exact ⟨h, callsTo_told b client serial call⟩

theorem handlePayloads_reply (h : b.request? client serial = some r) (packet : Packet) (payloads : List Payload) :
    (replyExecutor client serial).handlePayloads packet payloads b = (r.collector.check packet,
      b.updateClient client (·.updateCollector serial fun _ => (r.collector.receive packet).2)) := by
  simp only [replyExecutor, h, r.collector.receive_fst packet]

theorem collect_receive (h : b.request? client serial = some r) (decoded : Option Payload) :
    (b.collect client serial (.receive decoded)).2.request? client serial = some (r.after (.receive decoded)) ∧
      (b.collect client serial (.receive decoded)).2.callsTo client serial =
        b.callsTo client serial ++ r.callsFor (.receive decoded) := by
  simp only [collect, Request.after, Request.callsFor]
  cases hpacket : decoded.bind Packet.ofPayload? with
  | none =>
    rw [Executor.execute_of_none _ hpacket]
    exact ⟨h, (List.append_nil _).symm⟩
  | some packet =>
    obtain ⟨b₁, hb₁, hrequest, htold⟩ := replyErrors h packet
    rw [Executor.execute_of_packet _ hpacket]
    simp only [← hb₁, handlePayloads_reply hrequest]
    exact ⟨request?_updateCollector hrequest _, htold⟩

theorem callsTo_tellOutcome (b : Bus) (t : Timer) (scope : Identity) (o : RequestOutcome) :
    (b.tellOutcome t scope o).callsTo t.client t.request = b.callsTo t.client t.request ++ o.calls := by
  obtain ⟨l, hl⟩ := b.exists_tellOutcome_eq t scope o
  rw [hl]
  simp [callsTo, List.filterMap_map]

/-- A request hands over its outcome unless it has ended. -/
theorem outcomeAt_eq (h : b.request? client serial = some r) :
    b.outcomeAt client serial = if r.collector.isClosed then none else some r.collector.outcome := by
  obtain ⟨c, hc, hr⟩ := Option.bind_eq_some_iff.1 h
  simp only [outcomeAt, hc, Option.bind_some, Client.endRequest, hr, ReplyCollector.finish]
  split <;> rename_i hfinish <;> split at hfinish <;> simp_all

theorem collect_close (h : b.request? client serial = some r) (due : Nat) :
    (b.collect client serial (.close due)).2.request? client serial = some (r.after (.close due)) ∧
      (b.collect client serial (.close due)).2.callsTo client serial =
        b.callsTo client serial ++ r.callsFor (.close due) := by
  obtain ⟨c, hc, hr⟩ := Option.bind_eq_some_iff.1 h
  constructor
  · obtain ⟨c', hc', -, hrequests⟩ := (fired_fire b ⟨due, client, serial⟩).clients hc
    refine Option.bind_eq_some_iff.2 ⟨c', hc', ?_⟩
    rw [hrequests, hr]
    simp [Request.after]
  · have hended : (c.endRequest serial).1 = if r.collector.isClosed then none else some r.collector.outcome := by
      rw [← outcomeAt_eq h, outcomeAt, hc, Option.bind_some]
    simp only [collect, fire, hc, hended, Request.callsFor]
    by_cases hclosed : r.collector.isClosed = true
    · simp only [hclosed, if_true]
      exact (List.append_nil _).symm
    · simp only [hclosed, if_false, Bool.false_eq_true]
      exact callsTo_tellOutcome _ ⟨due, client, serial⟩ c.identity r.collector.outcome

theorem collect_step (h : b.request? client serial = some r) (step : CollectorStep) :
    (b.collect client serial step).2.request? client serial = some (r.after step) ∧
      (b.collect client serial step).2.callsTo client serial = b.callsTo client serial ++ r.callsFor step := by
  cases step with
  | confirm => exact ⟨request?_updateCollector h _, (List.append_nil _).symm⟩
  | receive decoded => exact collect_receive h decoded
  | close due => exact collect_close h due

/-- A packet is reported if it does not pass the check. -/
theorem collect_fst (h : b.request? client serial = some r) (step : CollectorStep) :
    (b.collect client serial step).1 = step.reported r.collector.id := by
  cases step with
  | confirm => rfl
  | close due => rfl
  | receive decoded =>
    simp only [collect, CollectorStep.reported]
    cases hpacket : decoded.bind Packet.ofPayload? with
    | none => rw [Executor.execute_of_none _ hpacket]
    | some packet =>
      rw [Executor.execute_of_packet _ hpacket]
      obtain ⟨b₁, hb₁, hrequest, -⟩ := replyErrors h packet
      simp only [← hb₁, handlePayloads_reply hrequest, ReplyCollector.check]
      cases packet.header with
      | plain header => rfl
      | rpc header =>
        by_cases hid : header.packetId = r.collector.id.text
        · simp [hid]
        · simp only [hid, if_false]
          rfl

theorem collectAll_of_fresh {header : RpcHeader} {id : CorrelationId} {expected : ExpectedReplies}
    (h : b.request? client serial = some ⟨.of header id expected, none⟩) (steps : List CollectorStep) :
    (b.collectAll client serial steps).request? client serial =
        some (CollectorStep.requestAfter header id expected steps) ∧
      (b.collectAll client serial steps).callsTo client serial =
        b.callsTo client serial ++ CollectorStep.callsAfter id expected steps := by
  induction steps using List.reverseRecOn with
  | nil => exact ⟨h, (List.append_nil _).symm⟩
  | append_singleton steps step ih =>
    have hleads : CollectorStep.Leads header id expected steps step := CollectorStep.leads step
    obtain ⟨hafter, hcalls⟩ := hleads
    obtain ⟨hrequest, htold⟩ := collect_step ih.1 step
    have hlast : b.collectAll client serial (steps ++ [step]) =
        ((b.collectAll client serial steps).collect client serial step).2 := by
      simp only [collectAll, List.foldl_append, List.foldl_cons, List.foldl_nil]
    rw [hlast, hrequest, hafter, htold, ih.2, List.append_assoc, hcalls]
    exact ⟨rfl, rfl⟩

/-- Whatever is done with the collector of a new request, in any order: until it is closed it holds the replies that
came in, in order, and afterwards none. The sender is told the errors in each of these replies, and when the collector
is closed the replies themselves, and then whether they are as many as expected. One outcome is handed over. What
comes in and is no reply is reported, also when it comes too late. The phases follow each other in order, and once the
collector is closed nothing changes any more. -/
theorem collected {header : RpcHeader} {id : CorrelationId} {expected : ExpectedReplies}
    (h : b.request? client serial = some ⟨.of header id expected, none⟩) (steps : List CollectorStep) :
    let counted := CollectorStep.counted id steps
    let closed := CollectorStep.closed steps
    let completion := if expected.satisfiedBy counted.length then Completion.complete else .countMismatch
    let outcome : RequestOutcome := ⟨id, counted, expected, completion⟩
    let after := b.collectAll client serial steps
    after.request? client serial = some (
      if closed then ⟨⟨header, id, expected, .detached completion, []⟩, some outcome⟩
      else ⟨⟨header, id, expected, CollectorStep.openPhase id steps, counted⟩, none⟩) ∧
    after.callsTo client serial = b.callsTo client serial ++
      ((counted.filter (!·.errors.isEmpty)).map (.errors ·.errors) ++
        if closed then .replies counted :: expected.mismatch counted.length else []) ∧
    after.outcomeAt client serial = (if closed then none else some outcome) ∧
    (∀ step, (after.collect client serial step).1 = step.reported id) ∧
    ∀ more,
      let later := b.collectAll client serial (steps ++ more)
      (∃ r r', after.request? client serial = some r ∧ later.request? client serial = some r' ∧
        r.collector.phase.rank ≤ r'.collector.phase.rank) ∧
      (closed = true → later.request? client serial = after.request? client serial ∧
        later.callsTo client serial = after.callsTo client serial ∧ later.outcomeAt client serial = none) := by
  intro counted closed completion outcome after
  obtain ⟨hrequest, hcalls⟩ := collectAll_of_fresh h steps
  have hid : (CollectorStep.requestAfter header id expected steps).collector.id = id := by
    unfold CollectorStep.requestAfter
    split <;> rfl
  refine ⟨hrequest, ?_, ?_, fun step => ?_, fun more => ?_⟩
  · rw [← CollectorStep.calls_outcome]
    exact hcalls
  · rw [outcomeAt_eq hrequest, CollectorStep.isClosed_requestAfter]
    cases hclosed : CollectorStep.closed steps with
    | true => simp [closed, hclosed]
    | false =>
      rw [CollectorStep.requestAfter_of_open hclosed]
      simp [closed, hclosed, ReplyCollector.outcome, ReplyCollector.completion, outcome, completion, counted]
  · rw [collect_fst hrequest, hid]
  · obtain ⟨hrequest', hcalls'⟩ := collectAll_of_fresh h (steps ++ more)
    refine ⟨⟨_, _, hrequest, hrequest', CollectorStep.rank_requestAfter_le more⟩, fun hclosed => ?_⟩
    obtain ⟨hsame, htold⟩ := CollectorStep.requestAfter_append_of_closed hclosed more
    refine ⟨by rw [hrequest', hsame, hrequest], by rw [hcalls', htold, hcalls], ?_⟩
    have hclosed' : CollectorStep.closed (steps ++ more) = true := by
      rw [CollectorStep.closed_append, Bool.or_eq_true]
      exact .inl hclosed
    rw [outcomeAt_eq hrequest', CollectorStep.isClosed_requestAfter, if_pos hclosed']

private def foreman : Identity := ⟨["demo"], "plant", "control", "foreman"⟩

private def docket : CorrelationId := ⟨"0190b5a4-7c1e-7000-8000-00000000000a"⟩

/-- What the foreman asks everyone under an id. -/
private def inquiry (id : CorrelationId) : RpcHeader := .of ⟨["level"]⟩ foreman .all id

/-- A bus on which the foreman has just asked, and expects two replies. -/
private def inquiring : Bus :=
  { empty with clients := [{ Client.of foreman (.empty .standard .json 1) (.tape false) with
      requests := [⟨.of (inquiry docket) docket (.exactly 2), none⟩] }] }

/-- A reply with an error in it. -/
private def dry : Packet := ⟨.rpc (inquiry docket), [.error ⟨"DRY", "no water"⟩, .integer 3]⟩

/-- A reply to some other request. -/
private def stray : Packet :=
  ⟨.rpc (inquiry ⟨"0190b5a4-7c1e-7000-8000-00000000000b"⟩), [.error ⟨"LOST", "no route"⟩]⟩

/-- One reply of two comes in before the request is confirmed, along with one to another request. After the end
another one comes in, and the timer fires again. -/
theorem collected_one_of_two :
    (inquiring.collectAll 0 0 [.receive (some stray.toPayload), .receive (some dry.toPayload), .confirm,
        .close 5000, .receive (some dry.toPayload), .close 6000]).callsTo 0 0 =
      [.errors [⟨"DRY", "no water"⟩], .replies [dry],
        .errors [⟨"REPLY_COUNT_MISMATCH", "expected 2 replies, received 1"⟩]] := by
  have h : inquiring.request? 0 0 = some ⟨.of (inquiry docket) docket (.exactly 2), none⟩ := rfl
  obtain ⟨-, hcalls, -⟩ := collected h [.receive (some stray.toPayload), .receive (some dry.toPayload), .confirm,
    .close 5000, .receive (some dry.toPayload), .close 6000]
  rw [hcalls]
  rfl

end Bus

end Switchboard
