import Switchboard.Bus.Executor
import Switchboard.CorrelationId

/-!
# Reply collectors

A collector gathers the replies to one request until the time of the request is over. It takes every reply that
carries the id of the request and refuses all others; what comes after it was closed is passed over. It goes through
the phases created, sent, accumulating and detached, and never back. Replies may come in before the request is marked
as sent.
-/

namespace Switchboard

/-- How many replies a request expects. -/
inductive ExpectedReplies
  | exactly (n : Nat)
  | unlimited
deriving DecidableEq, Repr

namespace ExpectedReplies

/-- A negative count stands for any number. -/
def ofCount (count : Int) : ExpectedReplies := if count < 0 then unlimited else exactly count.toNat

def satisfiedBy (received : Nat) : ExpectedReplies → Bool
  | exactly n => n == received
  | unlimited => true

def text : ExpectedReplies → String
  | exactly n => toString n
  | unlimited => "unlimited"

end ExpectedReplies

/-- How a request ended. -/
inductive Completion
  | complete
  | countMismatch
deriving DecidableEq, Repr

def Completion.text : Completion → String
  | complete => "complete"
  | countMismatch => "count_mismatch"

inductive RequestPhase
  | created
  | sent
  | accumulating
  | detached (completion : Completion)
deriving DecidableEq, Repr

def RequestPhase.text : RequestPhase → String
  | created => "created"
  | sent => "sent"
  | accumulating => "accumulating"
  | detached completion => s!"detached:{completion.text}"

/-- What came of a request: its replies in order of arrival. -/
structure RequestOutcome where
  id : CorrelationId
  replies : List Packet
  expected : ExpectedReplies
  completion : Completion

/-- What is told to whoever sent a request. -/
inductive ReplyCall
  | replies (l : List Packet)
  | errors (l : List ErrorPayload)

namespace RequestOutcome

/-- The error of a request with a wrong number of replies. -/
def mismatch? (o : RequestOutcome) : Option BusError :=
  match o.completion, o.expected with
  | .countMismatch, .exactly n => some (.replyCountMismatch n o.replies.length)
  | _, _ => none

/-- The replies, unless there is a wrong number of them. -/
def checked (o : RequestOutcome) : Except BusError (List Packet) :=
  match o.mismatch? with
  | some e => .error e
  | none => .ok o.replies

/-- What is told about the end of a request: the replies, then an error if there is a wrong number of them. -/
def calls (o : RequestOutcome) : List ReplyCall :=
  .replies o.replies :: (o.mismatch?.map fun e => ReplyCall.errors [e.toPayload]).toList

end RequestOutcome

structure ReplyCollector where
  request : RpcHeader
  id : CorrelationId
  expected : ExpectedReplies
  phase : RequestPhase
  replies : List Packet

namespace ReplyCollector

def of (request : RpcHeader) (id : CorrelationId) (expected : ExpectedReplies) : ReplyCollector :=
  ⟨request, id, expected, .created, []⟩

def isClosed (c : ReplyCollector) : Bool :=
  match c.phase with
  | .detached _ => true
  | _ => false

/-- The request has been published; if replies were faster this changes nothing. -/
def markSent (c : ReplyCollector) : ReplyCollector := if c.phase = .created then { c with phase := .sent } else c

/-- Refuses a packet that is no reply to this request. -/
def check (c : ReplyCollector) (packet : Packet) : Except BusError Unit :=
  match packet.header with
  | .plain _ => .error (.protocol .plainReply)
  | .rpc h =>
    if h.packetId = c.id.text then .ok () else .error (.protocol (.foreignReply h.packetId c.id.text))

/-- What is told about the errors that a packet carries: nothing if it is no reply or comes too late. -/
def reportErrors (c : ReplyCollector) (packet : Packet) (errors : List ErrorPayload) : Option ReplyCall :=
  match c.check packet with
  | .error _ => none
  | .ok () => if c.isClosed then none else some (.errors errors)

/-- Counts a reply. -/
def receive (c : ReplyCollector) (packet : Packet) : Except BusError Unit × ReplyCollector :=
  match c.check packet with
  | .error e => (.error e, c)
  | .ok () =>
    if c.isClosed then (.ok (), c)
    else (.ok (), { c with replies := c.replies ++ [packet], phase := .accumulating })

/-- How the request would end now. -/
def completion (c : ReplyCollector) : Completion :=
  if c.expected.satisfiedBy c.replies.length then .complete else .countMismatch

/-- What came of the request if it ended now. -/
def outcome (c : ReplyCollector) : RequestOutcome := ⟨c.id, c.replies, c.expected, c.completion⟩

/-- Closes the collector and hands its replies over. A second closing does nothing. -/
def finish (c : ReplyCollector) : Option RequestOutcome × ReplyCollector :=
  if c.isClosed then (none, c)
  else (some c.outcome, { c with phase := .detached c.completion, replies := [] })

end ReplyCollector

end Switchboard
