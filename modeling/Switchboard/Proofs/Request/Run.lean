import Switchboard.Bus.Clock
import Switchboard.Bus.Connection

/-!
# Runs of a requester

A requester is a client that is alone on its bus. In a run it makes requests, messages come in on paths of its tree,
handlers are bound and released, and the clock moves, in any order. While a request is handed to the line, the line
may let messages come in before it accepts or refuses the request.

Here stand the steps of a run and what a run says about a request: what came in before it was due, and what its sender
was told.
-/

namespace Switchboard

/-- A message that comes in at a path, decoded if it could be. -/
structure Arrival where
  path : List String
  decoded : Option Payload

namespace Arrival

/-- The reply that an arrival brings to the request with an id: it comes in on the reply path of the request, in any
form of that path, and is a packet whose header carries the id. -/
def replyTo? (owner : Identity) (id : CorrelationId) (a : Arrival) : Option Packet :=
  if owner.relative a.path = [Segment.reply, id.text] then
    (a.decoded.bind Packet.ofPayload?).filter fun p => p.header.rpc?.any (·.packetId == id.text)
  else none

end Arrival

/-- The replies to a request among some arrivals, in order of arrival. -/
def repliesTo (owner : Identity) (id : CorrelationId) (l : List Arrival) : List Packet :=
  l.filterMap (·.replyTo? owner id)

/-- A request that is to be made, and what the line does with it: what it lets come in meanwhile, and its verdict. -/
structure RequestPlan where
  id : CorrelationId
  destination : Destination
  subject : Subject
  payloads : List Payload
  expected : ExpectedReplies
  timeoutMs : Nat
  meanwhile : List Arrival
  verdict : Except TransportError Unit

inductive RequesterStep
  | send (p : RequestPlan)
  | arrive (a : Arrival)
  | advance (ms : Nat)
  | register (subject : Subject) (h : RequestHandler)
  | unregister (subject : Subject) (name : String)
  | listen (subject : Subject) (h : NotificationHandler)
  | unlisten (subject : Subject) (name : String)

namespace RequesterStep

/-- The id that a step uses up. -/
def id? : RequesterStep → Option CorrelationId
  | send p => some p.id
  | _ => none

/-- The ids of the requests of a run. -/
def ids (steps : List RequesterStep) : List CorrelationId := steps.filterMap id?

/-- The steps before the one that moves the clock to a time. -/
def before (due : Nat) : (clock : Nat) → List RequesterStep → List RequesterStep
  | _, [] => []
  | clock, advance ms :: r => if due ≤ clock + ms then [] else advance ms :: before due (clock + ms) r
  | clock, s :: r => s :: before due clock r

/-- Whether some step moves the clock to a time, or past it. -/
def reaches (due : Nat) : (clock : Nat) → List RequesterStep → Bool
  | _, [] => false
  | clock, advance ms :: r => due ≤ clock + ms || reaches due (clock + ms) r
  | clock, _ :: r => reaches due clock r

end RequesterStep

/-- The list of replies that the sender of a request is told by an event. -/
def BusEvent.replies? (serial : Nat) : BusEvent → Option (List Packet)
  | told 0 k (.replies l) => if k = serial then some l else none
  | _ => none

namespace Bus

/-! ### Steps -/

/-- A bus with a requester on a tape. -/
def withRequester (identity : Identity) (encoders : EncoderPool) (refusing : Bool) (room : Nat := usualRoom) : Bus :=
  { empty room with clients := [.of identity encoders (.tape refusing)] }

theorem join_empty (identity : Identity) (encoders : EncoderPool) (refusing : Bool) (room : Nat) :
    (empty room).join identity encoders (.tape refusing) = .ok (0, withRequester identity encoders refusing room) :=
  rfl

/-- Whatever the tree of the requester holds at the path of an arrival handles it. -/
def arrive (b : Bus) (a : Arrival) : Bus :=
  match b.clients[0]? with
  | none => b
  | some c =>
    match c.tree.get? a.path with
    | none => b
    | some route => ((executor 0 c.identity route b.room).execute a.decoded b).2

/-- The line of a plan. -/
def lineOf (p : RequestPlan) : Sending := fun _ _ b => (p.verdict, p.meanwhile.foldl arrive b)

/-- Makes a request. -/
def send (b : Bus) (p : RequestPlan) : Except BusError Nat × Bus :=
  b.requestVia (lineOf p) 0 p.id p.destination p.subject p.payloads p.expected p.timeoutMs

def take (b : Bus) : RequesterStep → Bus
  | .send p => (b.send p).2
  | .arrive a => b.arrive a
  | .advance ms => b.advance ms
  | .register subject h => (b.register 0 subject h).2
  | .unregister subject name => (b.unregister 0 subject name).2
  | .listen subject h => (b.listen 0 subject h).2
  | .unlisten subject name => (b.unlisten 0 subject name).2

def run (b : Bus) (steps : List RequesterStep) : Bus := steps.foldl take b

/-! ### What comes in -/

/-- What comes in during a step. A request that fails otherwise than by the verdict of its line never gets there. -/
def arrivals (b : Bus) : RequesterStep → List Arrival
  | .arrive a => [a]
  | .send p =>
    match (b.send p).1 with
    | .ok _ => p.meanwhile
    | .error (.transport _) => p.meanwhile
    | .error _ => []
  | _ => []

/-- What comes in during a run. -/
def arrivalsDuring (b : Bus) : List RequesterStep → List Arrival
  | [] => []
  | s :: r => b.arrivals s ++ (b.take s).arrivalsDuring r

/-! ### What senders are told -/

/-- The lists of replies that the sender of a request is told, each one by a call of its own. -/
def repliesTold (b : Bus) (serial : Nat) : List (List Packet) := b.events.filterMap (·.replies? serial)

/-- The phase that a request is in. -/
def phase? (b : Bus) (serial : Nat) : Option RequestPhase := (b.request? 0 serial).map (·.collector.phase)

/-- What has come of a request. -/
def outcome? (b : Bus) (serial : Nat) : Option RequestOutcome := (b.request? 0 serial).bind (·.outcome)

end Bus

end Switchboard
