import Switchboard.Bus.Handler
import Switchboard.Bus.Publishing

/-!
# Clients

A client has an identity, encoders, a tree of routes, and the requests it has made. It binds handlers to subjects,
and for each request it attaches a route on which the replies come in; the route is detached when the time of the
request is over, or when the request cannot be published.
-/

namespace Switchboard

/-- How a client reaches others: by an endpoint of the broker, or by a tape that records what is sent and may refuse
it. -/
inductive Line
  | endpoint (id : Nat)
  | tape (refusing : Bool)
deriving DecidableEq, Repr

/-- A request that has been made, and what came of it once its time is over. -/
structure Request where
  collector : ReplyCollector
  outcome : Option RequestOutcome

/-- A client is present until it is forgotten; what was on its way then no longer reaches it. -/
structure Client where
  identity : Identity
  encoders : EncoderPool
  tree : DispatchTree Route
  requests : List Request
  timeoutMs : Nat
  line : Line
  present : Bool

namespace Client

def of (identity : Identity) (encoders : EncoderPool) (line : Line) : Client :=
  ⟨identity, encoders, .empty identity, [], Settings.usualTimeoutMs, line, true⟩

/-! ### Handlers -/

/-- Binds a route to a subject, on which nothing else may be bound. -/
def attach (c : Client) (subject : Subject) (route : Route) : Except BusError Client :=
  match c.tree.add subject.segments route with
  | .ok tree => .ok { c with tree := tree }
  | .error (.alreadyRegistered _) => .error (.duplicateHandler subject.text)
  | .error .rootPath => .error (.dispatch .rootPath)

/-- Releases what is bound to a subject, if it is chosen, and says whether it was. -/
def detach (c : Client) (subject : Subject) (chosen : Route → Bool) : Bool × Client :=
  let (removed, tree) := c.tree.removeIf subject.segments chosen
  (removed.isSome, { c with tree := tree })

/-- Binds a request handler. -/
def register (c : Client) (subject : Subject) (h : RequestHandler) : Except BusError Client :=
  c.attach subject (.request subject h)

/-- Releases the request handler of this name. -/
def unregister (c : Client) (subject : Subject) (name : String) : Bool × Client :=
  c.detach subject (·.isRequestHandler name)

/-- Binds a notification handler. -/
def listen (c : Client) (subject : Subject) (h : NotificationHandler) : Except BusError Client :=
  c.attach subject (.notification subject h)

/-- Releases the notification handler of this name. -/
def unlisten (c : Client) (subject : Subject) (name : String) : Bool × Client :=
  c.detach subject (·.isNotificationHandler name)

/-! ### Requests -/

/-- The path on which the replies to a request come in. -/
def replyPath (c : Client) (id : CorrelationId) : List String := c.identity.address ++ [Segment.reply, id.text]

/-- Gets ready for a request: its number is how many requests there were before. -/
def prepareRequest (c : Client) (header : RpcHeader) (id : CorrelationId) (expected : ExpectedReplies) :
    Except DispatchError Client := do
  let tree ← c.tree.add (c.replyPath id) (.reply c.requests.length)
  pure { c with tree := tree, requests := c.requests ++ [⟨.of header id expected, none⟩] }

/-- Detaches the route of a request. -/
def detachRequest (c : Client) (serial : Nat) (id : CorrelationId) : Client :=
  { c with tree := (c.tree.removeIf (c.replyPath id) (·.isReplyTo serial)).2 }

/-- Takes back a request that could not be published. -/
def withdrawRequest (c : Client) (serial : Nat) (id : CorrelationId) : Client :=
  { c.detachRequest serial id with requests := c.requests.eraseIdx serial }

def updateCollector (c : Client) (serial : Nat) (f : ReplyCollector → ReplyCollector) : Client :=
  { c with requests := c.requests.modify serial fun r => { r with collector := f r.collector } }

/-- Notes that a request has been published. -/
def confirmRequest (c : Client) (serial : Nat) : Client := c.updateCollector serial (·.markSent)

/-- Ends a request whose time is over, and answers what came of it. A request ends once. -/
def endRequest (c : Client) (serial : Nat) : Option RequestOutcome × Client :=
  match c.requests[serial]? with
  | none => (none, c)
  | some r =>
    let c := c.detachRequest serial r.collector.id
    match r.collector.finish with
    | (none, _) => (none, c)
    | (some outcome, collector) =>
      (some outcome, { c with requests := c.requests.modify serial fun _ => ⟨collector, some outcome⟩ })

end Client

end Switchboard
