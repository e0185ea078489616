import Switchboard.Bus.Basic

/-!
# Delivery

A message is delivered while it is published: the listeners it reaches handle it before the publisher goes on, and
the replies they publish are delivered in the same way. A client looks up the route at the topic of a message; without
a route the message is not even decoded. What goes wrong while a message is handled is logged and reported.

What is logged is attributed to the client that began last to handle a message, of those that are still at it. A
client that is reached again in the meantime, by the answer to its own answer, does not begin anew.

Each function takes a parameter `hear` that says how a client handles a message that reaches it, and `Bus.hear` closes
the circle, as deep as there is room.
-/

namespace Switchboard.Bus

/-- How a client handles a message that reaches it. -/
abbrev Hearing := Nat → Outgoing → Bus → Bus

/-! ### Scopes -/

/-- The clients that are handling a message, each once, and first the one that began last. -/
abbrev Scopes := List (Nat × Identity)

namespace Scopes

/-- A client handles a message. If it is handling one already, the scopes stay as they are. -/
def enter (s : Scopes) (client : Nat) (identity : Identity) : Scopes :=
  if s.any (·.1 == client) then s else (client, identity) :: s

/-- The client that events are attributed to, if there is one. -/
def innermost (s : Scopes) : Option Identity := s.head?.map (·.2)

end Scopes

/-! ### Publishing -/

/-- Passes a message to listeners, one after the other. -/
def deliver (hear : Hearing) (message : Outgoing) : List Listener → Bus → Bus
  | [], b => b
  | .tap :: r, b => deliver hear message r (b.record (.tapped message))
  | .client id :: r, b => deliver hear message r (hear id message b)

/-- Passes a message of an endpoint to the listeners it reaches. -/
def transmitFrom (hear : Hearing) (endpoint : Nat) (message : Outgoing) (b : Bus) :
    Except TransportError Unit × Bus :=
  match b.broker.publish endpoint message.topic with
  | .error e => (.error e, b)
  | .ok listeners => (.ok (), deliver hear message listeners b)

/-- Hands a message of a client to its line. -/
def transmit (hear : Hearing) (client : Nat) (line : Line) (message : Outgoing) (b : Bus) :
    Except TransportError Unit × Bus :=
  match line with
  | .endpoint id => transmitFrom hear id message b
  | .tape refusing =>
    (if refusing then .error ⟨.publish, "refused"⟩ else .ok (), b.record (.taped client message))

/-- What becomes of a message that is handed to a line. -/
abbrev Sending := Line → Outgoing → Bus → Except TransportError Unit × Bus

/-- Publishes a packet for a client; `send` says what becomes of the message. A client that does not exist has no
line. -/
def publishVia (send : Sending) (client : Nat) (topic : List String) (packet : Option Packet) (codec : Option Codec)
    (b : Bus) : Except BusError Unit × Bus :=
  match b.clients[client]? with
  | none => (.error (.validation .noPublisher), b)
  | some c =>
    let (result, encoders) := c.encoders.prepare topic packet codec
    let b := b.updateClient client fun c => { c with encoders := encoders }
    match result with
    | .error e => (.error e, b)
    | .ok message =>
      match send c.line message b with
      | (.error e, b) => (.error (.transport e), b)
      | (.ok (), b) => (.ok (), b)

/-- Publishes a packet for a client on its line. -/
def publishBy (hear : Hearing) (client : Nat) (topic : List String) (packet : Option Packet) (codec : Option Codec)
    (b : Bus) : Except BusError Unit × Bus :=
  publishVia (transmit hear client) client topic packet codec b

/-! ### Handling -/

/-- Logs errors that a request or a notification carries. -/
def logErrors (b : Bus) (scopes : Scopes) (message : String) (fields : List (String × String))
    (errors : List ErrorPayload) : Bus :=
  errors.foldl (fun b e => b.log scopes.innermost .warn message (fields ++ [("error", e.text)])) b

/-- The replies to a request are counted, and their errors are told to its sender. -/
def replyExecutor (client serial : Nat) : Executor Bus where
  handleErrors packet errors b :=
    match (b.request? client serial).bind (·.collector.reportErrors packet errors) with
    | some call => b.record (.told client serial call)
    | none => b
  handlePayloads packet _ b :=
    match b.request? client serial with
    | none => (.ok (), b)
    | some r =>
      let (result, collector) := r.collector.receive packet
      (result, b.updateClient client (·.updateCollector serial fun _ => collector))

/-- A request is answered with what its handler makes of it. If the handler fails it is answered with the error, which
is then reported; if the answer cannot be published that is reported instead. -/
def requestExecutor (hear : Hearing) (scopes : Scopes) (client : Nat) (responder : Identity) (subject : Subject)
    (h : RequestHandler) : Executor Bus where
  handleErrors packet errors b :=
    b.logErrors scopes "request carried an error payload"
      [("subject", subject.text), ("packet_id", packet.header.packetId.getD "")] errors
  handlePayloads packet payloads b :=
    match RequestHandler.accept subject packet with
    | .error e => (.error e, b)
    | .ok request =>
      let b := b.record (.handled client h.name (.rpc request) payloads)
      let result := h.run request payloads
      let b := match result with
        | .ok _ => b
        | .error e => b.log scopes.innermost .warn "request handler failed"
            [("subject", subject.text), ("packet_id", request.packetId), ("error", e.message)]
      let reply := RequestHandler.replyPacket responder request (RequestHandler.answer result)
      match publishBy hear client request.replyTopic (some reply) none b with
      | (.error e, b) => (.error e, b)
      | (.ok (), b) => (result.map fun _ => (), b)

/-- A notification is left to its handler. -/
def notificationExecutor (scopes : Scopes) (client : Nat) (subject : Subject) (h : NotificationHandler) :
    Executor Bus where
  handleErrors _ errors b :=
    b.logErrors scopes "notification carried an error payload" [("subject", subject.text)] errors
  handlePayloads packet payloads b :=
    (h.run packet.header payloads, b.record (.handled client h.name packet.header payloads))

/-- What a route of a client does with packets. -/
def executorBy (hear : Hearing) (scopes : Scopes) (client : Nat) (owner : Identity) : Route → Executor Bus
  | .reply serial => replyExecutor client serial
  | .request subject h => requestExecutor hear scopes client owner subject h
  | .notification subject h => notificationExecutor scopes client subject h

/-! ### Dispatching -/

/-- Decodes a message for a client; a failure is logged. -/
def decodeFor (scopes : Scopes) (client : Nat) (c : Client) (message : Outgoing) (b : Bus) : Option Payload × Bus :=
  let (result, encoders) := c.encoders.decodeDetected message.bytes
  let b := b.updateClient client fun c => { c with encoders := encoders }
  match result with
  | .ok p => (some p, b)
  | .error e =>
    (none, b.log scopes.innermost .warn "failed to decode inbound message"
      [("topic", message.topic), ("bytes", toString message.bytes.length), ("error", e.message)])

/-- Handles a message that reaches a client while others handle theirs, and reports what went wrong. -/
def dispatchBy (hear : Scopes → Hearing) (others : Scopes) (client : Nat) (message : Outgoing) (b : Bus) :
    List ExecutionError × Bus :=
  match b.clients[client]? with
  | none => ([], b)
  | some c =>
    match c.tree.get? (Topic.split message.topic) with
    | none => ([], b)
    | some route =>
      let scopes := others.enter client c.identity
      let (decoded, b) := decodeFor scopes client c message b
      let (errors, b) := (executorBy (hear scopes) scopes client c.identity route).execute decoded b
      (errors, errors.foldl (fun b e => b.log scopes.innermost .warn "inbound message failed"
        [("topic", message.topic), ("route", route.kind), ("code", e.code), ("error", e.message)]) b)

/-! ### Closing the circle -/

/-- A client that is present dispatches what reaches it, if there is room for that. -/
def hear : (room : Nat) → Scopes → Hearing
  | 0, _, _, _, b => b
  | room + 1, others, client, message, b =>
    if (b.clients[client]?).any (·.present) then (dispatchBy (hear room) others client message b).2 else b

/-- Publishes a packet for a client. -/
def publish (b : Bus) (client : Nat) (topic : List String) (packet : Option Packet) (codec : Option Codec) :
    Except BusError Unit × Bus :=
  publishBy (hear b.room []) client topic packet codec b

/-- Lets a client handle a message as if it had come in. -/
def dispatch (b : Bus) (client : Nat) (message : Outgoing) : List ExecutionError × Bus :=
  dispatchBy (hear b.room) [] client message b

/-- What a route of a client does with packets that no dispatch has led there, on a bus of the given room. -/
def executor (client : Nat) (owner : Identity) (route : Route) (room : Nat := usualRoom) : Executor Bus :=
  executorBy (hear room []) [] client owner route

/-- Publishes a message from an endpoint as it is. -/
def inject (b : Bus) (endpoint : Nat) (message : Outgoing) : Except TransportError Unit × Bus :=
  transmitFrom (hear b.room []) endpoint message b

end Switchboard.Bus
