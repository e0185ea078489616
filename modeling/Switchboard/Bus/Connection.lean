import Switchboard.Bus.Delivery
import Switchboard.Bus.Transport

/-!
# Connections

A client joins the bus on a line. A connection is a client on an endpoint of the broker: it is opened by connecting
the endpoint and subscribing to the topics that the client answers to, and closed by taking both back. Clients then
bind handlers, publish notifications and make requests.
-/

namespace Switchboard.Bus

/-! ### Endpoints -/

/-- Makes a new endpoint. -/
def createEndpoint (b : Bus) : Nat × Bus :=
  let (id, broker) := b.broker.create
  (id, { b with broker := broker })

def watch (b : Bus) (endpoint : Nat) (watcher : Watcher) : Bus := { b with broker := b.broker.watch endpoint watcher }

def connect (b : Bus) (endpoint : Nat) : Bus :=
  let (told, broker) := b.broker.connect endpoint
  { b with broker := broker }.tellWatchers told

/-- The watchers are told before the endpoint is taken off. -/
def disconnect (b : Bus) (endpoint : Nat) : Bus :=
  let (told, broker) := b.broker.disconnect endpoint
  { b.tellWatchers told with broker := broker }

/-- The connection of an endpoint breaks. -/
def lose (b : Bus) (endpoint : Nat) (cause : String) : Bus :=
  let (told, broker) := b.broker.lose endpoint cause
  { b with broker := broker }.tellWatchers told

def subscribe (b : Bus) (endpoint : Nat) (filters : List String) : Except TransportError Bus := do
  pure { b with broker := ← b.broker.subscribe endpoint filters }

def unsubscribe (b : Bus) (endpoint : Nat) (filters : List String) : Except TransportError Bus := do
  pure { b with broker := ← b.broker.unsubscribe endpoint filters }

/-- Connects an endpoint that records all it hears of some topics. -/
def addTap (b : Bus) (filters : List String) : Nat × Bus :=
  let (id, b) := b.createEndpoint
  let b := { b with broker := b.broker.setListener id .tap }.connect id
  (id, (b.subscribe id filters).toOption.getD b)

/-! ### Opening and closing -/

/-- Adds a client. Its requests need timers, so the bus has to be running. -/
def join (b : Bus) (identity : Identity) (encoders : EncoderPool) (line : Line) : Except BusError (Nat × Bus) :=
  if b.running then .ok (b.clients.length, { b with clients := b.clients ++ [.of identity encoders line] })
  else .error .noScheduler

/-- The client leaves the bus: what is on its way no longer reaches it. Its line and its timers stay. -/
def forget (b : Bus) (client : Nat) : Bus := b.updateClient client fun c => { c with present := false }

/-- Opens a connection on an endpoint. -/
def openOn (b : Bus) (identity : Identity) (endpoint : Nat) (encoders : EncoderPool) : Except BusError Nat × Bus :=
  match b.join identity encoders (.endpoint endpoint) with
  | .error e => (.error e, b)
  | .ok (client, b) =>
    let b := b.watch endpoint (.journal identity.text)
    let b := { b with broker := b.broker.setListener endpoint (.client client) }.connect endpoint
    match b.subscribe endpoint identity.filters with
    | .error e => (.error (.transport e), b.forget client)
    | .ok b =>
      (.ok client, b.log none .info "connection opened"
        [("client", identity.text), ("filters", Text.quotedList identity.filters)])

/-- Opens a connection as settings describe it. -/
def openWith (b : Bus) (settings : Settings) (transports : TransportRegistry (Broker Listener Watcher))
    (types : TypeRegistry) : Except BusError Nat × Bus :=
  match settings.identity? with
  | .error e => (.error (.settings e), b)
  | .ok identity =>
    match transports.create settings.transport b.broker with
    | .error e => (.error e, b)
    | .ok (endpoint, broker) =>
      let encoders := EncoderPool.empty types settings.codec settings.encoderPoolSize.toNat
      match { b with broker := broker }.openOn identity endpoint encoders with
      | (.error e, b) => (.error e, b)
      | (.ok client, b) =>
        (.ok client, b.updateClient client fun c => { c with timeoutMs := settings.requestTimeoutMs.toNat })

/-- Closes a connection: it unsubscribes and disconnects. Where there is no connection there is nothing to close. -/
def close (b : Bus) (client : Nat) : Except BusError Unit × Bus :=
  match b.clients[client]? with
  | none => (.ok (), b)
  | some c =>
    match c.line with
    | .tape _ => (.ok (), b)
    | .endpoint id =>
      if b.broker.isConnected id then
        match b.unsubscribe id c.identity.filters with
        | .error e => (.error (.transport e), b)
        | .ok b => (.ok (), (b.disconnect id).log none .info "connection closed" [("client", c.identity.text)])
      else (.ok (), b)

/-! ### Handlers -/

/-- Lets a client bind something. -/
def attachTo (b : Bus) (client : Nat) (f : Client → Except BusError Client) : Except BusError Unit × Bus :=
  match b.clients[client]? with
  | none => (.ok (), b)
  | some c =>
    match f c with
    | .error e => (.error e, b)
    | .ok c => (.ok (), b.updateClient client fun _ => c)

/-- Lets a client release something. -/
def detachFrom (b : Bus) (client : Nat) (f : Client → Bool × Client) : Bool × Bus :=
  match b.clients[client]? with
  | none => (false, b)
  | some c =>
    let (released, c) := f c
    (released, b.updateClient client fun _ => c)

/-- Binds a request handler to a subject. -/
def register (b : Bus) (client : Nat) (subject : Subject) (h : RequestHandler) : Except BusError Unit × Bus :=
  b.attachTo client (·.register subject h)

/-- Releases a request handler, and says whether it was bound. -/
def unregister (b : Bus) (client : Nat) (subject : Subject) (name : String) : Bool × Bus :=
  b.detachFrom client (·.unregister subject name)

/-- Binds a notification handler to a subject. -/
def listen (b : Bus) (client : Nat) (subject : Subject) (h : NotificationHandler) : Except BusError Unit × Bus :=
  b.attachTo client (·.listen subject h)

/-- Releases a notification handler, and says whether it was bound. -/
def unlisten (b : Bus) (client : Nat) (subject : Subject) (name : String) : Bool × Bus :=
  b.detachFrom client (·.unlisten subject name)

/-! ### Notifications and requests -/

/-- Publishes a notification. -/
def notify (b : Bus) (client : Nat) (destination : Destination) (subject : Subject) (payloads : List Payload) :
    Except BusError Unit × Bus :=
  match b.clients[client]? with
  | none => (.error (.validation .noPublisher), b)
  | some c =>
    b.publish client (destination.topicFor c.identity subject)
      (some ⟨.plain (Header.of subject c.identity), payloads⟩) none

/-- Publishes a request and sets its timer, which answers the number of the request; `send` says what becomes of the
message. If the request cannot be published, its route is detached again and no timer is set. The timer counts from
the sending: the task that waits for it is taken up before the clock moves on. -/
def requestVia (send : Sending) (b : Bus) (client : Nat) (id : CorrelationId) (destination : Destination)
    (subject : Subject) (payloads : List Payload) (expected : ExpectedReplies) (timeoutMs : Nat) :
    Except BusError Nat × Bus :=
  match b.clients[client]? with
  | none => (.error (.validation .noPublisher), b)
  | some c =>
    let header := RpcHeader.of subject c.identity destination id
    let serial := c.requests.length
    match c.prepareRequest header id expected with
    | .error e => (.error (.dispatch e), b)
    | .ok prepared =>
      let b := b.updateClient client fun _ => prepared
      match publishVia send client (destination.topicFor c.identity subject)
          (some ⟨.rpc header, payloads⟩) none b with
      | (.error e, b) =>
        (.error e, (b.updateClient client (·.withdrawRequest serial id)).log (some c.identity) .warn
          "request publish failed" [("correlation_id", id.text), ("subject", subject.text), ("error", e.message)])
      | (.ok (), b) =>
        let b := b.updateClient client (·.confirmRequest serial)
        (.ok serial, { b with timers := b.timers ++ [⟨b.clock + timeoutMs, client, serial⟩] })

/-- Publishes a request on the line of a client and sets its timer. -/
def request (b : Bus) (client : Nat) (id : CorrelationId) (destination : Destination) (subject : Subject)
    (payloads : List Payload) (expected : ExpectedReplies) (timeoutMs : Nat) : Except BusError Nat × Bus :=
  b.requestVia (transmit (hear b.room []) client) client id destination subject payloads expected timeoutMs

end Switchboard.Bus
