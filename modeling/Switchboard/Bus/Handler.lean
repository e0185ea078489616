import Switchboard.Bus.DispatchTree
import Switchboard.Bus.ReplyCollector

/-!
# Handlers and routes

A request handler answers the requests on its subject with payloads, or fails; a notification handler takes what
comes on its subject. A handler is known by its name. A route is what a path of a client leads to: a request that
waits for replies, or a handler.
-/

namespace Switchboard

/-- What answers requests. It is a pure function of the header and the payloads: it does nothing with the bus while it
runs, neither publishes nor asks, binds or releases, and what it answers depends on nothing else. -/
structure RequestHandler where
  name : String
  run : RpcHeader → List Payload → Except BusError (List Payload)

/-- What takes notifications. It is a pure function too and does nothing with the bus itself; all that is seen of it
is that it was called, and whether it failed. -/
structure NotificationHandler where
  name : String
  run : PacketHeader → List Payload → Except BusError Unit

/-- Where a path leads. A request is known by its number. -/
inductive Route
  | reply (request : Nat)
  | request (subject : Subject) (handler : RequestHandler)
  | notification (subject : Subject) (handler : NotificationHandler)

namespace Route

def kind : Route → String
  | reply _ => "reply"
  | request _ _ => "request"
  | notification _ _ => "notification"

/-- The subject of a handler. -/
def subject? : Route → Option Subject
  | reply _ => none
  | request s _ => some s
  | notification s _ => some s

/-- Whether the route leads to a request. -/
def isReplyTo (serial : Nat) : Route → Bool
  | reply n => n == serial
  | _ => false

/-- Whether the route leads to a request handler of this name. -/
def isRequestHandler (name : String) : Route → Bool
  | request _ h => h.name == name
  | _ => false

/-- Whether the route leads to a notification handler of this name. -/
def isNotificationHandler (name : String) : Route → Bool
  | notification _ h => h.name == name
  | _ => false

end Route

/-! ### Answering a request -/

namespace RequestHandler

/-- The header of a packet, if it is a request that can be answered. -/
def accept (subject : Subject) (packet : Packet) : Except BusError RpcHeader :=
  match packet.header with
  | .plain _ => .error (.protocol (.noRpcHeader subject.text))
  | .rpc request =>
    match request.validate with
    | .error cause => .error (.protocol (.malformedRequest subject.text cause))
    | .ok () => .ok request

/-- The payloads of the reply: those of the handler, or the error it failed with. -/
def answer (result : Except BusError (List Payload)) : List Payload :=
  match result with
  | .ok payloads => payloads
  | .error e => [.error e.toPayload]

/-- The packet with which a request is answered. -/
def replyPacket (responder : Identity) (request : RpcHeader) (payloads : List Payload) : Packet :=
  ⟨.rpc (request.replyTo responder), payloads⟩

end RequestHandler

end Switchboard
